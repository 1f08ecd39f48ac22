import ExtManager.Codec.Ascii
import ExtManager.Codec.Dict
import ExtManager.Codec.Layout

-- `json.loads` on what `json.dumps` has written.
namespace PythonJson

open Dumps Scanner

variable [PythonJson]

-- The digits that an `int` is read from, and written in, at most.
def maxStrDigits : Nat :=
  4300

-- `dict(pairs)`.
def dict (pairs : Fields) : Fields :=
  (Dict.ofList pairs).items.insertionSort (·.1 ≤ ·.1)

-- `json.loads`, up to `NaN` and the infinities. A float is the text that it is written as.
def reader : Dialect LoadsFailure where
  malformed     := .decode
  constant      := .decode
  number n      :=
    if n.fraction = [] ∧ n.exponent = [] then
      if maxStrDigits < (n.whole.filter isDigit).length then .error .value
      else .ok (.int (Number.value n.whole))
    else
      .ok (.float (floatRepr (n.whole ++ n.fraction ++ n.exponent)))
  text t        := t
  key _ _       := .ok ()
  object fields := .ok (dict fields.reverse)
  trailing      := false

end PythonJson

-- What is written for a finite float is a number with a fraction or an exponent, and is read as the
-- float that it is written for.
class LawfulFloat [PythonJson] : Prop where
  token (t : Text) : PythonJson.isFinite t → ∃ n : Scanner.Number,
    Scanner.Number.read? (PythonJson.floatRepr t) = some n ∧ n.rest = [] ∧
      ¬(n.fraction = [] ∧ n.exponent = []) ∧
      n.whole ++ n.fraction ++ n.exponent = PythonJson.floatRepr t
  bare (t : Text) : PythonJson.isFinite t → ∀ c ∈ PythonJson.floatRepr t, Scanner.isBare c
  repr_repr (t : Text) : PythonJson.isFinite t →
    PythonJson.floatRepr (PythonJson.floatRepr t) = PythonJson.floatRepr t

-- A `str` which JSON can spell: two halves of a pair in a row would be read as one character.
structure Text.Spelled (t : Text) : Prop where
  points   : ∀ p ∈ t, p < 0x110000
  unpaired : Dumps.Unpaired t

-- A value that `json.dumps` writes and `json.loads` reads again.
inductive Value.Dumpable [PythonJson] : Value → Prop
  | null : Dumpable .null
  | bool {b} : Dumpable (.bool b)
  | int {n} : ((Dumps.decimal n).filter Scanner.isDigit).length ≤ PythonJson.maxStrDigits →
    Dumpable (.int n)
  | float {t} : PythonJson.isFinite t → Dumpable (.float (PythonJson.floatRepr t))
  | str {t} : t.Spelled → Dumpable (.str t)
  | arr {items} : (∀ v ∈ items, Dumpable v) → Dumpable (.arr items)
  | obj {fields : Fields} : fields.Sorted → (∀ f ∈ fields, f.1.Spelled) →
    (∀ f ∈ fields, Dumpable f.2) → Dumpable (.obj fields)

namespace Value

mutual

-- How deep the arrays and objects of a value are nested.
def depth : Value → Nat
  | arr items  => depthItems items + 1
  | obj fields => depthFields fields + 1
  | _          => 0

def depthItems : List Value → Nat
  | []      => 0
  | v :: vs => max v.depth (depthItems vs)

def depthFields : List (Text × Value) → Nat
  | []           => 0
  | (_, v) :: fs => max v.depth (depthFields fs)

end

@[simp] theorem depth_bool {b : Bool} : (bool b).depth = 0 := rfl

@[simp] theorem depth_int {n : Int} : (int n).depth = 0 := rfl

theorem depth_obj {fields : Fields} : (obj fields).depth = depthFields fields + 1 := rfl

@[simp] theorem depthFields_nil : depthFields [] = 0 := rfl

@[simp] theorem depthFields_cons {f : Text × Value} {fs : Fields} :
    depthFields (f :: fs) = max f.2.depth (depthFields fs) := rfl

theorem depthFields_le {fields : Fields} {n : Nat} :
    depthFields fields ≤ n ↔ ∀ f ∈ fields, f.2.depth ≤ n := by
  induction fields with
  | nil          => simp
  | cons f fs ih => rw [depthFields_cons, max_le_iff, ih, List.forall_mem_cons]

end Value

namespace PythonJson

open Dumps Scanner

variable [PythonJson] {v : Value} {t : Text} {fields : Fields}

-- The text that `json.dumps` writes.
abbrev style : Style :=
  ascii floatRepr

omit [PythonJson] in
theorem dict_sorted (h : fields.Sorted) : dict fields = fields := by
  have hn : (fields.map (·.1)).Nodup := (List.pairwise_map.mpr h).imp ne_of_lt
  rw [dict, Dict.items_ofList hn]
  exact List.Pairwise.insertionSort_eq (h.imp le_of_lt)

-- A number is neither a constant nor the start of one.
omit [PythonJson] in
theorem literal_number {n : Number} {ε : Type} {d : Dialect ε} (h : Number.read? t = some n)
    (hr : n.rest = []) : literal d t = d.number n := by
  have hprefix : ¬("NaN".points.isPrefixOf t || "Infinity".points.isPrefixOf t ||
      "-Infinity".points.isPrefixOf t) := by
    simp only [Bool.or_eq_true, List.isPrefixOf_iff_prefix]
    rintro ((hp | hp) | hp) <;> obtain ⟨r, rfl⟩ := hp <;> cases h
  have hne : t ≠ "null".points ∧ t ≠ "true".points ∧ t ≠ "false".points := by
    refine ⟨?_, ?_, ?_⟩ <;> rintro rfl <;> cases h
  rw [literal, if_neg hne.1, if_neg hne.2.1, if_neg hne.2.2, if_neg hprefix, h]
  cases hn : d.number n <;> simp [hr, hn, bind, Except.bind]

theorem spells_style (h : t.Spelled) : Spells reader style t :=
  spells_ascii h.unpaired

theorem keyed_reader (h : ∀ f ∈ fields, f.1.Spelled) (before : Fields) :
    Keyed reader style before fields := by
  induction fields generalizing before with
  | nil => trivial
  | cons f fields ih =>
    have ⟨hf, h⟩ := List.forall_mem_cons.mp h
    exact ⟨spells_style hf, rfl, rfl, ih h _⟩

theorem readable_of_dumpable [LawfulFloat] (h : v.Dumpable) : Readable reader style v := by
  induction h with
  | null     => exact .null
  | bool     => exact .bool
  | int h    =>
    refine .int ?_
    simp only [reader]
    rw [if_pos ⟨trivial, trivial⟩, if_neg (not_lt.mpr h), value_decimal]
  | @float t h =>
    obtain ⟨n, hn, hr, hf, he⟩ := LawfulFloat.token t h
    have hl : literal reader (floatRepr t) = .ok (.float (floatRepr t)) := by
      rw [literal_number hn hr]
      refine (if_neg hf).trans ?_
      rw [he, LawfulFloat.repr_repr _ h]
    refine .float ?_ ?_ ?_ <;> simp only [ascii, LawfulFloat.repr_repr _ h]
    · intro hnil
      rw [hnil] at hn
      cases hn
    · exact LawfulFloat.bare _ h
    · exact hl
  | str h    => exact .str (spells_style h) rfl
  | arr h ih => exact .arr ih
  | obj hs hk h ih =>
    refine .obj (keyed_reader hk []) ih ?_
    simp only [reader, List.reverse_reverse, dict_sorted hs]

section Ascii

variable {l : Layout} {p q depth : Nat}

def Ascii (t : Text) : Prop :=
  ∀ q ∈ t, q < 0x80

omit [PythonJson] in
theorem printable_of_point (hp : p < 0x110000) : ∀ q ∈ escapeAscii p, Printable q := by
  rw [escapeAscii]
  split
  case h_1 c hc =>
    exact List.forall_mem_cons.mpr ⟨by decide,
      List.forall_mem_singleton.mpr (printable_shortEscape p (shortEscape?_lt hc) c hc)⟩
  case h_2 =>
    split
    case isTrue hlt => exact List.forall_mem_singleton.mpr hlt
    split
    case isTrue hlt => exact printable_unicodeEscape hlt
    exact List.forall_mem_append.mpr ⟨printable_unicodeEscape (by omega),
      printable_unicodeEscape (by omega)⟩

omit [PythonJson] in
theorem Ascii.of_printable (h : ∀ q ∈ t, Printable q) : Ascii t :=
  fun q hq => (h q hq).2.trans (by decide)

theorem ascii_string (h : t.Spelled) : Ascii (string style t) := by
  refine .of_printable ?_
  rw [string]
  simp only [List.forall_mem_append, List.forall_mem_cons, List.forall_mem_flatMap]
  exact ⟨⟨by decide, fun p hp => printable_of_point (h.points p hp)⟩, by decide,
    List.forall_mem_nil _⟩

omit [PythonJson] in
theorem ascii_blank (h : Layout.isBlank t) : Ascii t := by
  intro q hq
  have hs := List.all_eq_true.mp h q hq
  simp only [isSpace, Bool.or_eq_true, decide_eq_true_eq] at hs
  omega

omit [PythonJson] in
theorem ascii_bare (h : ∀ q ∈ t, isBare q) : Ascii t := by
  intro q hq
  have hb := h q hq
  simp [isBare, isDigit, isLetter] at hb
  omega

omit [PythonJson] in
theorem ascii_append {u : Text} : Ascii (t ++ u) ↔ Ascii t ∧ Ascii u :=
  List.forall_mem_append

omit [PythonJson] in
theorem ascii_cons : Ascii (p :: t) ↔ p < 0x80 ∧ Ascii t :=
  List.forall_mem_cons

mutual

theorem ascii_written [LawfulFloat] (hl : l.Blank) (depth : Nat) :
    (v : Value) → v.Dumpable → Ascii (written l style depth v)
  | .null, _ | .bool true, _ | .bool false, _ | .arr [], _ | .obj [], _ => by
    rw [written, Ascii]
    decide
  | .int n, _ => by
    rw [written]
    exact .of_printable printable_decimal
  | .float _, h => by
    cases h with | @float t h =>
    rw [written]
    simp only [ascii, LawfulFloat.repr_repr t h]
    exact ascii_bare (LawfulFloat.bare t h)
  | .str t, h => by
    cases h with | str h =>
    rw [written]
    exact ascii_string h
  | .arr (v :: vs), h => by
    cases h with | arr h =>
    have ⟨hv, hvs⟩ := List.forall_mem_cons.mp h
    rw [written, ascii_append, ascii_append, ascii_cons]
    exact ⟨⟨⟨by decide, ascii_blank (hl.first _)⟩, ascii_written hl _ v hv⟩,
      ascii_writtenItems hl _ vs hvs⟩
  | .obj ((key, v) :: rest), h => by
    cases h with | obj _ hk h =>
    have ⟨hkey, hk⟩ := List.forall_mem_cons.mp hk
    have ⟨hv, hrest⟩ := List.forall_mem_cons.mp h
    rw [written, ascii_append, ascii_append, ascii_append, ascii_append, ascii_cons, ascii_cons]
    exact ⟨⟨⟨⟨⟨by decide, ascii_blank (hl.first _)⟩, ascii_string hkey⟩, by decide,
      ascii_blank hl.colon⟩, ascii_written hl _ v hv⟩, ascii_writtenFields hl _ rest hk hrest⟩

theorem ascii_writtenItems [LawfulFloat] (hl : l.Blank) (depth : Nat) :
    (vs : List Value) → (∀ v ∈ vs, v.Dumpable) → Ascii (writtenItems l style depth vs)
  | [], _ => by
    rw [writtenItems, ascii_append]
    exact ⟨ascii_blank (hl.last _), by rw [Ascii]; decide⟩
  | v :: vs, h => by
    have ⟨hv, hvs⟩ := List.forall_mem_cons.mp h
    rw [writtenItems, ascii_append, ascii_append, ascii_cons]
    exact ⟨⟨⟨by decide, ascii_blank (hl.next _)⟩, ascii_written hl _ v hv⟩,
      ascii_writtenItems hl _ vs hvs⟩

theorem ascii_writtenFields [LawfulFloat] (hl : l.Blank) (depth : Nat) :
    (fs : Fields) → (∀ f ∈ fs, f.1.Spelled) → (∀ f ∈ fs, f.2.Dumpable) →
      Ascii (writtenFields l style depth fs)
  | [], _, _ => by
    rw [writtenFields, ascii_append]
    exact ⟨ascii_blank (hl.last _), by rw [Ascii]; decide⟩
  | (key, v) :: rest, hk, h => by
    have ⟨hkey, hk⟩ := List.forall_mem_cons.mp hk
    have ⟨hv, hrest⟩ := List.forall_mem_cons.mp h
    rw [writtenFields, ascii_append, ascii_append, ascii_append, ascii_append, ascii_cons, ascii_cons]
    exact ⟨⟨⟨⟨⟨by decide, ascii_blank (hl.next _)⟩, ascii_string hkey⟩, by decide,
      ascii_blank hl.colon⟩, ascii_written hl _ v hv⟩, ascii_writtenFields hl _ rest hk hrest⟩

end

end Ascii

-- A file that a value is written to is read as the value.
theorem loads_written [LawfulFloat] {l : Layout} (hl : l.Blank) (h : v.Dumpable)
    (ht : Layout.isBlank t) {depth : Nat} : ∃ raw,
      Unicode.encode (written l style depth v ++ t) = some raw ∧
      Unicode.utf8 false raw = some (written l style depth v ++ t) ∧
      Scanner.read reader (written l style depth v ++ t) = .ok v := by
  have ha : ∀ q ∈ written l style depth v ++ t, q < 0x80 :=
    ascii_append.mpr ⟨ascii_written hl depth v h, ascii_blank ht⟩
  refine ⟨_, Unicode.encode_ascii ha, ?_, read_written hl (readable_of_dumpable h) ht⟩
  rw [Unicode.utf8_ascii, Unicode.toNat_ofNat ha]
  refine List.forall_mem_map.mpr fun q hq => ?_
  have := ha q hq
  simp only [UInt8.toNat_ofNat']
  omega

end PythonJson
