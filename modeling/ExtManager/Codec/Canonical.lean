import Mathlib.Algebra.Order.BigOperators.Group.List
import Mathlib.Algebra.Order.Group.Nat
import ExtManager.Codec.Dumps

namespace Unicode

-- The bytes of a character in UTF-8. A surrogate has none.
def encode? (p : Nat) : Option Bytes :=
  if p < 0x80 then some [.ofNat p]
  else if p < 0x800 then some [.ofNat (0xC0 + p / 0x40), .ofNat (0x80 + p % 0x40)]
  else if isSurrogate p then none
  else if p < 0x10000 then
    some [.ofNat (0xE0 + p / 0x1000), .ofNat (0x80 + p / 0x40 % 0x40), .ofNat (0x80 + p % 0x40)]
  else if p < 0x110000 then
    some [.ofNat (0xF0 + p / 0x40000), .ofNat (0x80 + p / 0x1000 % 0x40),
      .ofNat (0x80 + p / 0x40 % 0x40), .ofNat (0x80 + p % 0x40)]
  else none

-- `str.encode()`.
def encode : Text → Option Bytes
  | []     => some []
  | p :: t => do
    let b ← encode? p
    let r ← encode t
    some (b ++ r)

variable {p : Nat} {t : Text} {b : Bytes}

theorem encode?_some (h : encode? p = some b) : b.length = width p ∧ p < 0x110000 := by
  unfold encode? at h
  unfold width
  split at h
  case isTrue h₁ =>
    cases h
    exact ⟨(if_pos h₁).symm, by omega⟩
  split at h
  case isTrue h₁ h₂ =>
    cases h
    rw [if_neg h₁, if_pos h₂]
    exact ⟨rfl, by omega⟩
  split at h
  case isTrue => cases h
  split at h
  case isTrue h₁ h₂ _ h₃ =>
    cases h
    rw [if_neg h₁, if_neg h₂, if_pos h₃]
    exact ⟨rfl, by omega⟩
  split at h
  case isTrue h₁ h₂ _ h₃ h₄ =>
    cases h
    rw [if_neg h₁, if_neg h₂, if_neg h₃]
    exact ⟨rfl, h₄⟩
  case isFalse => cases h

theorem encode_cons (h : encode (p :: t) = some b) :
    ∃ c r, encode? p = some c ∧ encode t = some r ∧ b = c ++ r := by
  have ⟨c, hc, h⟩ := Option.bind_eq_some_iff.mp h
  have ⟨r, hr, h⟩ := Option.bind_eq_some_iff.mp h
  exact ⟨c, r, hc, hr, (Option.some.inj h).symm⟩

theorem encode_length (h : encode t = some b) : b.length = byteLength t := by
  induction t generalizing b with
  | nil =>
    cases h
    rfl
  | cons p t ih =>
    obtain ⟨c, r, hc, hr, rfl⟩ := encode_cons h
    rw [List.length_append, (encode?_some hc).left, ih hr]
    rfl

theorem encode_lt (h : encode t = some b) : ∀ p ∈ t, p < 0x110000 := by
  induction t generalizing b with
  | nil => exact nofun
  | cons p t ih =>
    have ⟨_, _, hc, hr, _⟩ := encode_cons h
    exact List.forall_mem_cons.mpr ⟨(encode?_some hc).right, ih hr⟩

theorem byteLength_append {u : Text} : byteLength (t ++ u) = byteLength t + byteLength u := by
  rw [byteLength, List.map_append, List.sum_append]
  rfl

theorem byteLength_flatMap {α : Type} {f : α → Text} {as : List α} :
    byteLength (as.flatMap f) = (as.map fun a => byteLength (f a)).sum := by
  induction as with
  | nil => rfl
  | cons a as ih =>
    rw [List.flatMap_cons, List.map_cons, List.sum_cons, byteLength_append, ih]

end Unicode

namespace Dumps

def plain (float : Text → Text) : Style where
  escape := escapePlain
  float  := float

-- What an encoder writes, before it has a style.
inductive Token
  | mark (p : Nat)
  | char (p : Nat)
  | float (text : Text)

def Style.render (s : Style) : Token → Text
  | .mark p     => [p]
  | .char p     => s.escape p
  | .float text => s.float text

def marks (t : Text) : List Token :=
  t.map .mark

def quoted (t : Text) : List Token :=
  .mark '"'.toNat :: t.map .char ++ [.mark '"'.toNat]

mutual

def tokens : Value → List Token
  | .null                   => marks "null".points
  | .bool true              => marks "true".points
  | .bool false             => marks "false".points
  | .int n                  => marks (decimal n)
  | .float text             => [.float text]
  | .str t                  => quoted t
  | .arr []                 => marks "[]".points
  | .arr (v :: vs)          => .mark '['.toNat :: tokens v ++ itemTokens vs
  | .obj []                 => marks "\x7b\x7d".points
  | .obj ((key, v) :: rest) =>
    .mark '\x7b'.toNat :: quoted key ++ .mark ':'.toNat :: tokens v ++ fieldTokens rest

def itemTokens : List Value → List Token
  | []      => [.mark ']'.toNat]
  | v :: vs => .mark ','.toNat :: tokens v ++ itemTokens vs

def fieldTokens : List (Text × Value) → List Token
  | []               => [.mark '\x7d'.toNat]
  | (key, v) :: rest =>
    .mark ','.toNat :: quoted key ++ .mark ':'.toNat :: tokens v ++ fieldTokens rest

end

section Render

variable {s : Style} {t : Text}

theorem render_marks : (marks t).flatMap s.render = t := by
  rw [marks, List.flatMap_map]
  exact List.flatMap_singleton' t

theorem render_quoted : (quoted t).flatMap s.render = string s t := by
  rw [quoted, List.flatMap_append, List.flatMap_cons, List.flatMap_map]
  rfl

mutual

theorem value_eq : (v : Value) → value s v = (tokens v).flatMap s.render
  | .null | .bool true | .bool false | .int _ | .arr [] | .obj [] => by
    rw [value, tokens, render_marks]
  | .float text => by
    rw [value, tokens, List.flatMap_singleton]
    rfl
  | .str t => by rw [value, tokens, render_quoted]
  | .arr (v :: vs) => by
    rw [value, tokens, value_eq v, items_eq vs]
    simp [Style.render]
  | .obj ((key, v) :: rest) => by
    rw [value, tokens, value_eq v, fields_eq rest, ← render_quoted]
    simp [Style.render]

theorem items_eq : (vs : List Value) → items s vs = (itemTokens vs).flatMap s.render
  | [] => by
    rw [items, itemTokens]
    rfl
  | v :: vs => by
    rw [items, itemTokens, value_eq v, items_eq vs]
    simp [Style.render]

theorem fields_eq : (fs : List (Text × Value)) → fields s fs = (fieldTokens fs).flatMap s.render
  | [] => by
    rw [fields, fieldTokens]
    rfl
  | (key, v) :: rest => by
    rw [fields, fieldTokens, value_eq v, fields_eq rest, ← render_quoted]
    simp [Style.render]

end

end Render

-- What holds of all marks holds of all tokens if it does of the characters and of the floats.
section Every

variable {P : Token → Prop} {t : Text} {n : Int} {fields : List (Text × Value)}

theorem every_marks (hm : ∀ p, P (.mark p)) : ∀ x ∈ marks t, P x :=
  List.forall_mem_map.mpr fun p _ => hm p

theorem every_quoted (hm : ∀ p, P (.mark p)) : (∀ x ∈ quoted t, P x) ↔ ∀ p ∈ t, P (.char p) := by
  rw [quoted, List.forall_mem_append, List.forall_mem_cons, List.forall_mem_map]
  exact ⟨fun h => h.left.right, fun h => ⟨⟨hm _, h⟩, List.forall_mem_singleton.mpr (hm _)⟩⟩

theorem every_str (hm : ∀ p, P (.mark p)) :
    (∀ x ∈ tokens (.str t), P x) ↔ ∀ p ∈ t, P (.char p) := by
  rw [tokens]
  exact every_quoted hm

theorem every_int (hm : ∀ p, P (.mark p)) : ∀ x ∈ tokens (.int n), P x := by
  rw [tokens]
  exact every_marks hm

theorem every_fields (hm : ∀ p, P (.mark p)) : (∀ x ∈ fieldTokens fields, P x) ↔
    ∀ f ∈ fields, (∀ p ∈ f.1, P (.char p)) ∧ ∀ x ∈ tokens f.2, P x := by
  induction fields with
  | nil =>
    rw [fieldTokens]
    exact ⟨fun _ => nofun, fun _ => List.forall_mem_singleton.mpr (hm _)⟩
  | cons f rest ih =>
    rw [fieldTokens, List.forall_mem_append, List.forall_mem_append, List.forall_mem_cons,
      List.forall_mem_cons, every_quoted hm, ih, List.forall_mem_cons]
    simp only [hm, true_and]

theorem every_obj (hm : ∀ p, P (.mark p)) : (∀ x ∈ tokens (.obj fields), P x) ↔
    ∀ f ∈ fields, (∀ p ∈ f.1, P (.char p)) ∧ ∀ x ∈ tokens f.2, P x := by
  cases fields
  case nil         =>
    rw [tokens]
    exact ⟨fun _ => nofun, fun _ => every_marks hm⟩
  case cons f rest =>
    rw [← every_fields hm, tokens, fieldTokens]
    simp only [List.cons_append, List.forall_mem_cons, hm, true_and]

end Every

-- The characters that both styles write in the same way.
def Token.common : Token → Bool
  | .char p => p < 0x7F
  | _       => true

section Styles

variable {float : Text → Text} {p : Nat} {v : Value} {b : Bytes}

theorem shortEscape?_none (h : 0x7F ≤ p) : shortEscape? p = none := by
  by_contra hne
  have ⟨c, hc⟩ := Option.ne_none_iff_exists'.mp hne
  exact absurd (shortEscape?_lt hc) (by omega)

theorem escapePlain_of_ge (h : 0x7F ≤ p) : escapePlain p = [p] := by
  rw [escapePlain, shortEscape?_none h]
  exact if_neg (by omega)

-- The styles differ where ASCII, or its printable part, ends.
theorem escape_eq (h : p < 0x7F) : escapeAscii p = escapePlain p := by
  unfold escapeAscii escapePlain
  split
  case h_1 => rfl
  case h_2 =>
    by_cases hp : p < 0x20
    · rw [if_neg (by omega), if_pos (by omega), if_pos hp]
    · rw [if_pos (by omega), if_neg hp]

theorem byteLength_unicodeEscape (h : p < 0x10000) : Unicode.byteLength (unicodeEscape p) = 6 := by
  have hdigit (n : Nat) (hn : n < 16) : hexDigit n < 0x80 := by
    have : '0'.toNat = 48 ∧ 'a'.toNat = 97 := by decide
    unfold hexDigit
    split <;> omega
  have hw {q : Nat} (hq : q < 0x80) : Unicode.width q = 1 := if_pos hq
  simp only [Unicode.byteLength, unicodeEscape, List.map_cons, List.map_nil, List.sum_cons, List.sum_nil]
  rw [hw (hdigit (p / 4096) (by omega)), hw (hdigit (p / 256 % 16) (by omega)),
    hw (hdigit (p / 16 % 16) (by omega)), hw (hdigit (p % 16) (by omega))]
  rfl

theorem width_le : Unicode.width p ≤ 4 := by
  unfold Unicode.width
  split
  case isTrue => decide
  split
  case isTrue => decide
  split <;> decide

-- An escape is longer than the character.
theorem escape_lt (h : 0x7F ≤ p) (h' : p < 0x110000) :
    Unicode.byteLength (escapePlain p) < Unicode.byteLength (escapeAscii p) := by
  have hp : Unicode.byteLength (escapePlain p) ≤ 4 := by
    rw [escapePlain_of_ge h]
    exact width_le
  rw [escapeAscii, shortEscape?_none h]
  dsimp only
  rw [if_neg (by omega)]
  by_cases hlt : p < 0x10000
  · rw [if_pos hlt, byteLength_unicodeEscape hlt]
    omega
  · rw [if_neg hlt, if_pos h', Unicode.byteLength_append, byteLength_unicodeEscape (by omega)]
    omega

theorem escape_le : Unicode.byteLength (escapePlain p) ≤ Unicode.byteLength (escapeAscii p) := by
  by_cases hp : p < 0x7F
  · rw [escape_eq hp]
  by_cases hlt : p < 0x110000
  · exact (escape_lt (by omega) hlt).le
  · rw [escapePlain_of_ge (by omega), escapeAscii, shortEscape?_none (by omega)]
    dsimp only
    rw [if_neg (by omega), if_neg (by omega), if_neg hlt]

theorem value_styles (h : ∀ x ∈ tokens v, x.common) :
    value (ascii float) v = value (plain float) v := by
  rw [value_eq, value_eq]
  refine List.flatMap_congr fun x hx => ?_
  cases x
  case mark   => rfl
  case char p => exact escape_eq (of_decide_eq_true (h _ hx))
  case float  => rfl

-- The bytes of the two styles are the same only if nothing is escaped in one of them alone.
theorem bytes_styles (ha : Unicode.encode (value (ascii float) v) = some b)
    (hp : Unicode.encode (value (plain float) v) = some b) : ∀ x ∈ tokens v, x.common := by
  have hlen := (Unicode.encode_length hp).symm.trans (Unicode.encode_length ha)
  rw [value_eq, value_eq, Unicode.byteLength_flatMap, Unicode.byteLength_flatMap] at hlen
  intro x hm
  cases x
  case mark   => rfl
  case float  => rfl
  case char p =>
    by_contra hc
    have hge : 0x7F ≤ p := not_lt.mp fun h => hc (decide_eq_true h)
    refine absurd hlen (ne_of_lt <| List.sum_lt_sum _ _ (fun x _ => ?_) ⟨_, hm, ?_⟩)
    · cases x
      case mark   => exact le_rfl
      case char q => exact escape_le
      case float  => exact le_rfl
    · refine escape_lt hge (Unicode.encode_lt hp p ?_)
      rw [value_eq]
      refine List.mem_flatMap.mpr ⟨_, hm, ?_⟩
      change p ∈ escapePlain p
      rw [escapePlain_of_ge hge]
      exact List.mem_singleton_self p

end Styles

end Dumps

-- How `json.loads` fails: with a `JSONDecodeError`, with another `ValueError`, or with a
-- `RecursionError`.
inductive LoadsFailure
  | decode
  | value
  | recursion
  deriving DecidableEq

-- The `json` module of Python: what it reads from a string, how it writes a float, and which numbers
-- a float is equal to.
class PythonJson where
  loads      : Text → Except LoadsFailure Value
  ordered    : ∀ t v, loads t = .ok v → v.Ordered
  floatRepr  : Text → Text
  isFinite   : Text → Bool
  floatEq    : Text → Text → Bool
  floatEqInt : Text → Int → Bool

namespace Value

variable [PythonJson]

def asInt : Value → Option Int
  | .bool b => some (if b then 1 else 0)
  | .int n  => some n
  | _       => none

mutual

-- `==` in Python.
def same : Value → Value → Bool
  | .null, .null               => true
  | .str t, .str u             => t = u
  | .arr v, .arr w             => sameItems v w
  | .obj f, .obj g             => sameFields f g
  | .float t, .float u         => PythonJson.floatEq t u
  | .float t, v | v, .float t  => (v.asInt.map (PythonJson.floatEqInt t)).getD false
  | v, w                       => v.asInt.isSome && v.asInt = w.asInt

def sameItems : List Value → List Value → Bool
  | [], []           => true
  | v :: vs, w :: ws => same v w && sameItems vs ws
  | _, _             => false

def sameFields : List (Text × Value) → List (Text × Value) → Bool
  | [], []                     => true
  | (k, v) :: fs, (l, w) :: gs => k = l && same v w && sameFields fs gs
  | _, _                       => false

end

end Value

namespace Dumps

variable [PythonJson]

def Token.finite : Token → Bool
  | .float text => PythonJson.isFinite text
  | _           => true

-- `json.dumps` with `ensure_ascii=False`, encoded; `none` where the encoding fails.
def plainBytes (v : Value) : Option Bytes :=
  Unicode.encode (value (plain PythonJson.floatRepr) v)

-- `json.dumps` with `allow_nan=False`, encoded; `none` where a float is not finite.
def asciiBytes (v : Value) : Option Bytes :=
  if (tokens v).all Token.finite then Unicode.encode (value (ascii PythonJson.floatRepr) v) else none

end Dumps
