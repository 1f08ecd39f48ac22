import ExtManager.Codec.Ascii
import ExtManager.HostEvidence.Observer

-- Words that are joined by a separator.
namespace Words

variable {α : Type} {sep : α → Bool} {s : α} {w e : List α} {ws : List (List α)}

-- `split` without the empty parts.
def split (sep : α → Bool) (l : List α) : List (List α) :=
  (l.splitOnP sep).filter (· ≠ [])

theorem split_cons {l : List α} (hs : sep s) : split sep (s :: l) = split sep l := by
  rw [split, List.splitOnP_cons_eq_if_modifyHead, if_pos hs]
  rfl

theorem split_word {l : List α} (hs : sep s) (hw : ∀ x ∈ w, sep x = false) :
    split sep (w ++ s :: l) = [w].filter (· ≠ []) ++ split sep l := by
  rw [split, List.splitOnP_append_cons_of_forall_mem hw s hs]
  exact List.filter_append [w] (l.splitOnP sep)

theorem split_seps (he : ∀ x ∈ e, sep x) : split sep e = [] := by
  induction e
  case nil       => rfl
  case cons x e ih =>
    have ⟨hx, he⟩ := List.forall_mem_cons.mp he
    rw [split_cons hx, ih he]

theorem split_end (hw : ∀ x ∈ w, sep x = false) (he : ∀ x ∈ e, sep x) :
    split sep (w ++ e) = [w].filter (· ≠ []) := by
  cases e
  case nil       => rw [List.append_nil, split, List.splitOnP_eq_singleton hw]
  case cons x e  =>
    have ⟨hx, he⟩ := List.forall_mem_cons.mp he
    rw [split_word hx hw, split_seps he, List.append_nil]

-- Words with a separator before each are found, whatever separators come at the end.
theorem split_joined (hs : sep s) (he : ∀ x ∈ e, sep x)
    (hws : ∀ w ∈ ws, w ≠ [] ∧ ∀ x ∈ w, sep x = false) :
    split sep (ws.flatMap (s :: ·) ++ e) = ws := by
  induction ws
  case nil          => exact split_seps he
  case cons w ws ih =>
    have ⟨⟨hne, hw⟩, hws⟩ := List.forall_mem_cons.mp hws
    have hkeep : [w].filter (· ≠ []) = [w] := by simp [hne]
    rw [List.flatMap_cons, List.append_assoc, List.cons_append, split_cons hs]
    cases ws
    case nil         => rw [List.flatMap_nil, List.nil_append, split_end hw he, hkeep]
    case cons w' ws' =>
      have ih := ih hws
      rw [List.flatMap_cons, List.append_assoc, List.cons_append] at ih ⊢
      rw [split_word hs hw, hkeep, ← split_cons hs, ih]
      rfl

-- What stands behind the last of the characters `c`.
def after [DecidableEq α] (c : α) (l : List α) : List α :=
  (l.reverse.takeWhile (· ≠ c)).reverse

theorem after_eq [DecidableEq α] {c : α} {l r : List α} (hr : c ∉ r) : after c (l ++ c :: r) = r := by
  have h : (c :: r).reverse = r.reverse ++ [c] := List.reverse_cons
  rw [after, List.reverse_append, h, List.append_assoc, List.takeWhile_append_of_pos]
  · simp
  · intro x hx
    have hx := List.mem_reverse.mp hx
    exact decide_eq_true fun hxc => hr (hxc ▸ hx)

end Words

-- `int(text)` of decimal digits.
class LawfulDecimal extends Decimal where
  value?_ascii : ∀ c, Scanner.isDigit c → value? c = some (c - '0'.toNat)

namespace Text

-- `text.split()`.
def words (t : Text) : List Text :=
  Words.split isSpace t

-- What the lines of a file that is opened as text end with.
def newlines : Text → Text
  | []            => []
  | 13 :: 10 :: r => 10 :: newlines r
  | c :: r        => (if c = 13 then 10 else c) :: newlines r

end Text

namespace HostEvidence

section Source

-- What is raised while the files of a process are read, before it is caught.
inductive Raised
  | fileNotFoundError
  | osError
  | valueError
  | indexError
  deriving DecidableEq

inductive SourceFailure
  -- A `LifecycleSourceError`.
  | source (message : String)
  -- A `ProcessLookupError`.
  | lookup (pid : Int)
  deriving DecidableEq

structure SourceProcess where
  pid        : Int
  startTicks : Int
  argv       : List Text
  deriving DecidableEq

-- What comes of reading the `stat` of a process, its `cmdline` and its `stat` again.
structure SourceFiles where
  before  : Except Raised Bytes
  cmdline : Except Raised Bytes
  after   : Except Raised Bytes

-- `raw[raw.rfind(b")") + 2 :].split()`, where the place of a byte that is not there is -1.
def fieldsAfter (raw : Bytes) : List Bytes :=
  parts isBlank (Words.after 0x29 raw).tail

def field (fields : List Bytes) (n : Nat) : Except Raised Int :=
  match fields[n]? with
  | none     => .error .indexError
  | some raw => match int? raw with
    | none       => .error .valueError
    | some ticks => .ok ticks

-- The block of `_linux_process_identity` whose errors are caught. A `LifecycleSourceError` is a
-- `ValueError`.
def readSource (files : SourceFiles) : Except Raised (Int × Bytes × Int) := do
  let raw ← files.before
  if 0x29 ∉ raw then throw .valueError
  let fields := fieldsAfter raw
  if fields.length ≤ 19 then throw .valueError
  let before ← field fields 19
  let argvRaw ← files.cmdline
  let raw ← files.after
  let after ← field (fieldsAfter raw) 19
  return (before, argvRaw, after)

def linuxProcessIdentity (files : SourceFiles) (pid : Int) : Except SourceFailure SourceProcess :=
  match readSource files with
  | .error .fileNotFoundError      => .error (.lookup pid)
  | .error _                       => .error (.source "shutdown target identity is unavailable")
  | .ok (before, argvRaw, after) =>
    let argv := (parts (· = 0x00) argvRaw).map fun part => Unicode.escaped part.length part
    if before ≤ 0 ∨ before ≠ after then
      .error (.source "shutdown target identity changed while reading")
    else if argv = [] then
      .error (.source "shutdown target argv is unavailable")
    else
      .ok { pid, startTicks := before, argv }

end Source

-- `_start_identity`, where the file can be read or not.
def startIdentity [Decimal] (stat : Option Bytes) (pid : Int) : Option Text := do
  let bytes ← stat
  let raw := Text.newlines (← Unicode.utf8 false bytes)
  let fieldsAfterComm := Text.words (Words.after ')'.toNat raw)
  let startTicks ← fieldsAfterComm[19]?
  let _ ← Text.int? startTicks
  return startPrefix pid ++ startTicks

def Digits (raw : Bytes) : Prop :=
  raw ≠ [] ∧ ∀ b ∈ raw, Scanner.isDigit b.toNat

instance (raw : Bytes) : Decidable (Digits raw) :=
  decidable_of_iff (raw ≠ [] ∧ raw.all fun b => Scanner.isDigit b.toNat) (by simp [Digits])

def number (raw : Bytes) : Nat :=
  raw.foldl (fun n b => n * 10 + (b.toNat - '0'.toNat)) 0

def Numeric (raw : Bytes) : Prop :=
  Digits raw ∨ ∃ digits, raw = 0x2D :: digits ∧ Digits digits

section

variable {raw : Bytes}

theorem not_space_of_digit {c : Nat} (h : Scanner.isDigit c) : ¬Text.isSpace c := by
  simp [Scanner.isDigit, Text.isSpace] at h ⊢
  omega

-- Nothing is stripped of digits, whatever counts as a space among other characters.
theorem stripped_digits {space : Nat → Bool} {t : Text} (hs : ∀ c, Scanner.isDigit c → ¬space c)
    (ht : ∀ c ∈ t, Scanner.isDigit c) :
    ((t.dropWhile space).reverse.dropWhile space).reverse = t := by
  have hdrop {t : Text} (ht : ∀ c ∈ t, Scanner.isDigit c) : t.dropWhile space = t := by
    cases t
    case nil      => rfl
    case cons c t => exact List.dropWhile_cons_of_neg (hs c (ht c List.mem_cons_self))
  rw [hdrop ht, hdrop fun c hc => ht c (List.mem_reverse.mp hc), List.reverse_reverse]

theorem natural?_digits [Decimal] {needed : Bool} {n : Nat}
    (hd : ∀ c, Scanner.isDigit c → Decimal.value? c = some (c - '0'.toNat))
    (hne : needed → raw ≠ []) (h : ∀ b ∈ raw, Scanner.isDigit b.toNat) :
    Text.natural? needed n (raw.map (·.toNat)) =
      some (raw.foldl (fun n b => n * 10 + (b.toNat - '0'.toNat)) n) := by
  induction raw generalizing needed n
  case nil          =>
    cases needed
    case false => rfl
    case true  => exact absurd rfl (hne rfl)
  case cons b raw ih =>
    have ⟨hb, h⟩ := List.forall_mem_cons.mp h
    rw [List.map_cons, Text.natural?, hd _ hb]
    exact ih nofun h

theorem text_int?_digits [Decimal]
    (hd : ∀ c, Scanner.isDigit c → Decimal.value? c = some (c - '0'.toNat)) (h : Digits raw) :
    Text.int? (raw.map (·.toNat)) = if 4300 < raw.length then none else some ↑(number raw) := by
  have hall : ∀ c ∈ raw.map (·.toNat), Scanner.isDigit c := by
    intro c hc
    obtain ⟨b, hb, rfl⟩ := List.mem_map.mp hc
    exact h.2 b hb
  have hfilter : ((raw.map (·.toNat)).filter fun c => (Decimal.value? c).isSome) =
      raw.map (·.toNat) :=
    List.filter_eq_self.mpr fun c hc => by rw [hd c (hall c hc)]; rfl
  have hspace (c : Nat) (hc : Scanner.isDigit c) : ¬Text.isNumberSpace c := fun h =>
    not_space_of_digit hc (Bool.and_elim_left h)
  rw [Text.int?, hfilter, List.length_map, stripped_digits hspace hall]
  refine if_congr Iff.rfl rfl ?_
  obtain ⟨b, r, rfl⟩ := List.exists_cons_of_ne_nil h.1
  have hb := h.2 b List.mem_cons_self
  rw [List.map_cons]
  have hminus : b.toNat ≠ '-'.toNat := fun he => by rw [he] at hb; contradiction
  have hplus : b.toNat ≠ '+'.toNat := fun he => by rw [he] at hb; contradiction
  simp only [if_neg hminus, if_neg hplus]
  rw [← List.map_cons, natural?_digits hd (fun _ => List.cons_ne_nil _ _) h.2]
  rfl

theorem int?_digits (h : Digits raw) :
    int? raw = if 4300 < raw.length then none else some ↑(number raw) := by
  have hall : ∀ c ∈ raw.map (·.toNat), Scanner.isDigit c := by
    intro c hc
    obtain ⟨b, hb, rfl⟩ := List.mem_map.mp hc
    exact h.2 b hb
  unfold int?
  have hstrip : Text.strip (raw.map (·.toNat)) = raw.map (·.toNat) :=
    stripped_digits (fun _ => not_space_of_digit) hall
  rw [if_neg (not_not.mpr hstrip)]
  exact @text_int?_digits raw ⟨_⟩ (fun c hc => if_pos hc) h

end

-- The record of a process: the numbers of its fields are the ones of the documentation of Linux.
structure Stat where
  pid       : Bytes
  comm      : Bytes
  state     : UInt8
  -- The fields 4 to 21.
  middle    : List Bytes
  -- Field 22.
  starttime : Bytes
  others    : List Bytes
  newline   : Bool
  pid_digits       : Digits pid
  state_letter     : Scanner.isLetter state.toNat
  middle_length    : middle.length = 18
  numeric          : ∀ f ∈ middle ++ others, Numeric f
  starttime_digits : Digits starttime
  positive         : 0 < number starttime

namespace Stat

variable (s : Stat)

def fields : List Bytes :=
  [s.state] :: s.middle ++ s.starttime :: s.others

def ending : Bytes :=
  if s.newline then [0x0A] else []

-- What follows the name, with a blank before each field.
def rest : Bytes :=
  s.fields.flatMap (0x20 :: ·) ++ s.ending

def raw : Bytes :=
  s.pid ++ [0x20, 0x28] ++ s.comm ++ 0x29 :: s.rest

variable {s}

theorem isBare_of_numeric {f : Bytes} (h : Numeric f) : f ≠ [] ∧ ∀ b ∈ f, Scanner.isBare b.toNat := by
  have hdigit {b : UInt8} (hb : Scanner.isDigit b.toNat) : Scanner.isBare b.toNat := by
    simp [Scanner.isBare, hb]
  rcases h with ⟨hne, hd⟩ | ⟨digits, rfl, -, hd⟩
  · exact ⟨hne, fun b hb => hdigit (hd b hb)⟩
  · refine ⟨List.cons_ne_nil _ _, fun b hb => ?_⟩
    rcases List.mem_cons.mp hb with rfl | hb
    · rfl
    · exact hdigit (hd b hb)

theorem isBare_of_mem {f : Bytes} (hf : f ∈ s.fields) :
    f ≠ [] ∧ ∀ b ∈ f, Scanner.isBare b.toNat := by
  have hnum {g : Bytes} (hg : g ∈ s.middle ++ s.others) := isBare_of_numeric (s.numeric g hg)
  rcases List.mem_cons.mp hf with rfl | hf
  · refine ⟨List.cons_ne_nil _ _, fun b hb => ?_⟩
    rw [List.mem_singleton.mp hb]
    simp [Scanner.isBare, s.state_letter]
  · rcases List.mem_append.mp hf with hf | hf
    · exact hnum (List.mem_append_left _ hf)
    · rcases List.mem_cons.mp hf with rfl | hf
      · exact isBare_of_numeric (.inl s.starttime_digits)
      · exact hnum (List.mem_append_right _ hf)

-- What the fields consist of is no blank, no parenthesis and of ASCII.
theorem bare {b : UInt8} (h : Scanner.isBare b.toNat) : isBlank b = false ∧
    Text.isSpace b.toNat = false ∧ b ≠ 0x29 ∧ b.toNat < 0x80 := by
  simp [Scanner.isBare, Scanner.isDigit, Scanner.isLetter, Text.isSpace, isBlank,
    ← UInt8.toNat_inj, UInt8.le_iff_toNat_le] at h ⊢
  omega

theorem getElem?_fields : s.fields[19]? = some s.starttime := by
  rw [fields, List.cons_append, List.getElem?_cons_succ, List.getElem?_append_right]
  · simp [s.middle_length]
  · exact s.middle_length.le

theorem mem_rest {b : UInt8} (hb : b ∈ s.rest) :
    b = 0x20 ∨ b = 0x0A ∨ Scanner.isBare b.toNat := by
  rcases List.mem_append.mp hb with hb | hb
  · obtain ⟨f, hf, hb⟩ := List.mem_flatMap.mp hb
    rcases List.mem_cons.mp hb with rfl | hb
    · exact .inl rfl
    · exact .inr (.inr ((isBare_of_mem hf).2 b hb))
  · unfold ending at hb
    split at hb
    · exact .inr (.inl (List.mem_singleton.mp hb))
    · contradiction

theorem rest_ascii {b : UInt8} (hb : b ∈ s.rest) : b.toNat < 0x80 ∧ b ≠ 0x29 ∧ b ≠ 0x0D := by
  rcases mem_rest hb with rfl | rfl | hb
  · decide
  · decide
  · have ⟨h, _, hne, hlt⟩ := bare hb
    refine ⟨hlt, hne, ?_⟩
    rintro rfl
    contradiction

theorem parts_rest : parts isBlank s.rest = s.fields := by
  refine Words.split_joined rfl (fun x hx => ?_) fun f hf => ?_
  · unfold ending at hx
    split at hx
    · rw [List.mem_singleton.mp hx]
      rfl
    · contradiction
  · have ⟨hne, hb⟩ := isBare_of_mem hf
    exact ⟨hne, fun b hx => (bare (hb b hx)).1⟩

theorem rest_cons : s.rest = 0x20 :: s.rest.tail := by
  rfl

theorem parts_tail : parts isBlank s.rest.tail = s.fields :=
  (Words.split_cons rfl).symm.trans (rest_cons ▸ parts_rest)

theorem after_raw : Words.after 0x29 s.raw = s.rest :=
  Words.after_eq fun h => (rest_ascii h).2.1 rfl

theorem length_raw : s.raw.length = s.pid.length + s.comm.length + s.rest.length + 3 := by
  simp only [raw, List.length_append, List.length_cons, List.length_nil]
  omega

def ticks (s : Stat) : Int :=
  number s.starttime

theorem parseLinuxStartTicks_raw : parseLinuxStartTicks s.raw =
    if 4300 < s.starttime.length then
      .error (.observation "process start ticks are not an integer")
    else .ok s.ticks := by
  have hafter : (s.raw.reverse.takeWhile (· ≠ 0x29)).reverse = s.rest := after_raw
  have hpid := List.length_pos_of_ne_nil s.pid_digits.1
  have hrest : s.rest = 0x20 :: s.state :: s.rest.tail.tail := rfl
  have hpos := s.positive
  have hlong : 2 ≤ s.rest.length := hrest ▸ Nat.le_add_left ..
  unfold parseLinuxStartTicks
  have hcomm : ¬((s.raw.length - s.rest.length - 1 : Int) < 2 ∨
      s.raw.length ≤ (s.raw.length - s.rest.length - 1 : Int) + 2 ∨ s.rest.head? ≠ some 0x20) := by
    rw [length_raw]
    rintro (h | h | h)
    · omega
    · omega
    · exact h rfl
  simp only [hafter, parts_tail, getElem?_fields, int?_digits s.starttime_digits]
  rw [reject, if_neg hcomm]
  by_cases h : 4300 < s.starttime.length
  · rw [if_pos h, if_pos h]
    rfl
  · rw [if_neg h, if_neg h]
    have hticks : ¬(number s.starttime : Int) ≤ 0 := by omega
    simp only [reject, if_neg hticks]
    rfl

theorem field_raw : field (fieldsAfter s.raw) 19 =
    if 4300 < s.starttime.length then .error .valueError else .ok s.ticks := by
  rw [field, fieldsAfter, after_raw, parts_tail, getElem?_fields]
  simp only [int?_digits s.starttime_digits]
  by_cases h : 4300 < s.starttime.length
  · rw [if_pos h, if_pos h]
  · rw [if_neg h, if_neg h]
    rfl

theorem linuxProcessIdentity_raw {argvRaw : Bytes} {pid : Int}
    (hargv : parts (· = 0x00) argvRaw ≠ []) :
    (·.startTicks) <$> linuxProcessIdentity ⟨.ok s.raw, .ok argvRaw, .ok s.raw⟩ pid =
      if 4300 < s.starttime.length then
        .error (.source "shutdown target identity is unavailable")
      else .ok s.ticks := by
  have hmem : ¬0x29 ∉ s.raw := fun h => h <| List.mem_append_right _ List.mem_cons_self
  have hlen : ¬(fieldsAfter s.raw).length ≤ 19 := by
    rw [fieldsAfter, after_raw, parts_tail, fields, List.cons_append, List.length_cons,
      List.length_append, List.length_cons, s.middle_length]
    omega
  have hread : readSource ⟨.ok s.raw, .ok argvRaw, .ok s.raw⟩ =
      if 4300 < s.starttime.length then .error .valueError
      else .ok (s.ticks, argvRaw, s.ticks) := by
    by_cases h : 4300 < s.starttime.length
    · simp only [readSource, bind, Except.bind, if_neg hmem, if_neg hlen, field_raw, if_pos h]
    · simp only [readSource, bind, Except.bind, if_neg hmem, if_neg hlen, field_raw, if_neg h]
      rfl
  rw [linuxProcessIdentity, hread]
  by_cases h : 4300 < s.starttime.length
  · rw [if_pos h, if_pos h]
    rfl
  · have hticks : ¬(s.ticks ≤ 0 ∨ s.ticks ≠ s.ticks) := by
      have := s.positive
      simp only [ticks, ne_eq, not_true_eq_false, or_false]
      omega
    have hne : ¬((parts (· = 0x00) argvRaw).map fun p => Unicode.escaped p.length p) = [] := by
      simpa using hargv
    simp only [if_neg h, if_neg hticks, if_neg hne]
    rfl

theorem newlines_append {t r : Text} {c : Nat} (hc : c ≠ 13 ∧ c ≠ 10) :
    Text.newlines (t ++ c :: r) = Text.newlines t ++ c :: Text.newlines r := by
  fun_induction Text.newlines t
  case case1        => simp [Text.newlines, hc.1]
  case case2 r' ih  => simp [Text.newlines, ih]
  case case3 d r' hd ih =>
    rw [List.cons_append, Text.newlines, ih]
    · rfl
    · intro r'' h h'
      cases r'
      case nil       => exact hc.2 (List.cons.inj h').1
      case cons x r' => exact hd r' h (congrArg (· :: r') (List.cons.inj h').1)

theorem newlines_eq {t : Text} (h : 13 ∉ t) : Text.newlines t = t := by
  fun_induction Text.newlines t
  case case1           => rfl
  case case2           => simp at h
  case case3 c r hc ih =>
    rw [ih (List.not_mem_of_not_mem_cons h), if_neg (List.ne_of_not_mem_cons h).symm]

-- The blanks of `str.split` are not the ones of `bytes.split`, but no field has any of them.
theorem words_rest : Text.words (s.rest.map UInt8.toNat) = s.fields.map (·.map UInt8.toNat) := by
  have hmap : s.rest.map UInt8.toNat =
      (s.fields.map (·.map UInt8.toNat)).flatMap (0x20 :: ·) ++ s.ending.map UInt8.toNat := by
    rw [rest, List.map_append, List.map_flatMap, List.flatMap_map]
    rfl
  rw [hmap]
  refine Words.split_joined rfl (fun c hc => ?_) fun w hw => ?_
  · obtain ⟨b, hb, rfl⟩ := List.mem_map.mp hc
    unfold ending at hb
    split at hb
    · rw [List.mem_singleton.mp hb]
      rfl
    · contradiction
  · obtain ⟨f, hf, rfl⟩ := List.mem_map.mp hw
    have ⟨hne, hb⟩ := isBare_of_mem hf
    refine ⟨fun h => hne (List.map_eq_nil_iff.mp h), fun c hc => ?_⟩
    obtain ⟨b, hb', rfl⟩ := List.mem_map.mp hc
    exact (bare (hb b hb')).2.1

theorem utf8_raw : Unicode.utf8 false s.raw = (Unicode.utf8 false s.comm).map fun t =>
    (s.pid ++ [0x20, 0x28]).map UInt8.toNat ++ t ++ ')'.toNat :: s.rest.map UInt8.toNat := by
  have hpre : ∀ b ∈ s.pid ++ [0x20, 0x28], b.toNat < 0x80 := by
    intro b hb
    rcases List.mem_append.mp hb with hb | hb
    · have := (isBare_of_numeric (.inl s.pid_digits)).2 b hb
      exact (bare this).2.2.2
    · have hall : ∀ b ∈ ([0x20, 0x28] : Bytes), b.toNat < 0x80 :=
        List.forall_mem_cons.mpr ⟨by decide, List.forall_mem_singleton.mpr (by decide)⟩
      exact hall b hb
  have hpost : ∀ b ∈ 0x29 :: s.rest, b.toNat < 0x80 :=
    List.forall_mem_cons.mpr ⟨by decide, fun b hb => (rest_ascii hb).1⟩
  rw [raw, List.append_assoc, Unicode.utf8_append_ascii hpre, Unicode.utf8,
    Unicode.utf8From_append_cons (by decide), Unicode.utf8_ascii hpost]
  cases Unicode.utf8From false none s.comm
  case none   => rfl
  case some t => exact congrArg some (List.append_assoc ..).symm

theorem words_after {t : Text} : Text.words (Words.after ')'.toNat
    (Text.newlines (t ++ ')'.toNat :: s.rest.map UInt8.toNat))) =
      s.fields.map (·.map UInt8.toNat) := by
  have hrest {c : Nat} (hc : c ∈ s.rest.map UInt8.toNat) : c ≠ 13 ∧ c ≠ ')'.toNat := by
    obtain ⟨b, hb, rfl⟩ := List.mem_map.mp hc
    have ⟨_, hb, hr⟩ := rest_ascii hb
    exact ⟨fun h => hr (UInt8.toNat_inj.mp h), fun h => hb (UInt8.toNat_inj.mp h)⟩
  rw [newlines_append (by decide), newlines_eq fun h => (hrest h).1 rfl,
    Words.after_eq fun h => (hrest h).2 rfl, words_rest]

theorem startIdentity_raw [LawfulDecimal] {pid : Int} : startIdentity (some s.raw) pid =
    if (Unicode.utf8 false s.comm).isSome ∧ s.starttime.length ≤ 4300 then
      some (startPrefix pid ++ s.starttime.map UInt8.toNat)
    else none := by
  simp only [startIdentity, Option.bind_eq_bind, Option.bind_some, utf8_raw]
  cases Unicode.utf8 false s.comm
  case none   => rfl
  case some t =>
    have hint := text_int?_digits LawfulDecimal.value?_ascii s.starttime_digits
    simp only [Option.map_some, Option.bind_some, words_after, List.getElem?_map, getElem?_fields,
      hint]
    by_cases h : 4300 < s.starttime.length
    · rw [if_pos h, if_neg fun h' => absurd h'.2 h.not_ge]
      rfl
    · rw [if_neg h, if_pos ⟨rfl, not_lt.mp h⟩]
      rfl

end Stat

variable [LawfulDecimal]

-- The three readers of a record find the same number, that of field 22, if and only if the name of
-- the process can be read as text and the number is not too long to be read.
theorem startTicks_iff (s : Stat) :
    (parseLinuxStartTicks s.raw = .ok s.ticks ∧
      (∀ (pid : Int) (argvRaw : Bytes), parts (· = 0x00) argvRaw ≠ [] →
        (·.startTicks) <$> linuxProcessIdentity ⟨.ok s.raw, .ok argvRaw, .ok s.raw⟩ pid =
          .ok s.ticks) ∧
      ∀ pid : Int, startIdentity (some s.raw) pid =
        some (startPrefix pid ++ s.starttime.map UInt8.toNat)) ↔
    (∃ t, Unicode.utf8 false s.comm = some t) ∧ s.starttime.length ≤ 4300 := by
  rw [← Option.isSome_iff_exists, Stat.parseLinuxStartTicks_raw]
  constructor
  · intro ⟨_, _, h⟩
    have h := h 0
    rw [Stat.startIdentity_raw] at h
    by_contra hn
    rw [if_neg hn] at h
    contradiction
  · intro h
    have hlen := h.2.not_gt
    refine ⟨if_neg hlen, fun pid argvRaw hargv => ?_, fun pid => ?_⟩
    · rw [Stat.linuxProcessIdentity_raw hargv, if_neg hlen]
    · rw [Stat.startIdentity_raw, if_pos h]

end HostEvidence

namespace HostEvidence.Unnamed

scoped instance : LawfulDecimal where
  value? c := if Scanner.isDigit c then some (c - '0'.toNat) else none
  value?_ascii _ h := if_pos h

-- A process whose name is the byte 255.
def stat : Stat where
  pid              := [0x31]
  comm             := [0xFF]
  state            := 0x53
  middle           := .replicate 18 [0x30]
  starttime        := [0x37]
  others           := []
  newline          := true
  pid_digits       := by decide
  state_letter     := by decide
  middle_length    := by decide
  numeric f hf     := .inl <| List.eq_of_mem_replicate (List.append_nil _ ▸ hf) ▸ (by decide)
  starttime_digits := by decide
  positive         := by decide

-- The readers of bytes find 7, and the reader of text finds no process.
theorem not_startTicks :
    parseLinuxStartTicks stat.raw = .ok 7 ∧
      linuxProcessIdentity ⟨.ok stat.raw, .ok [0x61], .ok stat.raw⟩ 1 = .ok ⟨1, 7, ["a".points]⟩ ∧
      startIdentity (some stat.raw) 1 = none :=
  ⟨rfl, rfl, rfl⟩

end HostEvidence.Unnamed
