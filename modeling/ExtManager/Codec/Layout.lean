import Mathlib.Data.List.TakeWhile
import ExtManager.Codec.Dumps
import ExtManager.Codec.Nested

-- A value that is written out is read again, however it is laid out.
namespace Dumps

-- What stands before the first item of a bracket, between two items, and before the bracket closes,
-- by the depth of the items, and behind a colon.
structure Layout where
  first  : Nat → Text
  next   : Nat → Text
  last   : Nat → Text
  colon  : Text

namespace Layout

def newline (width depth : Nat) : Text :=
  '\n'.toNat :: List.replicate (width * depth) ' '.toNat

-- `indent=width`.
def indented (width : Nat) : Layout where
  first  := newline width
  next   := newline width
  last n := newline width (n - 1)
  colon  := [' '.toNat]

def isBlank (t : Text) : Bool :=
  t.all Scanner.isSpace

structure Blank (l : Layout) : Prop where
  first : ∀ n, isBlank (l.first n)
  next  : ∀ n, isBlank (l.next n)
  last  : ∀ n, isBlank (l.last n)
  colon : isBlank l.colon

theorem blank_newline (width depth : Nat) : isBlank (newline width depth) := by
  have hr : ∀ c ∈ List.replicate (width * depth) ' '.toNat, Scanner.isSpace c :=
    fun c hc => List.eq_of_mem_replicate hc ▸ rfl
  exact List.all_eq_true.mpr (List.forall_mem_cons.mpr ⟨rfl, hr⟩)

theorem blank_indented (width : Nat) : (indented width).Blank where
  first n := blank_newline width n
  next n  := blank_newline width n
  last n  := blank_newline width (n - 1)
  colon   := rfl

end Layout

variable (l : Layout) (s : Style)

mutual

def written (depth : Nat) : Value → Text
  | .null                   => "null".points
  | .bool true              => "true".points
  | .bool false             => "false".points
  | .int n                  => decimal n
  | .float text             => s.float text
  | .str t                  => string s t
  | .arr []                 => "[]".points
  | .arr (v :: vs)          =>
    '['.toNat :: l.first (depth + 1) ++ written (depth + 1) v ++ writtenItems (depth + 1) vs
  | .obj []                 => "\x7b\x7d".points
  | .obj ((key, v) :: rest) =>
    '\x7b'.toNat :: l.first (depth + 1) ++ string s key ++ ':'.toNat :: l.colon ++
      written (depth + 1) v ++ writtenFields (depth + 1) rest

def writtenItems (depth : Nat) : List Value → Text
  | []      => l.last depth ++ [']'.toNat]
  | v :: vs => ','.toNat :: l.next depth ++ written depth v ++ writtenItems depth vs

def writtenFields (depth : Nat) : List (Text × Value) → Text
  | []               => l.last depth ++ ['\x7d'.toNat]
  | (key, v) :: rest =>
    ','.toNat :: l.next depth ++ string s key ++ ':'.toNat :: l.colon ++ written depth v ++
      writtenFields depth rest

end

section Numbers

open Scanner

theorem natural_toDigits (k : Nat) :
    Number.natural ((Nat.toDigits 10 k).map Char.toNat) = k := by
  rw [Number.natural, List.foldl_map]
  refine Eq.trans ?_ (Nat.ofDigitChars_ten_toDigits (n := k))
  simp only [Nat.ofDigitChars_eq_foldl, mul_comm 10]

theorem value_decimal (n : Int) : Number.value (decimal n) = n := by
  rw [decimal]
  split
  case isTrue hn =>
    simp only [Number.value, if_pos, natural_toDigits]
    omega
  case isFalse hn =>
    obtain ⟨c, t, ht, hc⟩ := decimal_cons (n := n)
    rw [decimal, if_neg hn] at ht
    have hd : isDigit c := hc.elim (fun hc => absurd hc.2 hn) And.left
    have hne : c ≠ '-'.toNat := by rintro rfl; exact absurd hd (by decide)
    rw [ht, Number.value, if_neg hne, ← ht, natural_toDigits]
    omega

-- No number but zero starts with a zero.
theorem toDigits_zero_cons {k : Nat} {t : List Char} (h : Nat.toDigits 10 k = '0' :: t) :
    t = [] := by
  induction k using Nat.strongRecOn generalizing t with
  | ind k ih =>
    rw [Nat.toDigits_eq_if (by decide)] at h
    split at h
    case isTrue  => exact (List.cons.inj h).2.symm
    case isFalse hk =>
      obtain ⟨c, u, hu⟩ := List.exists_cons_of_ne_nil (Nat.toDigits_ne_nil (b := 10) (n := k / 10))
      rw [hu] at h
      have hc := (List.cons.inj h).1
      have hnil := ih (k / 10) (by omega) (hc ▸ hu)
      have hz := Nat.ofDigitChars_ten_toDigits (n := k / 10)
      rw [hu, hnil, hc] at hz
      have : k / 10 = 0 := hz.symm
      omega

theorem whole?_toDigits (k : Nat) : Number.whole? ((Nat.toDigits 10 k).map Char.toNat) =
    some ((Nat.toDigits 10 k).map Char.toNat, []) := by
  have hd := isDigit_of_mem (k := k)
  obtain ⟨c, t, ht⟩ := List.exists_cons_of_ne_nil (Nat.toDigits_ne_nil (b := 10) (n := k))
  rw [ht, List.map_cons] at hd ⊢
  have ⟨hc, hrest⟩ := List.forall_mem_cons.mp hd
  rw [Number.whole?]
  split
  case isTrue hz =>
    have hz : c = '0' := Char.toNat_inj.mp hz
    have ht : t = [] := toDigits_zero_cons (hz ▸ ht)
    rw [ht, List.map_nil]
  case isFalse hz =>
    rw [List.takeWhile_eq_self_iff.mpr hrest, List.dropWhile_eq_nil_iff.mpr hrest]

theorem read?_decimal (n : Int) : Number.read? (decimal n) = some ⟨decimal n, [], [], []⟩ := by
  have hs : Number.signed? (decimal n) = some (decimal n, []) := by
    rw [decimal]
    split
    case isTrue hn => simp [Number.signed?, whole?_toDigits]
    case isFalse hn =>
      obtain ⟨c, t, ht, hc⟩ := decimal_cons (n := n)
      rw [decimal, if_neg hn] at ht
      have hd : isDigit c := hc.elim (fun hc => absurd hc.2 hn) And.left
      have hne : c ≠ '-'.toNat := by rintro rfl; exact absurd hd (by decide)
      rw [ht, Number.signed?, if_neg hne, ← ht, whole?_toDigits]
  simp [Number.read?, hs, Number.fraction?, Number.exponent?]

end Numbers

section Strings

open Scanner

variable {ε : Type} {d : Dialect ε} {role : Option Fields} {acc : Text} {pending : Option Nat}
variable {stack : List Frame} {s : Style} {p : Nat} {t : Text}

theorem steps_cons {σ τ : Config} {c : Nat} (h : step d σ c = .ok τ) :
    (c :: t).foldlM (step d) σ = t.foldlM (step d) τ := by
  rw [List.foldlM_cons, h]
  rfl

theorem steps_append {σ τ : Config} {u : Text} (h : t.foldlM (step d) σ = .ok τ) :
    (t ++ u).foldlM (step d) σ = u.foldlM (step d) τ := by
  rw [List.foldlM_append, h]
  rfl

theorem step_hex {left unit digit c : Nat} (h : hexDigit? c = some digit) :
    step d ⟨.hex role acc pending (left + 2) unit, stack⟩ c =
      .ok ⟨.hex role acc pending (left + 1) (unit * 16 + digit), stack⟩ := by
  simp [step, h]

theorem step_hex_last {unit digit c : Nat} (h : hexDigit? c = some digit) :
    step d ⟨.hex role acc pending 1 unit, stack⟩ c =
      .ok ⟨addUnit role acc pending (unit * 16 + digit), stack⟩ := by
  simp [step, h]

theorem steps_unicodeEscape {u : Nat} (h : u < 0x10000) :
    (unicodeEscape u).foldlM (step d) ⟨.text role acc pending, stack⟩ =
      .ok ⟨addUnit role acc pending u, stack⟩ := by
  have h₁ := hexDigit?_hexDigit (u / 4096) (by omega)
  have h₂ := hexDigit?_hexDigit (u / 256 % 16) (by omega)
  have h₃ := hexDigit?_hexDigit (u / 16 % 16) (by omega)
  have h₄ := hexDigit?_hexDigit (u % 16) (by omega)
  have hu : (((0 * 16 + u / 4096) * 16 + u / 256 % 16) * 16 + u / 16 % 16) * 16 + u % 16 = u := by
    omega
  rw [unicodeEscape, steps_cons (τ := ⟨.escape role acc pending, stack⟩) rfl,
    steps_cons (τ := ⟨.hex role acc pending 4 0, stack⟩) rfl]
  simp only [List.map_cons, List.map_nil]
  rw [steps_cons (step_hex h₁), steps_cons (step_hex h₂), steps_cons (step_hex h₃),
    steps_cons (step_hex_last h₄), hu]
  rfl

theorem steps_short {c : Nat} (hu : c ≠ 'u'.toNat) (he : escape? c = some p) :
    ['\\'.toNat, c].foldlM (step d) ⟨.text role acc pending, stack⟩ =
      .ok ⟨.text role (p :: flush acc pending) none, stack⟩ := by
  have hs : step d ⟨.escape role acc pending, stack⟩ c =
      .ok ⟨.text role (p :: flush acc pending) none, stack⟩ := by
    simp only [step, if_neg hu, he]
  rw [steps_cons (τ := ⟨.escape role acc pending, stack⟩) rfl, steps_cons hs]
  rfl

theorem steps_plain (hq : p ≠ '"'.toNat) (hb : p ≠ '\\'.toNat) (hp : 0x20 ≤ p) :
    [p].foldlM (step d) ⟨.text role acc pending, stack⟩ =
      .ok ⟨.text role (p :: flush acc pending) none, stack⟩ := by
  have hs : step d ⟨.text role acc pending, stack⟩ p =
      .ok ⟨.text role (p :: flush acc pending) none, stack⟩ := by
    simp only [step, if_neg hq, if_neg hb, if_neg (not_lt.mpr hp)]
  rw [steps_cons hs]
  rfl

-- What has been read of a text: only its last character may be pending.
structure Held (t acc : Text) (pending : Option Nat) : Prop where
  held    : flush acc pending = t.reverse
  pending : ∀ h ∈ pending, t.getLast? = some h ∧ Unicode.isHigh h

theorem held_nil : Held [] [] none :=
  ⟨rfl, by simp⟩

theorem Held.plain (h : Held t acc pending) : Held (t ++ [p]) (p :: flush acc pending) none :=
  ⟨by rw [Scanner.flush, h.held, List.reverse_append, List.reverse_singleton, List.singleton_append],
    by simp⟩

-- A unit which no high surrogate waits for is held back if it is one.
theorem Held.unit (role : Option Fields) (h : Held t acc pending)
    (hl : ∀ q ∈ pending, !Unicode.isLow p) :
    ∃ acc' pending', addUnit role acc pending p = .text role acc' pending' ∧
      Held (t ++ [p]) acc' pending' := by
  have hf := h.held
  cases pending with
  | none =>
    by_cases hp : Unicode.isHigh p
    · exact ⟨acc, some p, by simp [addUnit, hp], by simpa [Scanner.flush] using hf, by simp [hp]⟩
    · exact ⟨p :: acc, none, by simp [addUnit, hp], by simpa [Scanner.flush] using hf, by simp⟩
  | some q =>
    have hl : Unicode.isLow p = false := by simpa using hl q rfl
    by_cases hp : Unicode.isHigh p
    · exact ⟨q :: acc, some p, by simp [addUnit, hl, hp], by simpa [Scanner.flush] using hf,
        by simp [hp]⟩
    · exact ⟨p :: q :: acc, none, by simp [addUnit, hl, hp], by simpa [Scanner.flush] using hf,
        by simp⟩

-- A pair of surrogates is one character.
theorem Held.pair (h : Held t acc pending) (hp : 0x10000 ≤ p) (hp' : p < 0x110000) :
    (unicodeEscape (0xD800 + (p - 0x10000) / 0x400) ++
        unicodeEscape (0xDC00 + (p - 0x10000) % 0x400)).foldlM (step d)
      ⟨.text role acc pending, stack⟩ = .ok ⟨.text role (p :: flush acc pending) none, stack⟩ := by
  have hhigh : Unicode.isHigh (0xD800 + (p - 0x10000) / 0x400) := by
    simp only [Unicode.isHigh, Bool.and_eq_true, decide_eq_true_eq]
    omega
  have hnl : Unicode.isLow (0xD800 + (p - 0x10000) / 0x400) = false := by
    simp only [Unicode.isLow, Bool.and_eq_false_iff, decide_eq_false_iff_not]
    omega
  have hlow : Unicode.isLow (0xDC00 + (p - 0x10000) % 0x400) := by
    simp only [Unicode.isLow, Bool.and_eq_true, decide_eq_true_eq]
    omega
  have hj : Unicode.joined (0xD800 + (p - 0x10000) / 0x400) (0xDC00 + (p - 0x10000) % 0x400) = p := by
    unfold Unicode.joined
    omega
  have hfirst : addUnit role acc pending (0xD800 + (p - 0x10000) / 0x400) =
      .text role (flush acc pending) (some (0xD800 + (p - 0x10000) / 0x400)) := by
    cases pending <;> simp [addUnit, hhigh, hnl, flush]
  rw [steps_append (steps_unicodeEscape (by omega)), hfirst, steps_unicodeEscape (by omega)]
  simp only [addUnit, hlow, if_true, hj]

-- A character that does not follow its first half is read as itself.
theorem Held.escapeAscii (d : Dialect ε) (role : Option Fields) (stack : List Frame)
    (h : Held t acc pending) (hl : ∀ q ∈ pending, !Unicode.isLow p) :
    ∃ acc' pending', (escapeAscii p).foldlM (step d) ⟨.text role acc pending, stack⟩ =
      .ok ⟨.text role acc' pending', stack⟩ ∧ Held (t ++ [p]) acc' pending' := by
  unfold Dumps.escapeAscii
  split
  case h_1 c hc =>
    have hs := escape?_shortEscape p (shortEscape?_lt hc) c hc
    exact ⟨_, _, steps_short hs.1 hs.2, h.plain⟩
  case h_2 hc =>
    have hq : p ≠ '"'.toNat := by rintro rfl; exact absurd hc (by decide)
    have hb : p ≠ '\\'.toNat := by rintro rfl; exact absurd hc (by decide)
    split
    case isTrue hp => exact ⟨_, _, steps_plain hq hb hp.1, h.plain⟩
    split
    case isTrue hp =>
      obtain ⟨acc', pending', he, hh⟩ := h.unit role hl
      exact ⟨acc', pending', he ▸ steps_unicodeEscape hp, hh⟩
    split
    case isTrue hlt hge => exact ⟨_, _, h.pair (not_lt.mp hlt) hge, h.plain⟩
    case isFalse hlt _  => exact ⟨_, _, steps_plain hq hb (by omega), h.plain⟩

-- No first half of a pair stands before a second one.
def Unpaired (t : Text) : Prop :=
  t.IsChain fun p q => !(Unicode.isHigh p && Unicode.isLow q)

-- A text is read as what it was written for.
def Spells (d : Dialect ε) (s : Style) (t : Text) : Prop :=
  ∀ role stack, ∃ acc pending, (t.flatMap s.escape).foldlM (step d) ⟨.text role [] none, stack⟩ =
    .ok ⟨.text role acc pending, stack⟩ ∧ Held t acc pending

theorem spells_ascii {float : Text → Text} (ht : Unpaired t) : Spells d (ascii float) t := by
  intro role stack
  induction t using List.reverseRecOn with
  | nil => exact ⟨[], none, rfl, held_nil⟩
  | append_singleton t p ih =>
    have ⟨ht, _, hp⟩ := List.isChain_append.mp ht
    obtain ⟨acc, pending, hs, hh⟩ := ih ht
    have hl : ∀ q ∈ pending, !Unicode.isLow p := by
      intro q hq
      have ⟨hlast, hhigh⟩ := hh.pending q hq
      simpa [hhigh] using hp q hlast p rfl
    obtain ⟨acc', pending', hs', hh'⟩ := hh.escapeAscii d role stack hl
    refine ⟨acc', pending', ?_, hh'⟩
    rw [List.flatMap_append, steps_append hs, List.flatMap_singleton]
    exact hs'

end Strings

section Values

open Scanner

variable {ε : Type} {d : Dialect ε} {stack : List Frame} {l : Layout} {s : Style} {depth c : Nat}
variable {t r : Text} {v : Value} {vs : List Value} {fs : Fields} {σ : Config} {m : Mode}

-- The keys of the fields behind `before`, the last of which comes first, are accepted.
def Keyed (d : Dialect ε) (s : Style) (before : Fields) : Fields → Prop
  | []               => True
  | (key, v) :: rest => Spells d s key ∧ d.text key = key ∧ d.key before key = .ok () ∧
    Keyed d s ((key, v) :: before) rest

-- What is written is accepted, part by part.
inductive Readable (d : Dialect ε) (s : Style) : Value → Prop
  | null : Readable d s .null
  | bool {b} : Readable d s (.bool b)
  | int {n} : d.number ⟨decimal n, [], [], []⟩ = .ok (.int n) → Readable d s (.int n)
  | float {text} : s.float text ≠ [] → (∀ c ∈ s.float text, isBare c) →
    literal d (s.float text) = .ok (.float text) → Readable d s (.float text)
  | str {text} : Spells d s text → d.text text = text → Readable d s (.str text)
  | arr {items} : (∀ v ∈ items, Readable d s v) → Readable d s (.arr items)
  | obj {fields : Fields} : Keyed d s [] fields → (∀ f ∈ fields, Readable d s f.2) →
    d.object fields.reverse = .ok fields → Readable d s (.obj fields)

-- A value has been read, or all of its token.
def Reads (d : Dialect ε) (v : Value) (stack : List Frame) (σ : Config) : Prop :=
  σ = complete v stack ∨ ∃ token, σ = ⟨.bare token, stack⟩ ∧ literal d token.reverse = .ok v

theorem step_complete (hc : !isBare c) {token : Text} (h : literal d token.reverse = .ok v) :
    step d ⟨.bare token, stack⟩ c = step d (complete v stack) c := by
  have hb : isBare c = false := by simpa using hc
  simp only [step, hb, h]
  cases stack with
  | nil => rfl
  | cons frame stack => cases frame <;> rfl

theorem Reads.steps (h : Reads d v stack σ) (hc : !isBare c) :
    (c :: t).foldlM (step d) σ = (c :: t).foldlM (step d) (complete v stack) := by
  rcases h with rfl | ⟨token, rfl, hl⟩
  · rfl
  · rw [List.foldlM_cons, List.foldlM_cons, step_complete hc hl]

theorem Reads.finish (h : Reads d v [] σ) : finish d σ = .ok v := by
  rcases h with rfl | ⟨token, rfl, hl⟩
  · rfl
  · simp only [Scanner.finish, hl]
    rfl

-- Where blanks are skipped.
def skips : Mode → Bool
  | .value | .first | .key _ _ | .colon _ _ | .item _ | .field _ | .done _ => true
  | _                                                                    => false

theorem steps_blank (ht : Layout.isBlank t) (hm : skips m) :
    t.foldlM (step d) ⟨m, stack⟩ = .ok ⟨m, stack⟩ := by
  induction t with
  | nil => rfl
  | cons c t ih =>
    have ⟨hc, ht⟩ := List.forall_mem_cons.mp (List.all_eq_true.mp ht)
    have hs : step d ⟨m, stack⟩ c = .ok ⟨m, stack⟩ := by
      cases m <;> first | exact if_pos hc | cases hm
    rw [steps_cons hs]
    exact ih (List.all_eq_true.mpr ht)

theorem not_bare_of_space (h : isSpace c) : !isBare c := by
  simp only [isSpace, Bool.or_eq_true, decide_eq_true_eq] at h
  rcases h with ((rfl | rfl) | rfl) | rfl <;> rfl

theorem not_space_of_bare (h : isBare c) : !isSpace c := by
  by_contra hs
  have hs : isSpace c := by simpa using hs
  simpa [h] using not_bare_of_space hs

-- What may start a value.
def Heads (c : Nat) : Prop :=
  !isSpace c ∧ c ≠ ']'.toNat

theorem heads_of_bare (h : isBare c) : Heads c :=
  ⟨not_space_of_bare h, by rintro rfl; exact absurd h (by decide)⟩

theorem written_cons (hv : Readable d s v) : ∃ c t, written l s depth v = c :: t ∧ Heads c := by
  cases hv
  case bool b => cases b <;> exact ⟨_, _, rfl, by decide, by decide⟩
  case int n _ =>
    obtain ⟨c, t, ht, hc⟩ := decimal_cons (n := n)
    refine ⟨c, t, by rw [written, ht], heads_of_bare ?_⟩
    rcases hc with ⟨rfl, -⟩ | ⟨hd, -⟩
    · decide
    · simp [isBare, hd]
  case float text hne hb _ =>
    obtain ⟨c, t, ht⟩ := List.exists_cons_of_ne_nil hne
    exact ⟨c, t, by rw [written, ht], heads_of_bare (hb c (ht ▸ List.mem_cons_self))⟩
  case arr vs _ => cases vs <;> exact ⟨_, _, by rw [written]; rfl, by decide, by decide⟩
  case obj fs _ _ _ => cases fs <;> exact ⟨_, _, by rw [written]; rfl, by decide, by decide⟩
  all_goals exact ⟨_, _, by rw [written]; rfl, by decide, by decide⟩

theorem steps_bare (hne : t ≠ []) (ht : ∀ c ∈ t, isBare c) :
    t.foldlM (step d) ⟨.value, stack⟩ = .ok ⟨.bare t.reverse, stack⟩ := by
  induction t using List.reverseRecOn with
  | nil => exact absurd rfl hne
  | append_singleton t c ih =>
    have hc : isBare c := ht c (by simp)
    by_cases htn : t = []
    · subst htn
      have hs : isSpace c = false := by simpa using not_space_of_bare hc
      have hn : ∀ q, !isBare q → c ≠ q := by rintro q hq rfl; simp [hc] at hq
      have hstep : step d ⟨.value, stack⟩ c = .ok ⟨.bare [c], stack⟩ := by
        simp only [step, hs, start, if_neg (hn '"'.toNat rfl), if_neg (hn '['.toNat rfl),
          if_neg (hn '\x7b'.toNat rfl), hc]
        rfl
      exact steps_cons hstep
    · have hstep : step d ⟨.bare t.reverse, stack⟩ c = .ok ⟨.bare (c :: t.reverse), stack⟩ := by
        simp only [step, hc, if_true]
      rw [steps_append (ih htn fun c hc => ht c (by simp [hc])), List.reverse_append]
      exact steps_cons hstep

theorem steps_string (role : Option Fields) (ht : Spells d s t)
    (hq : step d σ '"'.toNat = .ok ⟨.text role [] none, stack⟩) :
    (string s t).foldlM (step d) σ = endText d role (d.text t) stack := by
  obtain ⟨acc, pending, hs, hh⟩ := ht role stack
  rw [string, List.cons_append, steps_cons hq, steps_append hs, List.foldlM_cons]
  simp only [step, if_true, hh.held, List.reverse_reverse, List.foldlM_nil, bind_pure]

theorem steps_first (stack : List Frame) (ht : ∃ c r, t = c :: r ∧ Heads c) :
    t.foldlM (step d) ⟨.first, stack⟩ = t.foldlM (step d) ⟨.value, .arr [] :: stack⟩ := by
  obtain ⟨c, r, rfl, hs, hb⟩ := ht
  have hs : isSpace c = false := by simpa using hs
  rw [List.foldlM_cons, List.foldlM_cons]
  simp only [step, hs, if_neg hb]
  rfl

theorem writtenItems_cons (s : Style) (hl : l.Blank) (depth : Nat) (vs : List Value) :
    ∃ c t, writtenItems l s depth vs = c :: t ∧ !isBare c := by
  cases vs with
  | cons v vs => exact ⟨_, _, rfl, rfl⟩
  | nil =>
    have hb := hl.last depth
    rw [writtenItems]
    cases hlast : l.last depth with
    | nil => exact ⟨_, _, rfl, rfl⟩
    | cons c t =>
      rw [hlast] at hb
      exact ⟨c, _, rfl, not_bare_of_space (List.all_eq_true.mp hb c List.mem_cons_self)⟩

theorem writtenFields_cons (s : Style) (hl : l.Blank) (depth : Nat) (fs : Fields) :
    ∃ c t, writtenFields l s depth fs = c :: t ∧ !isBare c := by
  cases fs with
  | cons f fs => exact ⟨_, _, rfl, rfl⟩
  | nil =>
    have hb := hl.last depth
    rw [writtenFields]
    cases hlast : l.last depth with
    | nil => exact ⟨_, _, rfl, rfl⟩
    | cons c t =>
      rw [hlast] at hb
      exact ⟨c, _, rfl, not_bare_of_space (List.all_eq_true.mp hb c List.mem_cons_self)⟩

theorem mem_decimal {n : Int} : ∀ c ∈ decimal n, isDigit c ∨ c = '-'.toNat := by
  intro c hc
  rw [decimal] at hc
  split at hc
  case isTrue  =>
    rcases List.mem_cons.mp hc with hc | hc
    · exact .inr hc
    · exact .inl (isDigit_of_mem c hc)
  case isFalse => exact .inl (isDigit_of_mem c hc)

theorem decimal_bare (n : Int) : ∀ c ∈ decimal n, isBare c := by
  intro c hc
  rcases mem_decimal c hc with hd | rfl
  · simp [isBare, hd]
  · decide

theorem literal_decimal {n : Int} (h : d.number ⟨decimal n, [], [], []⟩ = .ok (.int n)) :
    literal d (decimal n) = .ok (.int n) := by
  -- There is no letter in it.
  have hno (w : Text) (c : Nat) (hc : c ∈ w) (hl : !(isDigit c || c = '-'.toNat)) :
      ¬w <+: decimal n := by
    intro hw
    have := mem_decimal c (hw.subset hc)
    simp_all
  have hprefix : ¬("NaN".points.isPrefixOf (decimal n) || "Infinity".points.isPrefixOf (decimal n) ||
      "-Infinity".points.isPrefixOf (decimal n)) := by
    simp only [Bool.or_eq_true, List.isPrefixOf_iff_prefix, not_or]
    exact ⟨⟨hno _ 'N'.toNat (by decide) rfl, hno _ 'I'.toNat (by decide) rfl⟩,
      hno _ 'I'.toNat (by decide) rfl⟩
  have hne (w : Text) (c : Nat) (hc : c ∈ w) (hl : !(isDigit c || c = '-'.toNat)) :
      decimal n ≠ w :=
    fun he => hno w c hc hl (he ▸ List.prefix_rfl)
  rw [literal, if_neg (hne "null".points 'n'.toNat (by decide) rfl),
    if_neg (hne "true".points 't'.toNat (by decide) rfl),
    if_neg (hne "false".points 'f'.toNat (by decide) rfl), if_neg hprefix, read?_decimal]
  simp only [h]
  rfl

-- What one value does to a reader, wherever it stands.
def Steps (d : Dialect ε) (l : Layout) (s : Style) (v : Value) : Prop :=
  ∀ depth stack, ∃ σ, (written l s depth v).foldlM (step d) ⟨.value, stack⟩ = .ok σ ∧
    Reads d v stack σ

theorem endObject_ok {fields : Fields} (h : d.object fields = .ok fs) :
    endObject d fields stack = .ok (complete (.obj fs) stack) := by
  rw [endObject, h]
  rfl

theorem steps_token (hw : ∀ depth, written l s depth v = t) (hne : t ≠ [])
    (ht : ∀ c ∈ t, isBare c) (h : literal d t = .ok v) : Steps d l s v := by
  intro depth stack
  rw [hw]
  exact ⟨_, steps_bare hne ht, .inr ⟨_, rfl, by rwa [List.reverse_reverse]⟩⟩

theorem Steps.field {before : Fields} {key : Text} (close : Bool) (hv : Steps d l s v)
    (hl : l.Blank) (hs : Spells d s key) (ht : d.text key = key) (hk : d.key before key = .ok ())
    (depth : Nat) (stack : List Frame) : ∃ σ,
      (string s key ++ ':'.toNat :: l.colon ++ written l s depth v).foldlM (step d)
        ⟨.key before close, stack⟩ = .ok σ ∧ Reads d v (.obj before key :: stack) σ := by
  obtain ⟨σ, hσ, hr⟩ := hv depth (.obj before key :: stack)
  have hstring : (string s key).foldlM (step d) ⟨.key before close, stack⟩ =
      .ok ⟨.colon before key, stack⟩ := by
    rw [steps_string (some before) hs rfl, ht, endText, hk]
    rfl
  refine ⟨σ, ?_, hr⟩
  rw [List.append_assoc, steps_append hstring, List.cons_append,
    steps_cons (τ := ⟨.value, .obj before key :: stack⟩) rfl,
    steps_append (steps_blank hl.colon rfl), hσ]

mutual

theorem steps_written (hl : l.Blank) : (v : Value) → Readable d s v → Steps d l s v
  | .null, _       => steps_token (fun _ => rfl) (by decide) (by decide) rfl
  | .bool true, _  => steps_token (fun _ => rfl) (by decide) (by decide) rfl
  | .bool false, _ => steps_token (fun _ => rfl) (by decide) (by decide) rfl
  | .int n, h      => by
    cases h with | int hn =>
    have ⟨c, t, ht, _⟩ := decimal_cons (n := n)
    exact steps_token (fun _ => by rw [written]) (by simp [ht]) (decimal_bare n) (literal_decimal hn)
  | .float text, h => by
    cases h with | float hne hb h =>
    exact steps_token (fun _ => by rw [written]) hne hb h
  | .str t, h => by
    cases h with | str hs ht =>
    refine fun depth stack => ⟨complete (.str t) stack, ?_, .inl rfl⟩
    rw [written, steps_string none hs rfl, ht]
    rfl
  | .arr [], _ => fun depth stack => ⟨complete (.arr []) stack, by rw [written]; rfl, .inl rfl⟩
  | .arr (v :: vs), h => by
    cases h with | arr h =>
    intro depth stack
    have ⟨hv, hvs⟩ := List.forall_mem_cons.mp h
    obtain ⟨σ, hσ, hr⟩ := steps_written hl v hv (depth + 1) (.arr [] :: stack)
    have hfirst := (steps_first stack (written_cons hv)).trans hσ
    obtain ⟨c, t, ht, hc⟩ := writtenItems_cons s hl (depth + 1) vs
    have hitems := steps_writtenItems hl vs hvs (depth + 1) [v] stack
    refine ⟨complete (.arr (v :: vs)) stack, ?_, .inl rfl⟩
    rw [written, List.append_assoc, List.cons_append, steps_cons (τ := ⟨.first, stack⟩) rfl,
      steps_append (steps_blank (hl.first _) rfl), steps_append hfirst, ht, hr.steps hc, ← ht]
    exact hitems
  | .obj [], h => by
    cases h with | obj _ _ ho =>
    refine fun depth stack => ⟨complete (.obj []) stack, ?_, .inl rfl⟩
    have hend : step d ⟨.key [] true, stack⟩ '\x7d'.toNat = .ok (complete (.obj []) stack) :=
      endObject_ok ho
    rw [written]
    exact (steps_cons (τ := ⟨.key [] true, stack⟩) rfl).trans (steps_cons hend)
  | .obj ((key, v) :: rest), h => by
    cases h with | obj hk h ho =>
    intro depth stack
    have ⟨hv, hrest⟩ := List.forall_mem_cons.mp h
    have ⟨hs, ht, hkey, hk⟩ := hk
    obtain ⟨σ, hσ, hr⟩ := (steps_written hl v hv).field true hl hs ht hkey (depth + 1) stack
    obtain ⟨c, t, ht, hc⟩ := writtenFields_cons s hl (depth + 1) rest
    have hfields := steps_writtenFields hl rest [(key, v)] hk hrest _ (by simpa using ho) (depth + 1)
      stack
    refine ⟨complete (.obj ((key, v) :: rest)) stack, ?_, .inl rfl⟩
    have hw : written l s depth (.obj ((key, v) :: rest)) =
        '\x7b'.toNat :: (l.first (depth + 1) ++
          ((string s key ++ ':'.toNat :: l.colon ++ written l s (depth + 1) v) ++
            writtenFields l s (depth + 1) rest)) := by
      simp [written]
    rw [hw, steps_cons (τ := ⟨.key [] true, stack⟩) rfl, steps_append (steps_blank (hl.first _) rfl),
      steps_append hσ, ht, hr.steps hc, ← ht]
    exact hfields

theorem steps_writtenItems (hl : l.Blank) : (vs : List Value) → (∀ v ∈ vs, Readable d s v) →
    ∀ depth items stack, (writtenItems l s depth vs).foldlM (step d) ⟨.item items, stack⟩ =
      .ok (complete (.arr (items.reverse ++ vs)) stack)
  | [], _ => by
    intro depth items stack
    rw [writtenItems, steps_append (steps_blank (hl.last _) rfl), List.append_nil]
    rfl
  | v :: vs, h => by
    intro depth items stack
    have ⟨hv, hvs⟩ := List.forall_mem_cons.mp h
    obtain ⟨σ, hσ, hr⟩ := steps_written hl v hv depth (.arr items :: stack)
    obtain ⟨c, t, ht, hc⟩ := writtenItems_cons s hl depth vs
    have hitems := steps_writtenItems hl vs hvs depth (v :: items) stack
    rw [writtenItems, List.append_assoc, List.cons_append,
      steps_cons (τ := ⟨.value, .arr items :: stack⟩) rfl,
      steps_append (steps_blank (hl.next _) rfl), steps_append hσ, ht, hr.steps hc, ← ht]
    rw [complete, hitems, List.reverse_cons, List.append_assoc]
    rfl

theorem steps_writtenFields (hl : l.Blank) : (fs : Fields) → ∀ before, Keyed d s before fs →
    (∀ f ∈ fs, Readable d s f.2) → ∀ all, d.object (fs.reverse ++ before) = .ok all →
    ∀ depth stack, (writtenFields l s depth fs).foldlM (step d) ⟨.field before, stack⟩ =
      .ok (complete (.obj all) stack)
  | [], before, _, _, all, ho => by
    intro depth stack
    have hend : step d ⟨.field before, stack⟩ '\x7d'.toNat = .ok (complete (.obj all) stack) :=
      endObject_ok ho
    rw [writtenFields, steps_append (steps_blank (hl.last _) rfl), steps_cons hend]
    rfl
  | (key, v) :: rest, before, hk, h, all, ho => by
    intro depth stack
    have ⟨hv, hrest⟩ := List.forall_mem_cons.mp h
    have ⟨hs, ht, hkey, hk⟩ := hk
    obtain ⟨σ, hσ, hr⟩ := (steps_written hl v hv).field false hl hs ht hkey depth stack
    obtain ⟨c, t, ht, hc⟩ := writtenFields_cons s hl depth rest
    have hfields := steps_writtenFields hl rest ((key, v) :: before) hk hrest all
      (by simpa using ho) depth stack
    have hw : writtenFields l s depth ((key, v) :: rest) =
        ','.toNat :: (l.next depth ++
          ((string s key ++ ':'.toNat :: l.colon ++ written l s depth v) ++
            writtenFields l s depth rest)) := by
      simp [writtenFields]
    rw [hw, steps_cons (τ := ⟨.key before false, stack⟩) rfl,
      steps_append (steps_blank (hl.next _) rfl), steps_append hσ, ht, hr.steps hc, ← ht]
    exact hfields

end

-- The text of a value is read as the value, also with blanks behind it.
theorem read_written (hl : l.Blank) (hv : Readable d s v) (ht : Layout.isBlank t) :
    Scanner.read d (written l s depth v ++ t) = .ok v := by
  obtain ⟨σ, hσ, hr⟩ := steps_written hl v hv depth []
  rw [Scanner.read, run_eq, steps_append hσ]
  cases t with
  | nil => exact hr.finish
  | cons c t =>
    have hc := List.all_eq_true.mp ht c List.mem_cons_self
    rw [hr.steps (not_bare_of_space hc), complete, steps_blank ht rfl]
    rfl

end Values

end Dumps
