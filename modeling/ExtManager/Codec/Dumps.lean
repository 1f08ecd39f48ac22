import ExtManager.Codec.Scanner

-- `json.dumps` with short separators, of values whose keys stand in order.
namespace Dumps

def hexDigit (n : Nat) : Nat :=
  if n < 10 then '0'.toNat + n else 'a'.toNat + (n - 10)

-- `\uXXXX`.
def unicodeEscape (p : Nat) : Text :=
  '\\'.toNat :: 'u'.toNat :: [p / 4096, p / 256 % 16, p / 16 % 16, p % 16].map hexDigit

-- What stands for the character behind a backslash, if it has such an escape.
def shortEscape? (p : Nat) : Option Nat :=
  if p = '"'.toNat ∨ p = '\\'.toNat then some p
  else if p = 0x08 then some 'b'.toNat
  else if p = 0x0C then some 'f'.toNat
  else if p = 0x0A then some 'n'.toNat
  else if p = 0x0D then some 'r'.toNat
  else if p = 0x09 then some 't'.toNat
  else none

-- A character of a string with `ensure_ascii`.
def escapeAscii (p : Nat) : Text :=
  match shortEscape? p with
  | some c => ['\\'.toNat, c]
  | none   =>
    if 0x20 ≤ p ∧ p < 0x7F then [p]
    else if p < 0x10000 then unicodeEscape p
    else if p < 0x110000 then
      unicodeEscape (0xD800 + (p - 0x10000) / 0x400) ++ unicodeEscape (0xDC00 + (p - 0x10000) % 0x400)
    -- There are no more characters.
    else [p]

-- A character of a string without it.
def escapePlain (p : Nat) : Text :=
  match shortEscape? p with
  | some c => ['\\'.toNat, c]
  | none   => if p < 0x20 then unicodeEscape p else [p]

def decimal (n : Int) : Text :=
  let digits := (Nat.toDigits 10 n.natAbs).map Char.toNat
  if n < 0 then '-'.toNat :: digits else digits

-- How an encoder writes characters and floats.
structure Style where
  escape : Nat → Text
  float  : Text → Text

variable (s : Style)

def string (t : Text) : Text :=
  '"'.toNat :: t.flatMap s.escape ++ ['"'.toNat]

mutual

def value : Value → Text
  | .null                   => "null".points
  | .bool true              => "true".points
  | .bool false             => "false".points
  | .int n                  => decimal n
  | .float text             => s.float text
  | .str t                  => string s t
  | .arr []                 => "[]".points
  | .arr (v :: vs)          => '['.toNat :: value v ++ items vs
  | .obj []                 => "\x7b\x7d".points
  | .obj ((key, v) :: rest) =>
    '\x7b'.toNat :: string s key ++ ':'.toNat :: value v ++ fields rest

def items : List Value → Text
  | []      => [']'.toNat]
  | v :: vs => ','.toNat :: value v ++ items vs

def fields : List (Text × Value) → Text
  | []               => ['\x7d'.toNat]
  | (key, v) :: rest => ','.toNat :: string s key ++ ':'.toNat :: value v ++ fields rest

end

section Characters

variable {p q : Nat} {r r' : Text}

-- Four digits are read as what they were written for.
def unit? : Text → Option (Nat × Text)
  | a :: b :: c :: d :: r => do
    let a ← Scanner.hexDigit? a
    let b ← Scanner.hexDigit? b
    let c ← Scanner.hexDigit? c
    let d ← Scanner.hexDigit? d
    some (((a * 16 + b) * 16 + c) * 16 + d, r)
  | _                     => none

-- A unit, with the one behind it if it is the first half of a pair.
def joined? (x : Nat × Text) : Option (Nat × Text) :=
  if Unicode.isHigh x.1 then (unit? (x.2.drop 2)).map fun y => (Unicode.joined x.1 y.1, y.2) else some x

-- The character that a text starts with, and the rest.
def character? : Text → Option (Nat × Text)
  | []     => none
  | c :: r =>
    if c ≠ '\\'.toNat then some (c, r)
    else match r with
      | []     => none
      | e :: r =>
        if e ≠ 'u'.toNat then (Scanner.escape? e).map (·, r) else (unit? r).bind joined?

theorem hexDigit?_hexDigit : ∀ n < 16, Scanner.hexDigit? (hexDigit n) = some n := by
  decide

theorem unit?_escape (h : p < 0x10000) :
    unit? ([p / 4096, p / 256 % 16, p / 16 % 16, p % 16].map hexDigit ++ r) = some (p, r) := by
  have ha := hexDigit?_hexDigit (p / 4096) (by omega)
  have hb := hexDigit?_hexDigit (p / 256 % 16) (by omega)
  have hc := hexDigit?_hexDigit (p / 16 % 16) (by omega)
  have hd := hexDigit?_hexDigit (p % 16) (by omega)
  have he : ((p / 4096 * 16 + p / 256 % 16) * 16 + p / 16 % 16) * 16 + p % 16 = p := by omega
  simp only [List.map_cons, List.map_nil, List.cons_append, List.nil_append, unit?, ha, hb, hc, hd]
  exact congrArg (fun n => some (n, r)) he

theorem shortEscape?_lt {c : Nat} (h : shortEscape? p = some c) : p < 93 := by
  by_contra hp
  have : '"'.toNat = 34 ∧ '\\'.toNat = 92 := by decide
  rw [shortEscape?, if_neg (by omega), if_neg (by omega), if_neg (by omega), if_neg (by omega),
    if_neg (by omega), if_neg (by omega)] at h
  cases h

theorem escape?_shortEscape : ∀ p < 93, ∀ c ∈ shortEscape? p,
    c ≠ 'u'.toNat ∧ Scanner.escape? c = some p := by
  decide

theorem character?_plain (h : p ≠ '\\'.toNat) : character? (p :: r) = some (p, r) :=
  if_pos h

theorem character?_short {c : Nat} (hu : c ≠ 'u'.toNat) (he : Scanner.escape? c = some p) :
    character? ('\\'.toNat :: c :: r) = some (p, r) := by
  rw [character?, if_neg (not_not.mpr rfl), if_pos hu, he]
  rfl

theorem character?_unit {u : Nat} (h : unit? r = some (u, r')) :
    character? ('\\'.toNat :: 'u'.toNat :: r) = joined? (u, r') := by
  rw [character?, if_neg (not_not.mpr rfl), if_neg (not_not.mpr rfl), h]
  rfl

-- What is written for a character of Unicode is read as that character.
theorem character?_escapeAscii (hs : !Unicode.isSurrogate p) :
    character? (escapeAscii p ++ r) = some (p, r) := by
  unfold escapeAscii
  split
  case h_1 c h =>
    have ⟨hu, he⟩ := escape?_shortEscape p (shortEscape?_lt h) c h
    exact character?_short hu he
  case h_2 h =>
    have hne : p ≠ '\\'.toNat := by
      rintro rfl
      exact absurd h (by decide)
    simp only [Unicode.isSurrogate, Unicode.isHigh, Unicode.isLow, Bool.not_eq_true',
      Bool.or_eq_false_iff, Bool.and_eq_false_iff, decide_eq_false_iff_not] at hs
    split
    case isTrue => exact character?_plain hne
    split
    case isTrue hlt  =>
      refine (character?_unit (unit?_escape hlt)).trans (if_neg ?_)
      simpa only [Unicode.isHigh, Bool.and_eq_true, decide_eq_true_eq, not_and_or] using hs.left
    split
    case isFalse => exact character?_plain hne
    case isTrue hlt hge =>
      have hhigh : Unicode.isHigh (0xD800 + (p - 0x10000) / 0x400) := by
        simp only [Unicode.isHigh, Bool.and_eq_true, decide_eq_true_eq]
        omega
      have hj : Unicode.joined (0xD800 + (p - 0x10000) / 0x400) (0xDC00 + (p - 0x10000) % 0x400) = p := by
        unfold Unicode.joined
        omega
      have hl := unit?_escape (p := 0xDC00 + (p - 0x10000) % 0x400) (r := r) (by omega)
      rw [List.append_assoc]
      refine (character?_unit (unit?_escape (by omega))).trans ((if_pos hhigh).trans ?_)
      change (unit? ([_, _, _, _].map hexDigit ++ r)).map _ = _
      rw [hl]
      exact congrArg (fun n => some (n, r)) hj

-- No character is written with the start of what is written for another one.
theorem escapeAscii_inj (hp : !Unicode.isSurrogate p) (hq : !Unicode.isSurrogate q)
    (h : escapeAscii p ++ r = escapeAscii q ++ r') : p = q ∧ r = r' := by
  have h := congrArg character? h
  rw [character?_escapeAscii hp, character?_escapeAscii hq] at h
  exact Prod.ext_iff.mp (Option.some.inj h)

-- A quote is escaped.
theorem escapeAscii_ne_quote (hp : !Unicode.isSurrogate p) :
    escapeAscii p ++ r ≠ '"'.toNat :: r' := by
  intro h
  have hc := congrArg character? h
  rw [character?_escapeAscii hp, character?_plain (by decide)] at hc
  cases hc
  exact absurd (List.cons.inj h).left (by decide)

end Characters

section Flat

def ascii (float : Text → Text) : Style where
  escape := escapeAscii
  float  := float

-- Texts that have an encoding, integers and null.
inductive Flat : Value → Prop
  | null : Flat .null
  | int {n} : Flat (.int n)
  | str {t} : Unicode.scalar t → Flat (.str t)

variable {float : Text → Text} {r r' : Text}

theorem escapes_inj {t u : Text} (ht : Unicode.scalar t) (hu : Unicode.scalar u)
    (h : t.flatMap escapeAscii ++ '"'.toNat :: r = u.flatMap escapeAscii ++ '"'.toNat :: r') :
    t = u ∧ r = r' := by
  induction t generalizing u with
  | nil =>
    cases u
    case nil       => exact ⟨rfl, (List.cons.inj h).right⟩
    case cons q u  =>
      have ⟨hq, _⟩ := List.forall_mem_cons.mp (List.all_eq_true.mp hu)
      rw [List.flatMap_cons, List.append_assoc] at h
      exact absurd h.symm (escapeAscii_ne_quote hq)
  | cons p t ih =>
    have ⟨hp, ht⟩ := List.forall_mem_cons.mp (List.all_eq_true.mp ht)
    rw [List.flatMap_cons, List.append_assoc] at h
    cases u
    case nil      => exact absurd h (escapeAscii_ne_quote hp)
    case cons q u =>
      have ⟨hq, hu⟩ := List.forall_mem_cons.mp (List.all_eq_true.mp hu)
      rw [List.flatMap_cons, List.append_assoc] at h
      have ⟨he, h⟩ := escapeAscii_inj hp hq h
      have ⟨ht, hr⟩ := ih (List.all_eq_true.mpr ht) (List.all_eq_true.mpr hu) h
      exact ⟨by rw [he, ht], hr⟩

-- What ends an item of a list.
def Ends (r : Text) : Prop :=
  ∃ c t, r = c :: t ∧ (c = ','.toNat ∨ c = ']'.toNat)

theorem Ends.not_digit {c : Nat} (hc : c = ','.toNat ∨ c = ']'.toNat) : !Scanner.isDigit c := by
  rcases hc with rfl | rfl <;> decide

theorem isDigit_of_mem {k : Nat} : ∀ c ∈ (Nat.toDigits 10 k).map Char.toNat, Scanner.isDigit c := by
  refine List.forall_mem_map.mpr fun c hc => ?_
  have hd := Nat.isDigit_of_mem_toDigits (by decide) (by decide) hc
  simpa [Scanner.isDigit] using Char.isDigit_iff_toNat.mp hd

theorem digits_inj {m n : Nat} (hr : Ends r) (hr' : Ends r')
    (h : (Nat.toDigits 10 m).map Char.toNat ++ r = (Nat.toDigits 10 n).map Char.toNat ++ r') :
    m = n ∧ r = r' := by
  have takes (k : Nat) {r : Text} (hr : Ends r) :
      ((Nat.toDigits 10 k).map Char.toNat ++ r).takeWhile Scanner.isDigit =
        (Nat.toDigits 10 k).map Char.toNat := by
    obtain ⟨c, t, rfl, hc⟩ := hr
    rw [List.takeWhile_append_of_pos isDigit_of_mem, List.takeWhile_cons_of_neg, List.append_nil]
    simpa using Ends.not_digit hc
  have hd := congrArg (List.takeWhile Scanner.isDigit) h
  rw [takes m hr, takes n hr'] at hd
  have hmn := List.map_injective_iff.mpr (fun _ _ h => Char.toNat_inj.mp h) hd
  have hmn : m = n := by
    simpa using congrArg (Nat.ofDigitChars 10 · 0) hmn
  subst hmn
  exact ⟨rfl, List.append_cancel_left h⟩

-- A number starts as no other value does.
theorem decimal_cons {n : Int} : ∃ c t, decimal n = c :: t ∧
    (c = '-'.toNat ∧ n < 0 ∨ Scanner.isDigit c ∧ 0 ≤ n) := by
  have hne : (Nat.toDigits 10 n.natAbs).map Char.toNat ≠ [] := by
    simp
  unfold decimal
  split
  case isTrue hn  => exact ⟨_, _, rfl, .inl ⟨rfl, hn⟩⟩
  case isFalse hn =>
    obtain ⟨c, t, he⟩ := List.exists_cons_of_ne_nil hne
    exact ⟨c, t, he, .inr ⟨isDigit_of_mem c (he ▸ List.mem_cons_self ..), not_lt.mp hn⟩⟩

theorem decimal_inj {m n : Int} (hr : Ends r) (hr' : Ends r') (h : decimal m ++ r = decimal n ++ r') :
    m = n ∧ r = r' := by
  obtain ⟨c, t, hc, hm⟩ := decimal_cons (n := m)
  obtain ⟨d, u, hd, hn⟩ := decimal_cons (n := n)
  have hcd : c = d := by
    rw [hc, hd] at h
    exact (List.cons.inj h).left
  have hminus : ¬Scanner.isDigit '-'.toNat := by decide
  unfold decimal at h
  rcases hm with ⟨rfl, hm⟩ | ⟨hcm, hm⟩
  all_goals rcases hn with ⟨rfl, hn⟩ | ⟨hdn, hn⟩
  · rw [if_pos hm, if_pos hn] at h
    have ⟨habs, hr⟩ := digits_inj hr hr' (List.cons.inj h).right
    exact ⟨by omega, hr⟩
  · exact absurd (hcd ▸ hdn) hminus
  · exact absurd (hcd ▸ hcm) hminus
  · rw [if_neg (not_lt.mpr hm), if_neg (not_lt.mpr hn)] at h
    have ⟨habs, hr⟩ := digits_inj hr hr' h
    exact ⟨by omega, hr⟩

-- The first character of what is written for a value tells what it is.
theorem start_of_flat {v : Value} (hv : Flat v) : ∃ c t, value (ascii float) v = c :: t ∧
    match v with
      | .null  => c = 'n'.toNat
      | .str _ => c = '"'.toNat
      | _      => c = '-'.toNat ∨ Scanner.isDigit c := by
  cases hv
  case null  => exact ⟨_, _, rfl, by decide⟩
  case int n =>
    obtain ⟨c, t, h, hc⟩ := decimal_cons (n := n)
    exact ⟨c, t, by rw [value, h], hc.imp And.left And.left⟩
  case str   => exact ⟨_, _, by rw [value, string]; rfl, rfl⟩

theorem flat_inj {v w : Value} (hv : Flat v) (hw : Flat w) (hr : Ends r) (hr' : Ends r')
    (h : value (ascii float) v ++ r = value (ascii float) w ++ r') : v = w ∧ r = r' := by
  obtain ⟨c, _, hc, hcv⟩ := @start_of_flat float _ hv
  obtain ⟨d, _, hd, hdw⟩ := @start_of_flat float _ hw
  have hcd : c = d := by
    rw [hc, hd] at h
    exact (List.cons.inj h).left
  subst hcd
  have hn : 'n'.toNat ≠ '-'.toNat ∧ !Scanner.isDigit 'n'.toNat ∧ '"'.toNat ≠ '-'.toNat ∧
      !Scanner.isDigit '"'.toNat ∧ 'n'.toNat ≠ '"'.toNat := by decide
  cases hv <;> cases hw <;> dsimp only at hcv hdw
  case null.null     => exact ⟨rfl, List.append_cancel_left h⟩
  case int.int       =>
    simp only [value] at h
    have ⟨hmn, hr⟩ := decimal_inj hr hr' h
    exact ⟨by rw [hmn], hr⟩
  case str.str t ht u hu =>
    simp only [value, string, List.cons_append, List.append_assoc, List.nil_append] at h
    have ⟨htu, hr⟩ := escapes_inj ht hu (List.cons.inj h).right
    exact ⟨by rw [htu], hr⟩
  all_goals grind

theorem items_ends (vs : List Value) : Ends (items (ascii float) vs ++ r) := by
  cases vs
  case nil  => exact ⟨_, _, by rw [items]; rfl, .inr rfl⟩
  case cons => exact ⟨_, _, by rw [items]; rfl, .inl rfl⟩

theorem items_inj {vs ws : List Value} (hv : ∀ v ∈ vs, Flat v) (hw : ∀ w ∈ ws, Flat w)
    (h : items (ascii float) vs = items (ascii float) ws) : vs = ws := by
  induction vs generalizing ws with
  | nil =>
    cases ws
    case nil  => rfl
    case cons =>
      rw [items, items] at h
      exact absurd (List.cons.inj h).left (by decide)
  | cons v vs ih =>
    cases ws
    case nil       =>
      rw [items, items] at h
      exact absurd (List.cons.inj h).left (by decide)
    case cons w ws =>
      have ⟨hv, hvs⟩ := List.forall_mem_cons.mp hv
      have ⟨hw, hws⟩ := List.forall_mem_cons.mp hw
      rw [items, items] at h
      have hends := @items_ends float []
      simp only [List.append_nil] at hends
      have ⟨he, h⟩ := flat_inj hv hw (hends vs) (hends ws) (List.cons.inj h).right
      rw [he, ih hvs hws h]

-- Lists of such values have different texts.
theorem list_inj {vs ws : List Value} (hv : ∀ v ∈ vs, Flat v) (hw : ∀ w ∈ ws, Flat w)
    (h : value (ascii float) (.arr vs) = value (ascii float) (.arr ws)) : vs = ws := by
  have start (v : Value) (hv : Flat v) : ∀ t, value (ascii float) v ++ t ≠ [']'.toNat] := by
    intro t he
    obtain ⟨c, u, hc, hm⟩ := @start_of_flat float _ hv
    rw [hc] at he
    obtain ⟨rfl, -⟩ := List.cons.inj he
    cases hv <;> revert hm
    case null => decide
    case str  => dsimp only; decide
    case int  => dsimp only; decide
  cases vs <;> cases ws
  case nil.nil              => rfl
  case nil.cons w ws        =>
    rw [value, value] at h
    exact absurd (List.cons.inj h).right.symm (start w (hw w (List.mem_cons_self ..)) _)
  case cons.nil v vs        =>
    rw [value, value] at h
    exact absurd (List.cons.inj h).right (start v (hv v (List.mem_cons_self ..)) _)
  case cons.cons v vs w ws  =>
    refine @items_inj float _ _ hv hw ?_
    rw [value, value] at h
    rw [items, items]
    exact congrArg _ (List.cons.inj h).right

end Flat

end Dumps
