import Mathlib.Algebra.Group.Int.Defs
import Mathlib.Algebra.GroupWithZero.Nat
import Mathlib.Data.List.Basic

abbrev Bytes :=
  List UInt8

-- A string as its code points. It may have surrogates among them, as the strings of Python may.
abbrev Text :=
  List Nat

instance : LawfulBEq Text :=
  inferInstance

def String.points (s : String) : Text :=
  s.toList.map Char.toNat

theorem String.points_inj {s t : String} : s.points = t.points ↔ s = t := by
  constructor
  · intro h
    have hinj : Function.Injective Char.toNat := fun _ _ h => Char.toNat_inj.mp h
    exact String.toList_inj.mp <| (List.map_injective_iff.mpr hinj) h
  · exact (· ▸ rfl)

namespace Unicode

def isHigh (p : Nat) : Bool :=
  0xD800 ≤ p && p ≤ 0xDBFF

def isLow (p : Nat) : Bool :=
  0xDC00 ≤ p && p ≤ 0xDFFF

def isSurrogate (p : Nat) : Bool :=
  isHigh p || isLow p

def joined (high low : Nat) : Nat :=
  0x10000 + (high - 0xD800) * 0x400 + (low - 0xDC00)

-- Without surrogates: the text has an encoding.
def scalar (t : Text) : Bool :=
  t.all fun p => !isSurrogate p

def isContinuation (b : UInt8) : Bool :=
  b.toNat / 64 = 2

-- A character whose first bytes have been read: how many are left, and the least code point that
-- may be written with so many.
structure Begun where
  left  : Nat
  value : Nat
  least : Nat

-- UTF-8. Encoded surrogates are an error unless they `pass`.
def utf8From (pass : Bool) : Option Begun → Bytes → Option Text
  | none, []       => some []
  | some _, []     => none
  | none, b :: r   =>
    if b.toNat < 0x80 then (b.toNat :: ·) <$> utf8From pass none r
    else if 0xC2 ≤ b.toNat ∧ b.toNat < 0xE0 then utf8From pass (some ⟨1, b.toNat % 32, 0x80⟩) r
    else if 0xE0 ≤ b.toNat ∧ b.toNat < 0xF0 then utf8From pass (some ⟨2, b.toNat % 16, 0x800⟩) r
    else if 0xF0 ≤ b.toNat ∧ b.toNat < 0xF5 then utf8From pass (some ⟨3, b.toNat % 8, 0x10000⟩) r
    else none
  | some c, b :: r =>
    let value := c.value * 64 + b.toNat % 64
    if !isContinuation b then none
    else if 1 < c.left then utf8From pass (some ⟨c.left - 1, value, c.least⟩) r
    else if c.least ≤ value ∧ value < 0x110000 ∧ (pass ∨ !isSurrogate value) then
      (value :: ·) <$> utf8From pass none r
    else none

def utf8 (pass : Bool) : Bytes → Option Text :=
  utf8From pass none

inductive Endian
  | big
  | little
  deriving DecidableEq

def units16 (e : Endian) : Bytes → Option (List Nat)
  | []          => some []
  | [_]         => none
  | a :: b :: r =>
    ((match e with
      | .big    => a.toNat * 256 + b.toNat
      | .little => b.toNat * 256 + a.toNat) :: ·) <$> units16 e r

-- Surrogates that stand alone pass.
def join16 : List Nat → Text
  | []          => []
  | [h]         => [h]
  | h :: l :: r => if isHigh h && isLow l then joined h l :: join16 r else h :: join16 (l :: r)

def utf16 (e : Endian) (b : Bytes) : Option Text :=
  join16 <$> units16 e b

-- Surrogates pass.
def utf32 (e : Endian) : Bytes → Option Text
  | []                    => some []
  | a :: b :: c :: d :: r =>
    let p := match e with
      | .big    => ((a.toNat * 256 + b.toNat) * 256 + c.toNat) * 256 + d.toNat
      | .little => ((d.toNat * 256 + c.toNat) * 256 + b.toNat) * 256 + a.toNat
    if p < 0x110000 then (p :: ·) <$> utf32 e r else none
  | _                     => none

-- The number of bytes of a code point in UTF-8.
def width (p : Nat) : Nat :=
  if p < 0x80 then 1 else if p < 0x800 then 2 else if p < 0x10000 then 3 else 4

def byteLength (t : Text) : Nat :=
  (t.map width).sum

-- What is read without passing surrogates is read the same when they pass.
theorem utf8From_pass {b : Bytes} {begun : Option Begun} {t : Text}
    (h : utf8From false begun b = some t) : utf8From true begun b = some t := by
  fun_induction utf8From false begun b generalizing t
  case case3 b r hb ih =>
    have ⟨u, hu, ht⟩ := Option.map_eq_some_iff.mp h
    simp [utf8From, hb, ih hu, ← ht]
  case case4 h₁ h₂ ih       => rw [utf8From, if_neg h₁, if_pos h₂, ih h]
  case case5 h₁ h₂ h₃ ih    => rw [utf8From, if_neg h₁, if_neg h₂, if_pos h₃, ih h]
  case case6 h₁ h₂ h₃ h₄ ih => rw [utf8From, if_neg h₁, if_neg h₂, if_neg h₃, if_pos h₄, ih h]
  case case9 h₁ h₂ ih       => rw [utf8From, if_neg h₁, if_pos h₂, ih h]
  case case10 c b r value h₁ h₂ h₃ ih =>
    have ⟨u, hu, ht⟩ := Option.map_eq_some_iff.mp h
    rw [utf8From, if_neg h₁, if_neg h₂, if_pos ⟨h₃.1, h₃.2.1, .inl rfl⟩, ih hu, ← ht]
    rfl
  all_goals simp_all [utf8From]

theorem utf8_pass {b : Bytes} {t : Text} (h : utf8 false b = some t) : utf8 true b = some t :=
  utf8From_pass h

end Unicode
