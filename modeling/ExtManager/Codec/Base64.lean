import ExtManager.Codec.Text

-- Base64 with the URL-safe alphabet and without padding.
namespace Base64

def digit (n : Nat) : Nat :=
  if n < 26 then 'A'.toNat + n
  else if n < 52 then 'a'.toNat + (n - 26)
  else if n < 62 then '0'.toNat + (n - 52)
  else if n = 62 then '-'.toNat
  else '_'.toNat

def value? (p : Nat) : Option Nat :=
  if 'A'.toNat ≤ p ∧ p ≤ 'Z'.toNat then some (p - 'A'.toNat)
  else if 'a'.toNat ≤ p ∧ p ≤ 'z'.toNat then some (p - 'a'.toNat + 26)
  else if '0'.toNat ≤ p ∧ p ≤ '9'.toNat then some (p - '0'.toNat + 52)
  else if p = '-'.toNat then some 62
  else if p = '_'.toNat then some 63
  else none

def encode : Bytes → Text
  | []               => []
  | [a]              => [digit (a.toNat / 4), digit (a.toNat % 4 * 16)]
  | [a, b]           =>
    [digit (a.toNat / 4), digit (a.toNat % 4 * 16 + b.toNat / 16), digit (b.toNat % 16 * 4)]
  | a :: b :: c :: r =>
    digit (a.toNat / 4) :: digit (a.toNat % 4 * 16 + b.toNat / 16) ::
      digit (b.toNat % 16 * 4 + c.toNat / 64) :: digit (c.toNat % 64) :: encode r

-- The bits that are left over at the end are dropped.
def decode : Text → Option Bytes
  | []                    => some []
  | [_]                   => none
  | [a, b]                => do
    let a ← value? a
    let b ← value? b
    some [.ofNat (a * 4 + b / 16)]
  | [a, b, c]             => do
    let a ← value? a
    let b ← value? b
    let c ← value? c
    some [.ofNat (a * 4 + b / 16), .ofNat (b % 16 * 16 + c / 4)]
  | a :: b :: c :: d :: r => do
    let a ← value? a
    let b ← value? b
    let c ← value? c
    let d ← value? d
    let r ← decode r
    some (.ofNat (a * 4 + b / 16) :: .ofNat (b % 16 * 16 + c / 4) :: .ofNat (c % 4 * 64 + d) :: r)

theorem value?_digit {n : Nat} (h : n < 64) : value? (digit n) = some n := by
  have hall : ∀ n : Fin 64, value? (digit n.val) = some n.val := by decide
  exact hall ⟨n, h⟩

theorem ofNat_eq {a : UInt8} {n : Nat} (h : n = a.toNat) : UInt8.ofNat n = a := by
  rw [h, UInt8.ofNat_toNat]

theorem decode_encode {b : Bytes} : decode (encode b) = some b := by
  fun_induction encode b
  case case1 => rfl
  case case2 a =>
    have ha := a.toNat_lt
    rw [decode, value?_digit (by omega), value?_digit (by omega)]
    simp only [Option.bind_eq_bind, Option.bind_some]
    rw [ofNat_eq (a := a) (by omega)]
  case case3 a b =>
    have ha := a.toNat_lt
    have hb := b.toNat_lt
    rw [decode, value?_digit (by omega), value?_digit (by omega), value?_digit (by omega)]
    simp only [Option.bind_eq_bind, Option.bind_some]
    rw [ofNat_eq (a := a) (by omega), ofNat_eq (a := b) (by omega)]
  case case4 a b c r ih =>
    have ha := a.toNat_lt
    have hb := b.toNat_lt
    have hc := c.toNat_lt
    rw [decode, value?_digit (by omega), value?_digit (by omega), value?_digit (by omega),
      value?_digit (by omega), ih]
    simp only [Option.bind_eq_bind, Option.bind_some]
    rw [ofNat_eq (a := a) (by omega), ofNat_eq (a := b) (by omega), ofNat_eq (a := c) (by omega)]

end Base64
