import Mathlib.Data.List.Sort
import ExtManager.Codec.Value

-- What the program takes from the strings of Python.
namespace Text

-- The characters that `str.strip` removes.
def isSpace (p : Nat) : Bool :=
  (0x09 ≤ p && p ≤ 0x0D) || (0x1C ≤ p && p ≤ 0x20) || p = 0x85 || p = 0xA0 || p = 0x1680 ||
    (0x2000 ≤ p && p ≤ 0x200A) || p = 0x2028 || p = 0x2029 || p = 0x202F || p = 0x205F || p = 0x3000

def strip (t : Text) : Text :=
  ((t.dropWhile isSpace).reverse.dropWhile isSpace).reverse

-- `str(list)` of strings without quotes and backslashes, and of printable characters.
def listRepr (ts : List Text) : Text :=
  "[".points ++ ", ".points.intercalate (ts.map fun t => "'".points ++ t ++ "'".points) ++ "]".points

def ofNat (n : Nat) : Text :=
  (toString n).points

end Text

-- `unicodedata.decimal`.
class Decimal where
  value? : Nat → Option Nat

namespace Text

variable [Decimal]

-- Digits with single underscores between them, behind a number and after a digit or not.
def natural? : Bool → Nat → Text → Option Nat
  | needed, n, []     => if needed then none else some n
  | needed, n, c :: r => match Decimal.value? c with
    | some d => natural? false (n * 10 + d) r
    | none   => if c = '_'.toNat ∧ !needed then natural? true n r else none

-- What `int` strips is less than what `str.strip` does: the separators of ASCII stay.
def isNumberSpace (p : Nat) : Bool :=
  isSpace p && !(0x1C ≤ p && p ≤ 0x1F)

-- `int(text)`, `none` where it raises.
def int? (t : Text) : Option Int :=
  if 4300 < (t.filter fun c => (Decimal.value? c).isSome).length then none
  else match ((t.dropWhile isNumberSpace).reverse.dropWhile isNumberSpace).reverse with
    | []     => none
    | c :: r =>
      if c = '-'.toNat then (natural? true 0 r).map (-·)
      else if c = '+'.toNat then (natural? true 0 r).map (·)
      else (natural? true 0 (c :: r)).map (·)

end Text

-- The versions and version ranges of the `packaging` library.
class Packaging where
  Version : Type
  SpecifierSet : Type
  -- `Version(text)`, and `InvalidVersion`.
  version? : Text → Option Version
  versionStr : Version → Text
  isLocal : Version → Bool
  -- `SpecifierSet(text)`, and `InvalidSpecifier`.
  specifiers? : Text → Option SpecifierSet
  specifiersStr : SpecifierSet → Text
  -- The versions of the specifiers of a set, in the order of its iteration.
  versions : SpecifierSet → List Text
  contains : SpecifierSet → Version → Bool

-- What is printed is a word, and is read again.
class LawfulPackaging extends Packaging where
  versionStr_word : ∀ v, versionStr v ≠ [] ∧ (versionStr v).strip = versionStr v
  version?_str : ∀ v, version? (versionStr v) = some v
  specifiers?_str : ∀ s, specifiers? (specifiersStr s) = some s

namespace Value

-- `isinstance(value, dict) and set(value) == fields`.
def HasFields (fields : Fields) (names : List String) : Prop :=
  (∀ k ∈ fields.keys, k ∈ names.map String.points) ∧ ∀ n ∈ names, n.points ∈ fields.keys

instance (fields : Fields) (names : List String) : Decidable (HasFields fields names) :=
  inferInstanceAs (Decidable (_ ∧ _))

end Value
