-- JSON values as `json.dumps` writes them with sorted keys: the fields of an object stand in key
-- order, and a float is its shortest decimal text. Two values are equal iff their texts are.
inductive Json
  | null
  | bool (b : Bool)
  | int (n : Int)
  | float (text : String)
  | str (s : String)
  | arr (items : List Json)
  | obj (fields : List (String × Json))

namespace Json

mutual

def decEq : (a b : Json) → Decidable (a = b)
  | null, null       => .isTrue rfl
  | bool a, bool b   => if h : a = b then .isTrue (by rw [h]) else .isFalse (by simp [h])
  | int a, int b     => if h : a = b then .isTrue (by rw [h]) else .isFalse (by simp [h])
  | float a, float b => if h : a = b then .isTrue (by rw [h]) else .isFalse (by simp [h])
  | str a, str b     => if h : a = b then .isTrue (by rw [h]) else .isFalse (by simp [h])
  | arr a, arr b     => match decEqItems a b with
    | .isTrue h  => .isTrue (by rw [h])
    | .isFalse h => .isFalse (by simp [h])
  | obj a, obj b     => match decEqFields a b with
    | .isTrue h  => .isTrue (by rw [h])
    | .isFalse h => .isFalse (by simp [h])
  | null, bool _ | null, int _ | null, float _ | null, str _ | null, arr _ | null, obj _
  | bool _, null | bool _, int _ | bool _, float _ | bool _, str _ | bool _, arr _ | bool _, obj _
  | int _, null | int _, bool _ | int _, float _ | int _, str _ | int _, arr _ | int _, obj _
  | float _, null | float _, bool _ | float _, int _ | float _, str _ | float _, arr _
  | float _, obj _
  | str _, null | str _, bool _ | str _, int _ | str _, float _ | str _, arr _ | str _, obj _
  | arr _, null | arr _, bool _ | arr _, int _ | arr _, float _ | arr _, str _ | arr _, obj _
  | obj _, null | obj _, bool _ | obj _, int _ | obj _, float _ | obj _, str _ | obj _, arr _ =>
    .isFalse (by simp)

def decEqItems : (as bs : List Json) → Decidable (as = bs)
  | [], []           => .isTrue rfl
  | [], _ :: _       => .isFalse (by simp)
  | _ :: _, []       => .isFalse (by simp)
  | a :: as, b :: bs => match decEq a b, decEqItems as bs with
    | .isTrue h₁, .isTrue h₂ => .isTrue (by rw [h₁, h₂])
    | .isFalse h₁, _         => .isFalse (by simp [h₁])
    | _, .isFalse h₂         => .isFalse (by simp [h₂])

def decEqFields : (as bs : List (String × Json)) → Decidable (as = bs)
  | [], []                     => .isTrue rfl
  | [], _ :: _                 => .isFalse (by simp)
  | _ :: _, []                 => .isFalse (by simp)
  | (k, a) :: as, (l, b) :: bs => match decEq a b, decEqFields as bs with
    | .isTrue h₁, .isTrue h₂ =>
      if h : k = l then .isTrue (by rw [h, h₁, h₂]) else .isFalse (by simp [h])
    | .isFalse h₁, _         => .isFalse (by simp [h₁])
    | _, .isFalse h₂         => .isFalse (by simp [h₂])

end

instance : DecidableEq Json :=
  decEq

-- `value[key]`, `none` where the key is missing or the value is no object.
def get? (key : String) : Json → Option Json
  | obj fields => fields.lookup key
  | _          => none

def ofOption {α : Type} (f : α → Json) : Option α → Json
  | none   => null
  | some a => f a

end Json
