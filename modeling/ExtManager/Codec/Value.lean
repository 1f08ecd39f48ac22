import ExtManager.Codec.Assoc
import ExtManager.Codec.Text

-- JSON values. The fields of an object stand in key order, so that two values are equal iff they
-- are as dictionaries. A float is the text that it was read from.
inductive Value
  | null
  | bool (b : Bool)
  | int (n : Int)
  | float (text : Text)
  | str (t : Text)
  | arr (items : List Value)
  | obj (fields : List (Text × Value))

abbrev Fields :=
  List (Text × Value)

def Fields.Sorted (fields : Fields) : Prop :=
  fields.Pairwise (·.1 < ·.1)

namespace Value

mutual

def decEq : (a b : Value) → Decidable (a = b)
  | null, null       => .isTrue rfl
  | bool a, bool b   => if h : a = b then .isTrue (by rw [h]) else .isFalse (by simp [h])
  | int a, int b     => if h : a = b then .isTrue (by rw [h]) else .isFalse (by simp [h])
  | float a, float b => if h : a = b then .isTrue (by rw [h]) else .isFalse (by simp [h])
  | str a, str b     => if h : a = b then .isTrue (by rw [h]) else .isFalse (by simp [h])
  | arr a, arr b     => match decEqItems a b with
    | .isTrue h  => .isTrue (by rw [h])
    | .isFalse h => .isFalse (by simp [h])
  | obj a, obj b     => match decEqFields a b with
    | .isTrue h  => .isTrue (by rw [h])
    | .isFalse h => .isFalse (by simp [h])
  | null, bool _ | null, int _ | null, float _ | null, str _ | null, arr _ | null, obj _
  | bool _, null | bool _, int _ | bool _, float _ | bool _, str _ | bool _, arr _ | bool _, obj _
  | int _, null | int _, bool _ | int _, float _ | int _, str _ | int _, arr _ | int _, obj _
  | float _, null | float _, bool _ | float _, int _ | float _, str _ | float _, arr _
  | float _, obj _
  | str _, null | str _, bool _ | str _, int _ | str _, float _ | str _, arr _ | str _, obj _
  | arr _, null | arr _, bool _ | arr _, int _ | arr _, float _ | arr _, str _ | arr _, obj _
  | obj _, null | obj _, bool _ | obj _, int _ | obj _, float _ | obj _, str _ | obj _, arr _ =>
    .isFalse (by simp)

def decEqItems : (as bs : List Value) → Decidable (as = bs)
  | [], []           => .isTrue rfl
  | [], _ :: _       => .isFalse (by simp)
  | _ :: _, []       => .isFalse (by simp)
  | a :: as, b :: bs => match decEq a b, decEqItems as bs with
    | .isTrue h₁, .isTrue h₂ => .isTrue (by rw [h₁, h₂])
    | .isFalse h₁, _         => .isFalse (by simp [h₁])
    | _, .isFalse h₂         => .isFalse (by simp [h₂])

def decEqFields : (as bs : List (Text × Value)) → Decidable (as = bs)
  | [], []                     => .isTrue rfl
  | [], _ :: _                 => .isFalse (by simp)
  | _ :: _, []                 => .isFalse (by simp)
  | (k, a) :: as, (l, b) :: bs => match decEq a b, decEqFields as bs with
    | .isTrue h₁, .isTrue h₂ =>
      if h : k = l then .isTrue (by rw [h, h₁, h₂]) else .isFalse (by simp [h])
    | .isFalse h₁, _         => .isFalse (by simp [h₁])
    | _, .isFalse h₂         => .isFalse (by simp [h₂])

end

instance : DecidableEq Value :=
  decEq

-- Keys stand in order, at every depth.
inductive Ordered : Value → Prop
  | null : Ordered null
  | bool {b} : Ordered (bool b)
  | int {n} : Ordered (int n)
  | float {text} : Ordered (float text)
  | str {t} : Ordered (str t)
  | arr {items} : (∀ v ∈ items, Ordered v) → Ordered (arr items)
  | obj {fields : Fields} : fields.Sorted → (∀ f ∈ fields, Ordered f.2) → Ordered (obj fields)

end Value

namespace Fields

def keys (fields : Fields) : List Text :=
  fields.map (·.1)

def get? (fields : Fields) (key : Text) : Option Value :=
  fields.lookup key

-- `fields[key] = value` for a new key.
def insert (fields : Fields) (key : Text) (value : Value) : Fields :=
  fields.orderedInsert (·.1 ≤ ·.1) (key, value)

variable {fields : Fields} {key : Text} {value : Value}

theorem mem_insert {f : Text × Value} :
    f ∈ fields.insert key value ↔ f = (key, value) ∨ f ∈ fields :=
  List.mem_orderedInsert _

theorem keys_insert : (fields.insert key value).keys.Perm (key :: fields.keys) :=
  (List.perm_orderedInsert _ (key, value) fields).map _

theorem insert_sorted (h : fields.Sorted) (hk : key ∉ fields.keys) :
    (fields.insert key value).Sorted := by
  induction fields
  case nil => exact List.pairwise_singleton ..
  case cons f rest ih =>
    have ⟨hf, hrest⟩ := List.pairwise_cons.mp h
    have ⟨hne, hk⟩ := not_or.mp (fun h' => hk (List.mem_cons.mpr h'))
    rw [insert, List.orderedInsert_cons]
    split
    case isTrue hle =>
      refine List.pairwise_cons.mpr ⟨List.forall_mem_cons.mpr ⟨?_, fun g hg => ?_⟩, h⟩
      · exact lt_of_le_of_ne hle hne
      · exact hle.trans_lt (hf g hg)
    case isFalse hle =>
      refine List.pairwise_cons.mpr ⟨fun g hg => ?_, ih hrest hk⟩
      rcases mem_insert.mp hg with rfl | hg
      · exact lt_of_not_ge hle
      · exact hf g hg

-- Sorted fields with the keys of a sorted list.
theorem keys_eq {names : List Text} (h : fields.Sorted) (hn : names.Pairwise (· < ·))
    (hk : ∀ n, n ∈ fields.keys ↔ n ∈ names) : fields.keys = names :=
  Assoc.keys_eq h hn hk

theorem get?_of_mem (h : fields.Sorted) (hm : (key, value) ∈ fields) :
    fields.get? key = some value :=
  Assoc.lookup_of_mem h hm

theorem mem_of_get? (h : fields.get? key = some value) : (key, value) ∈ fields :=
  Assoc.mem_of_lookup h

-- Fields are known by their keys and by what stands under them.
theorem ext {fields' : Fields} (h : fields.Sorted) (h' : fields'.Sorted)
    (hk : fields.keys = fields'.keys) (hg : ∀ k ∈ fields.keys, fields.get? k = fields'.get? k) :
    fields = fields' :=
  Assoc.ext h h' hk hg

theorem mem_keys_iff (h : fields.Sorted) : key ∈ fields.keys ↔ ∃ value, fields.get? key = some value := by
  constructor
  · intro hm
    obtain ⟨item, hi, rfl⟩ := List.mem_map.mp hm
    exact ⟨item.2, get?_of_mem h hi⟩
  · rintro ⟨value, hg⟩
    exact List.mem_map.mpr ⟨_, mem_of_get? hg, rfl⟩

theorem eq_of_get? {fields' : Fields} (h : fields.Sorted) (h' : fields'.Sorted)
    (hg : ∀ k, fields.get? k = fields'.get? k) : fields = fields' := by
  refine ext h h' (keys_eq h (List.pairwise_map.mpr h') fun k => ?_) (fun k _ => hg k)
  rw [mem_keys_iff h, mem_keys_iff h', hg]

variable {key' : Text}

theorem get?_insert (h : key ∉ fields.keys) : (fields.insert key value).get? key' =
    if key' = key then some value else fields.get? key' := by
  rw [Fields.insert, List.orderedInsert_eq_take_drop]
  unfold Fields.get?
  rw [List.lookup_append, List.lookup_cons]
  by_cases hk : key' = key
  case pos =>
    have hnone : (fields.takeWhile fun item => ¬key ≤ item.1).lookup key' = none := by
      refine List.lookup_eq_none_iff.mpr fun item hm => ?_
      refine bne_iff_ne.mpr fun he => h (List.mem_map.mpr ⟨item, (List.takeWhile_sublist _).mem hm, ?_⟩)
      exact he.symm.trans hk
    rw [hnone, if_pos hk, hk, beq_self_eq_true]
    rfl
  case neg =>
    rw [if_neg hk, beq_eq_false_iff_ne.mpr hk, ← List.lookup_append, List.takeWhile_append_dropWhile]

theorem get?_without : Fields.get? (fields.filter (·.1 ≠ key)) key' =
    if key' = key then none else fields.get? key' := by
  induction fields with
  | nil            => exact (ite_self _).symm
  | cons item _ ih =>
    unfold Fields.get? at ih ⊢
    rw [List.filter_cons]
    by_cases hi : item.1 = key
    case pos =>
      rw [if_neg (by simpa using hi), ih, List.lookup_cons]
      split
      case isTrue         => rfl
      case isFalse hk     => rw [beq_eq_false_iff_ne.mpr (hi ▸ hk)]
    case neg =>
      rw [if_pos (by simpa using hi), List.lookup_cons, List.lookup_cons, ih]
      split
      case h_1 hk =>
        rw [if_neg (beq_iff_eq.mp hk ▸ hi)]
      case h_2    => rfl

-- `fields[key] = value`
theorem get?_replace : Fields.get? (Fields.insert (fields.filter (·.1 ≠ key)) key value) key' =
    if key' = key then some value else fields.get? key' := by
  rw [get?_insert (by simp [Fields.keys]), get?_without]
  split <;> rfl

end Fields
