import Mathlib.Data.List.Nodup

-- Dictionaries, in the order in which their keys were first set.
structure Dict (κ β : Type) where
  items : List (κ × β)
  nodup : (items.map (·.1)).Nodup

namespace Dict

variable {κ β : Type} [DecidableEq κ]

def empty : Dict κ β :=
  ⟨[], .nil⟩

def keys (d : Dict κ β) : List κ :=
  d.items.map (·.1)

def values (d : Dict κ β) : List β :=
  d.items.map (·.2)

def getItem (k : κ) : List (κ × β) → Option β
  | []      => none
  | x :: xs => if x.1 = k then some x.2 else getItem k xs

def get? (d : Dict κ β) (k : κ) : Option β :=
  getItem k d.items

def setItem (k : κ) (v : β) : List (κ × β) → List (κ × β)
  | []      => [(k, v)]
  | x :: xs => if x.1 = k then (k, v) :: xs else x :: setItem k v xs

theorem mem_keys_setItem {k k' : κ} {v : β} {l : List (κ × β)} :
    k' ∈ (setItem k v l).map (·.1) ↔ k' = k ∨ k' ∈ l.map (·.1) := by
  induction l
  case nil => simp [setItem]
  case cons x xs ih =>
    unfold setItem
    split
    case isTrue h  => simp [h]
    case isFalse h =>
      simp only [List.map_cons, List.mem_cons, ih]
      tauto

theorem nodup_setItem {k : κ} {v : β} {l : List (κ × β)} (h : (l.map (·.1)).Nodup) :
    ((setItem k v l).map (·.1)).Nodup := by
  induction l
  case nil => simp [setItem]
  case cons x xs ih =>
    have ⟨hx, hxs⟩ := List.nodup_cons.mp h
    unfold setItem
    split
    case isTrue hk  => exact List.nodup_cons.mpr ⟨hk ▸ hx, hxs⟩
    case isFalse hk =>
      refine List.nodup_cons.mpr ⟨fun hm => ?_, ih hxs⟩
      rcases mem_keys_setItem.mp hm with h | h
      · exact hk h
      · exact hx h

def set (d : Dict κ β) (k : κ) (v : β) : Dict κ β :=
  ⟨setItem k v d.items, nodup_setItem d.nodup⟩

-- `dict(items)`: what comes later replaces what came before.
def ofList (l : List (κ × β)) : Dict κ β :=
  l.foldl (fun d x => d.set x.1 x.2) empty

-- `pop(k, None)`
def erase (d : Dict κ β) (k : κ) : Dict κ β :=
  ⟨d.items.filter (·.1 ≠ k), d.nodup.sublist (List.filter_sublist.map _)⟩

def update (d d' : Dict κ β) : Dict κ β :=
  d'.items.foldl (fun d x => d.set x.1 x.2) d

variable {d : Dict κ β} {k k' : κ} {v : β}

theorem mem_items_iff : (k, v) ∈ d.items ↔ d.get? k = some v := by
  obtain ⟨l, hn⟩ := d
  unfold get?
  dsimp only
  induction l
  case nil => simp [getItem]
  case cons x xs ih =>
    have ⟨hx, hxs⟩ := List.nodup_cons.mp hn
    unfold getItem
    split
    case isTrue hk  =>
      have hv : (k, v) ∉ xs := fun hm => hx (List.mem_map.mpr ⟨_, hm, hk.symm⟩)
      simp [hv, Prod.ext_iff, hk, eq_comm]
    case isFalse hk => simp [Prod.ext_iff, Ne.symm hk, ih hxs]

theorem mem_keys_iff : k ∈ d.keys ↔ ∃ v, d.get? k = some v := by
  unfold keys
  simp only [← mem_items_iff, List.mem_map, Prod.exists, exists_and_right, exists_eq_right]

@[simp]
theorem get?_empty : (empty : Dict κ β).get? k = none :=
  rfl

@[simp]
theorem get?_set : (d.set k v).get? k' = if k' = k then some v else d.get? k' := by
  obtain ⟨l, hn⟩ := d
  unfold get? set
  dsimp only
  clear hn
  induction l
  case nil => simp [setItem, getItem, eq_comm]
  case cons x xs ih =>
    unfold setItem
    split
    case isTrue hx  => by_cases hk : k' = k <;> simp [getItem, hx, hk, Ne.symm]
    case isFalse hx =>
      simp only [getItem, ih]
      split
      case isTrue hk  => rw [if_neg (hk ▸ hx)]
      case isFalse    => rfl

theorem get?_foldl_set_eq_none {l : List (κ × β)} : (l.foldl (fun d x => d.set x.1 x.2) d).get? k = none ↔
    d.get? k = none ∧ k ∉ l.map (·.1) := by
  induction l generalizing d
  case nil => simp
  case cons x xs ih =>
    rw [List.foldl_cons, ih, get?_set, List.map_cons, List.mem_cons, not_or]
    by_cases hk : k = x.1
    case pos => simp [hk]
    case neg => simp [hk]

theorem get?_ofList_eq_none {l : List (κ × β)} : (ofList l).get? k = none ↔ k ∉ l.map (·.1) :=
  get?_foldl_set_eq_none.trans (and_iff_right rfl)

theorem mem_of_get?_foldl_set {l : List (κ × β)}
    (h : (l.foldl (fun d x => d.set x.1 x.2) d).get? k = some v) : (k, v) ∈ l ∨ d.get? k = some v := by
  induction l generalizing d
  case nil          => exact .inr h
  case cons x xs ih =>
    rcases ih h with hm | hd
    · exact .inl (List.mem_cons_of_mem _ hm)
    · rw [get?_set] at hd
      split at hd
      case isTrue hk  =>
        cases hd
        exact .inl (hk ▸ List.mem_cons_self)
      case isFalse    => exact .inr hd

theorem mem_of_get?_ofList {l : List (κ × β)} (h : (ofList l).get? k = some v) : (k, v) ∈ l :=
  (mem_of_get?_foldl_set h).resolve_right nofun

theorem setItem_new {l : List (κ × β)} (h : k ∉ l.map (·.1)) : setItem k v l = l ++ [(k, v)] := by
  induction l
  case nil => rfl
  case cons x xs ih =>
    rw [List.map_cons, List.mem_cons, not_or] at h
    rw [setItem, if_neg (Ne.symm h.left), ih h.right]
    rfl

theorem items_foldl_set {l : List (κ × β)} (h : (d.items ++ l |>.map (·.1)).Nodup) :
    (l.foldl (fun d x => d.set x.1 x.2) d).items = d.items ++ l := by
  induction l generalizing d
  case nil => simp
  case cons x xs ih =>
    have hx : x.1 ∉ d.items.map (·.1) := by
      rw [List.map_append, List.nodup_append] at h
      exact fun hm => h.right.right x.1 hm x.1 List.mem_cons_self rfl
    have hset : (d.set x.1 x.2).items = d.items ++ [x] := setItem_new hx
    rw [List.foldl_cons, ih, hset, List.append_assoc, List.singleton_append]
    rwa [hset, List.append_assoc]

-- Without repeated keys the items stay as they are.
theorem items_ofList {l : List (κ × β)} (h : (l.map (·.1)).Nodup) : (ofList l).items = l :=
  items_foldl_set h

theorem mem_items_erase {x : κ × β} : x ∈ (d.erase k).items ↔ x ∈ d.items ∧ x.1 ≠ k := by
  simp [erase]

-- Dictionaries with the same items have the same under each key.
theorem get?_of_perm {d' : Dict κ β} (h : d.items.Perm d'.items) : d.get? k = d'.get? k := by
  refine Option.ext fun v => ?_
  rw [← mem_items_iff, ← mem_items_iff]
  exact h.mem_iff

end Dict
