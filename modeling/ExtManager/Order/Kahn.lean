import Mathlib.Data.Finset.Card
import Mathlib.Data.List.Sort
import Mathlib.Data.Finset.Sort
import Mathlib.Data.List.Lex
import Mathlib.Data.Fintype.Sets
import Mathlib.Order.WellFounded
import Mathlib.Order.RelClasses

-- A topological order that takes the least of the nodes that are ready. `required x` is what a node
-- stands after.
namespace Kahn

variable {κ : Type} [LinearOrder κ]

structure State (κ : Type) where
  indegree : κ → Int
  ready : List κ
  ordered : List κ

-- `heappop`.
def pop (ready : List κ) : Option (κ × List κ) :=
  ready.min?.map fun x => (x, ready.erase x)

def dependents (required : κ → Finset κ) (ids : List κ) (x : κ) : List κ :=
  (ids.filter (x ∈ required ·)).insertionSort (· ≤ ·)

-- A node that has one node less to wait for.
def release (st : State κ) (x : κ) : State κ :=
  let indegree := Function.update st.indegree x (st.indegree x - 1)
  { st with indegree := indegree, ready := if indegree x = 0 then x :: st.ready else st.ready }

-- As many rounds as there are nodes are enough (`order_ready`).
def run (required : κ → Finset κ) (ids : List κ) : Nat → State κ → State κ
  | 0,        st => st
  | fuel + 1, st => match pop st.ready with
    | none            => st
    | some (x, ready) => run required ids fuel <|
      (dependents required ids x).foldl release { st with ready := ready, ordered := st.ordered ++ [x] }

def start (required : κ → Finset κ) (ids : List κ) : State κ where
  indegree x := (required x).card
  ready      := ids.filter fun x => ((required x).card : Int) = 0
  ordered    := []

def order (required : κ → Finset κ) (ids : List κ) : State κ :=
  run required ids ids.length (start required ids)

variable {required : κ → Finset κ} {ids : List κ} {st : State κ} {x : κ}

theorem release_foldl {ds : List κ} (hn : ds.Nodup) :
    (∀ y, (ds.foldl release st).indegree y = if y ∈ ds then st.indegree y - 1 else st.indegree y) ∧
    (ds.foldl release st).ready.Perm (ds.filter (fun y => st.indegree y - 1 = 0) ++ st.ready) ∧
    (ds.foldl release st).ordered = st.ordered := by
  induction ds generalizing st with
  | nil => simp
  | cons d ds ih =>
    have ⟨hd, hn⟩ := List.nodup_cons.mp hn
    have ⟨hi, hr, ho⟩ := @ih (release st d) hn
    refine ⟨fun y => ?_, ?_, ho⟩
    · rw [List.foldl_cons, hi y]
      by_cases hy : y = d
      case pos => simp [release, hy, hd]
      case neg => simp [release, hy]
    · have hf : ds.filter (fun y => (release st d).indegree y - 1 = 0) =
          ds.filter (fun y => st.indegree y - 1 = 0) := by
        refine List.filter_congr fun y hy => ?_
        have hne : y ≠ d := fun he => hd (he ▸ hy)
        simp [release, hne]
      rw [hf] at hr
      refine hr.trans ?_
      by_cases h0 : st.indegree d - 1 = 0
      case pos => simp [release, h0, List.perm_middle]
      case neg => simp [release, h0]

-- What holds between two rounds: a node is ready or ordered when it waits for nothing.
structure Inv (required : κ → Finset κ) (ids : List κ) (st : State κ) : Prop where
  nodup : (st.ordered ++ st.ready).Nodup
  subset : ∀ x ∈ st.ordered ++ st.ready, x ∈ ids
  indegree : ∀ x ∈ ids, st.indegree x = (required x \ st.ordered.toFinset).card
  waits : ∀ x ∈ ids, x ∈ st.ordered ++ st.ready ↔ required x ⊆ st.ordered.toFinset
  after : ∀ l₁ x l₂, st.ordered = l₁ ++ x :: l₂ → required x ⊆ l₁.toFinset

theorem Inv.start (hn : ids.Nodup) : Inv required ids (start required ids) where
  nodup := by simpa [Kahn.start] using hn.filter _
  subset := by simp +contextual [Kahn.start]
  indegree := by simp [Kahn.start]
  waits := by simp +contextual [Kahn.start, Finset.subset_empty]
  after := by simp [Kahn.start]

theorem mem_dependents {y : κ} : y ∈ dependents required ids x ↔ y ∈ ids ∧ x ∈ required y := by
  simp [dependents]

theorem Inv.round {ready : List κ} (h : Inv required ids st) (hn : ids.Nodup)
    (hp : pop st.ready = some (x, ready)) :
    Inv required ids
      ((dependents required ids x).foldl release { st with ready := ready, ordered := st.ordered ++ [x] }) := by
  obtain ⟨hx, rfl⟩ : x ∈ st.ready ∧ ready = st.ready.erase x := by
    simp only [pop, Option.map_eq_some_iff, Prod.mk.injEq] at hp
    obtain ⟨y, hy, rfl, rfl⟩ := hp
    exact ⟨List.min?_mem hy, rfl⟩
  have hds : (dependents required ids x).Nodup :=
    (List.perm_insertionSort _ _).nodup_iff.mpr (hn.filter _)
  obtain ⟨hno, hnr, hdis⟩ := List.nodup_append.mp h.nodup
  have hxo : x ∉ st.ordered := fun ho => hdis x ho x hx rfl
  obtain ⟨hi, hr, ho⟩ := @release_foldl _ _
    { st with ready := st.ready.erase x, ordered := st.ordered ++ [x] } _ hds
  set st' := (dependents required ids x).foldl release
    { st with ready := st.ready.erase x, ordered := st.ordered ++ [x] }
  have hi (y : κ) : st'.indegree y =
      if y ∈ dependents required ids x then st.indegree y - 1 else st.indegree y := hi y
  -- A node that waits for `x` is not ready, and has one node less to wait for from now on.
  have hcard (y : κ) (hy : y ∈ ids) : st'.indegree y = (required y \ st'.ordered.toFinset).card := by
    have hset : required y \ st'.ordered.toFinset = (required y \ st.ordered.toFinset).erase x := by
      ext z
      simp only [ho, List.toFinset_append, Finset.mem_sdiff, Finset.mem_union, List.mem_toFinset,
        List.mem_singleton, Finset.mem_erase]
      tauto
    rw [hi y, hset, h.indegree y hy]
    by_cases hd : x ∈ required y
    case pos =>
      have hm : x ∈ required y \ st.ordered.toFinset := by simp [hd, hxo]
      have hc := Finset.card_pos.mpr ⟨x, hm⟩
      rw [if_pos (mem_dependents.mpr ⟨hy, hd⟩), Finset.card_erase_of_mem hm]
      omega
    case neg =>
      rw [if_neg fun h => hd (mem_dependents.mp h).right, Finset.erase_eq_of_notMem (by simp [hd])]
  have hmem (y : κ) : y ∈ st'.ordered ++ st'.ready ↔ y ∈ st.ordered ++ st.ready ∨
      (y ∈ dependents required ids x ∧ st.indegree y - 1 = 0) := by
    have hr := hr.mem_iff (a := y)
    simp only [List.mem_append, List.mem_filter, decide_eq_true_eq] at hr
    simp only [ho, List.mem_append, List.mem_singleton, hr]
    have he : y ∈ st.ready.erase x ↔ y ≠ x ∧ y ∈ st.ready := hnr.mem_erase_iff
    rw [he]
    by_cases hy : y = x
    case pos => simp [hy, hx]
    case neg => simp [hy]; tauto
  have hnew (y : κ) (hy : y ∈ ids) : (y ∈ dependents required ids x ∧ st.indegree y - 1 = 0) ↔
      x ∈ required y ∧ required y ⊆ st'.ordered.toFinset := by
    have hc := hcard y hy
    have hi := hi y
    constructor
    · rintro ⟨hd, h0⟩
      refine ⟨(mem_dependents.mp hd).right, Finset.sdiff_eq_empty_iff_subset.mp ?_⟩
      rw [if_pos hd] at hi
      exact Finset.card_eq_zero.mp (by omega)
    · rintro ⟨hd, hs⟩
      have hd := mem_dependents.mpr ⟨hy, hd⟩
      refine ⟨hd, ?_⟩
      rw [if_pos hd] at hi
      rw [Finset.sdiff_eq_empty_iff_subset.mpr hs, Finset.card_empty] at hc
      omega
  refine ⟨?_, fun y hy => ?_, hcard, fun y hy => ?_, ?_⟩
  · rw [ho]
    set new := (dependents required ids x).filter fun y => st.indegree y - 1 = 0 with hnew'
    have hnot (y : κ) (hy : y ∈ new) : y ∉ st.ordered ++ st.ready := by
      obtain ⟨hd, h0⟩ := List.mem_filter.mp hy
      obtain ⟨hyi, hxy⟩ := mem_dependents.mp hd
      exact fun hm => hxo <| List.mem_toFinset.mp <| (h.waits y hyi).mp hm hxy
    have hp : (st.ordered ++ [x] ++ st'.ready).Perm (new ++ (st.ordered ++ st.ready)) := calc
      (st.ordered ++ [x] ++ st'.ready).Perm (st.ordered ++ [x] ++ (new ++ st.ready.erase x)) :=
        hr.append_left _
      List.Perm _ (new ++ (st.ordered ++ [x] ++ st.ready.erase x)) := by
        rw [← List.append_assoc, ← List.append_assoc new]
        exact List.perm_append_comm.append_right _
      List.Perm _ (new ++ (st.ordered ++ st.ready)) := by
        rw [List.append_assoc st.ordered]
        exact ((List.perm_cons_erase hx).symm.append_left _).append_left _
    refine hp.nodup_iff.mpr <| List.nodup_append.mpr ⟨hds.filter _, h.nodup, fun y hy z hz he => ?_⟩
    exact hnot y hy (he ▸ hz)
  · rcases (hmem y).mp hy with hy | hy
    · exact h.subset y hy
    · exact (mem_dependents.mp hy.left).left
  · rw [hmem, hnew y hy, h.waits y hy]
    have hs : st'.ordered.toFinset = insert x st.ordered.toFinset := by
      ext z
      simp [ho]
    constructor
    · rintro (hs' | hs')
      · exact hs'.trans (hs ▸ Finset.subset_insert ..)
      · exact hs'.right
    · intro hs'
      by_cases hd : x ∈ required y
      case pos => exact .inr ⟨hd, hs'⟩
      case neg => exact .inl <| (Finset.subset_insert_iff_of_notMem hd).mp (hs ▸ hs')
  · intro l₁ y l₂ he
    rcases List.eq_nil_or_concat l₂ with rfl | ⟨l₂, z, rfl⟩
    · obtain ⟨rfl, hy⟩ := List.append_inj' (ho.symm.trans he) rfl
      cases hy
      exact (h.waits x (h.subset x <| List.mem_append_right _ hx)).mp <| List.mem_append_right _ hx
    · have he : st.ordered ++ [x] = (l₁ ++ y :: l₂) ++ [z] := by simpa using ho.symm.trans he
      exact h.after l₁ y l₂ (List.append_inj' he rfl).left

theorem Inv.run (h : Inv required ids st) (hn : ids.Nodup) (fuel : Nat) :
    Inv required ids (run required ids fuel st) := by
  induction fuel generalizing st with
  | zero         => exact h
  | succ fuel ih =>
    unfold Kahn.run
    split
    case h_1    => exact h
    case h_2 hp => exact ih (h.round hn hp)

-- A round orders one more node, or there is no node left that is ready.
theorem run_ready (h : Inv required ids st) (hn : ids.Nodup) {fuel : Nat}
    (hf : ids.length ≤ st.ordered.length + fuel) : (run required ids fuel st).ready = [] := by
  induction fuel generalizing st with
  | zero         =>
    have hs : (st.ordered ++ st.ready).length ≤ ids.length := h.nodup.length_le_of_subset h.subset
    rw [List.length_append] at hs
    exact List.length_eq_zero_iff.mp (by unfold Kahn.run; omega)
  | succ fuel ih =>
    unfold Kahn.run
    split
    case h_1 hp              => simpa [pop] using hp
    case h_2 x ready hp      =>
      refine ih (h.round hn hp) ?_
      have hds : (dependents required ids x).Nodup :=
        (List.perm_insertionSort _ _).nodup_iff.mpr (hn.filter _)
      rw [(release_foldl hds).right.right]
      simp only [List.length_append, List.length_singleton]
      omega

section Order

theorem order_inv (hn : ids.Nodup) : Inv required ids (order required ids) :=
  (Inv.start hn).run hn _

theorem order_ready (hn : ids.Nodup) : (order required ids).ready = [] :=
  run_ready (.start hn) hn (by simp)

theorem order_nodup (hn : ids.Nodup) : (order required ids).ordered.Nodup :=
  (List.nodup_append.mp (order_inv hn).nodup).left

theorem order_subset (hn : ids.Nodup) : (order required ids).ordered ⊆ ids :=
  fun x hx => (order_inv hn).subset x <| List.mem_append_left _ hx

-- A node is ordered when all that it stands after is.
theorem mem_order (hn : ids.Nodup) (hx : x ∈ ids) :
    x ∈ (order required ids).ordered ↔ ∀ y ∈ required x, y ∈ (order required ids).ordered := by
  have hinv : Inv required ids (order required ids) := order_inv hn
  have h := hinv.waits x hx
  rw [order_ready hn, List.append_nil] at h
  rw [h, Finset.subset_iff]
  simp only [List.mem_toFinset]

-- All nodes are ordered when they do not stand in a circle.
theorem order_perm (hn : ids.Nodup) (hr : ∀ x ∈ ids, ∀ y ∈ required x, y ∈ ids)
    (ha : ∀ x, ¬Relation.TransGen (fun x y => x ∈ ids ∧ y ∈ required x) x x) :
    (order required ids).ordered.Perm ids := by
  refine (List.perm_ext_iff_of_nodup (order_nodup hn) hn).mpr fun x => ⟨@order_subset _ _ _ _ hn x, ?_⟩
  intro hx
  -- Among the nodes that are left there is one that waits for none of the others.
  let left := {y : {y // y ∈ ids} // y.1 ∉ (order required ids).ordered}
  by_contra hno
  let waits (a b : left) : Prop := Relation.TransGen (fun x y => x ∈ ids ∧ y ∈ required x) b.1.1 a.1.1
  have : IsTrans left waits := ⟨fun _ _ _ h h' => h'.trans h⟩
  have : Std.Irrefl waits := ⟨fun a h => ha _ h⟩
  have hw : WellFounded waits := Finite.wellFounded_of_trans_of_irrefl _
  obtain ⟨m, -, hm⟩ := hw.has_min Set.univ ⟨⟨⟨x, hx⟩, hno⟩, trivial⟩
  refine m.2 <| (mem_order hn m.1.2).mpr fun y hy => ?_
  by_contra hyo
  exact hm ⟨⟨y, hr _ m.1.2 y hy⟩, hyo⟩ trivial <| .single ⟨m.1.2, hy⟩

-- What a node stands after comes before it.
theorem order_after (hn : ids.Nodup) {l₁ l₂ : List κ}
    (h : (order required ids).ordered = l₁ ++ x :: l₂) : ∀ y ∈ required x, y ∈ l₁ :=
  fun _ hy => List.mem_toFinset.mp <| (order_inv hn).after l₁ x l₂ h hy

-- An order in which every node stands after what it requires.
def Respects (required : κ → Finset κ) (l : List κ) : Prop :=
  ∀ l₁ x l₂, l = l₁ ++ x :: l₂ → ∀ y ∈ required x, y ∈ l₁

theorem respects_iff {l : List κ} (hn : l.Nodup) :
    Respects required l ↔ ∀ x ∈ l, ∀ y ∈ required x, l.idxOf y < l.idxOf x := by
  have hindex {l₁ l₂ : List κ} {x : κ} (hn : (l₁ ++ x :: l₂).Nodup) :
      (l₁ ++ x :: l₂).idxOf x = l₁.length := by
    have hx : x ∉ l₁ := fun hx =>
      (List.nodup_append.mp hn).right.right x hx x (List.mem_cons_self ..) rfl
    rw [List.idxOf_append_of_notMem hx, List.idxOf_cons_self, Nat.add_zero]
  constructor
  · intro h x hx y hy
    obtain ⟨l₁, l₂, rfl⟩ := List.append_of_mem hx
    have hy := h l₁ x l₂ rfl y hy
    rw [hindex hn, List.idxOf_append_of_mem hy]
    exact List.idxOf_lt_length_of_mem hy
  · rintro h l₁ x l₂ rfl y hy
    have hlt := h x (by simp) y hy
    rw [hindex hn] at hlt
    by_contra hno
    rw [List.idxOf_append_of_notMem hno] at hlt
    omega

theorem order_respects (hn : ids.Nodup) : Respects required (order required ids).ordered :=
  fun _ _ _ h => order_after hn h

-- All nodes are ordered iff there are as many.
theorem order_complete (hn : ids.Nodup) :
    (order required ids).ordered.length = ids.length ↔ (order required ids).ordered.Perm ids :=
  ⟨fun h => (List.subperm_of_subset (order_nodup hn) (order_subset hn)).perm_of_length_le h.ge,
    fun h => h.length_eq⟩

-- Where all nodes are ordered, none of them stands in a circle.
theorem acyclic_of_perm (hn : ids.Nodup) (hp : (order required ids).ordered.Perm ids) :
    ∀ x, ¬Relation.TransGen (fun x y => x ∈ ids ∧ y ∈ required x) x x := by
  have hres : Respects required (order required ids).ordered := order_respects hn
  have hlt := (respects_iff (order_nodup hn)).mp hres
  have hdown {x y : κ} (h : Relation.TransGen (fun x y => x ∈ ids ∧ y ∈ required x) x y) :
      (order required ids).ordered.idxOf y < (order required ids).ordered.idxOf x := by
    induction h with
    | single h     => exact hlt _ (hp.mem_iff.mpr h.left) _ h.right
    | tail _ h ih  => exact (hlt _ (hp.mem_iff.mpr h.left) _ h.right).trans ih
  exact fun _ hx => lt_irrefl _ (hdown hx)

end Order

section Least

variable {l : List κ}

-- Where the lists differ first, the first one has the lesser node.
def Before (l l' : List κ) : Prop :=
  ∃ l₁ x y l₂ l₃, l = l₁ ++ x :: l₂ ∧ l' = l₁ ++ y :: l₃ ∧ x < y

theorem Before.lt {l l' : List κ} (h : Before l l') : l < l' := by
  obtain ⟨l₁, x, y, l₂, l₃, rfl, rfl, hxy⟩ := h
  induction l₁ with
  | nil          => exact List.cons_lt_cons_iff.mpr (.inl hxy)
  | cons z l₁ ih => exact List.cons_lt_cons_iff.mpr (.inr ⟨rfl, ih⟩)

-- What has been ordered so far is the beginning of any other order, or comes before it.
def Leads (l l' : List κ) : Prop :=
  l <+: l' ∨ Before l l'

-- The nodes that another order may go on with are ready, and the least of them is taken.
theorem Inv.leads {ready : List κ} (h : Inv required ids st) (hl : l.Perm ids) (hn : ids.Nodup)
    (hr : Respects required l) (hp : pop st.ready = some (x, ready)) (hs : Leads st.ordered l) :
    Leads (st.ordered ++ [x]) l := by
  obtain ⟨hx, hmin⟩ : x ∈ st.ready ∧ ∀ y ∈ st.ready, x ≤ y := by
    simp only [pop, Option.map_eq_some_iff, Prod.mk.injEq] at hp
    obtain ⟨y, hy, rfl, -⟩ := hp
    exact List.min?_eq_some_iff.mp hy
  rcases hs with ⟨rest, rfl⟩ | ⟨l₁, a, b, l₂, l₃, ha, hb, hlt⟩
  · have hxo : x ∉ st.ordered := fun ho =>
      (List.nodup_append.mp h.nodup).right.right x ho x hx rfl
    have hxl : x ∈ st.ordered ++ rest := hl.mem_iff.mpr (h.subset x (List.mem_append_right _ hx))
    match rest with
    | []        => exact absurd (by simpa using hxl) hxo
    | y :: rest =>
      have hy : y ∈ st.ready := by
        have hyi : y ∈ ids := hl.mem_iff.mp (by simp)
        have hyo : y ∉ st.ordered := fun ho =>
          (List.nodup_append.mp (hl.nodup_iff.mpr hn)).right.right y ho y (List.mem_cons_self ..) rfl
        have hm := (h.waits y hyi).mpr fun z hz => List.mem_toFinset.mpr (hr _ y rest rfl z hz)
        exact (List.mem_append.mp hm).resolve_left hyo
      rcases (hmin y hy).eq_or_lt with rfl | hlt
      · exact .inl ⟨rest, by simp⟩
      · exact .inr ⟨st.ordered, x, y, [], rest, rfl, rfl, hlt⟩
  · exact .inr ⟨l₁, a, b, l₂ ++ [x], l₃, by simp [ha], hb, hlt⟩

theorem Inv.run_leads (h : Inv required ids st) (hl : l.Perm ids) (hn : ids.Nodup)
    (hr : Respects required l) (hs : Leads st.ordered l) (fuel : Nat) :
    Leads (Kahn.run required ids fuel st).ordered l := by
  induction fuel generalizing st with
  | zero         => exact hs
  | succ fuel ih =>
    unfold Kahn.run
    split
    case h_1           => exact hs
    case h_2 x ready hp =>
      refine ih (h.round hn hp) ?_
      have hds : (dependents required ids x).Nodup :=
        (List.perm_insertionSort _ _).nodup_iff.mpr (hn.filter _)
      rw [(release_foldl hds).right.right]
      exact h.leads hl hn hr hp hs

-- Of all orders that respect what is required, this one is the least.
theorem order_least (hn : ids.Nodup) (hl : l.Perm ids) (hr : Respects required l)
    (hp : (order required ids).ordered.Perm ids) : (order required ids).ordered ≤ l := by
  have hinv : Inv required ids (start required ids) := .start hn
  rcases hinv.run_leads hl hn hr (.inl (List.nil_prefix ..)) ids.length with h | h
  · exact (h.eq_of_length (hp.trans hl.symm).length_eq).le
  · exact h.lt.le

end Least

end Kahn
