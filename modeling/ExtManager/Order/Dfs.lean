import Mathlib.Data.List.Nodup
import Mathlib.Data.List.Perm.Subperm
import Mathlib.Logic.Relation
import ExtManager.Codec.Fallible

-- A depth-first search that refuses cycles.
namespace Dfs

variable {κ : Type} [DecidableEq κ]

inductive Failure (κ : Type)
  | cycle (path : List κ)
  | fuel
  deriving DecidableEq

-- What has been visited is kept with the last one first.
def visit (edges : κ → List κ) : Nat → List κ → List κ → κ → Except (Failure κ) (List κ)
  | 0, _, _, _                  => .error .fuel
  | n + 1, visiting, visited, x =>
    if x ∈ visiting then .error (.cycle (visiting.dropWhile (· ≠ x) ++ [x]))
    else if x ∈ visited then .ok visited
    else do
      let visited ← (edges x).foldlM (visit edges n (visiting ++ [x])) visited
      .ok (x :: visited)

def visitAll (edges : κ → List κ) (keys : List κ) : Except (Failure κ) (List κ) :=
  keys.foldlM (visit edges (keys.length + 1) []) []

def Edge (edges : κ → List κ) (x y : κ) : Prop :=
  y ∈ edges x

-- Every edge leads to what comes later.
inductive Topological (edges : κ → List κ) : List κ → Prop
  | nil : Topological edges []
  | cons {x l} : x ∉ l → edges x ⊆ l → Topological edges l → Topological edges (x :: l)

variable {edges : κ → List κ} {keys l visiting visited visited' : List κ} {x y : κ} {n : Nat}

section Topological

omit [DecidableEq κ]

theorem Topological.closed (h : Topological edges l) (hx : x ∈ l)
    (hxy : Relation.ReflTransGen (Edge edges) x y) : y ∈ l := by
  induction h generalizing x with
  | nil => cases hx
  | @cons z l hz he _ ih =>
    rcases List.mem_cons.mp hx with rfl | hx
    · rcases Relation.ReflTransGen.cases_head hxy with rfl | ⟨w, hw, hwy⟩
      · exact List.mem_cons_self
      · exact List.mem_cons_of_mem _ (ih (he hw) hwy)
    · exact List.mem_cons_of_mem _ (ih hx hxy)

theorem Topological.acyclic (h : Topological edges l) (hx : x ∈ l) :
    ¬Relation.TransGen (Edge edges) x x := by
  induction h with
  | nil => cases hx
  | cons hz he ht ih =>
    rcases List.mem_cons.mp hx with rfl | hx
    · intro hc
      have ⟨w, hw, hwx⟩ := Relation.TransGen.head'_iff.mp hc
      exact hz (ht.closed (he hw) hwx)
    · exact ih hx

end Topological

-- What has been visited grows, not by what is being visited.
structure Grown (edges : κ → List κ) (visiting visited visited' : List κ) : Prop where
  topological : Topological edges visited'
  subset      : visited ⊆ visited'
  fresh       : ∀ y ∈ visited', y ∈ visited ∨ y ∉ visiting

omit [DecidableEq κ] in
theorem Grown.trans {v₁ v₂ v₃ : List κ} (h : Grown edges visiting v₁ v₂)
    (h' : Grown edges visiting v₂ v₃) : Grown edges visiting v₁ v₃ where
  topological := h'.topological
  subset      := List.Subset.trans h.subset h'.subset
  fresh y hy  := (h'.fresh y hy).elim (h.fresh y) .inr

omit [DecidableEq κ] in
theorem grown_foldlM {f : List κ → κ → Except (Failure κ) (List κ)}
    (hf : ∀ v v' y, Topological edges v → f v y = .ok v' → Grown edges visiting v v' ∧ y ∈ v')
    (ht : Topological edges visited) (h : l.foldlM f visited = .ok visited') :
    Grown edges visiting visited visited' ∧ l ⊆ visited' := by
  induction l generalizing visited with
  | nil =>
    cases h
    exact ⟨⟨ht, fun _ => id, fun _ => .inl⟩, List.nil_subset _⟩
  | cons y l ih =>
    have ⟨v, hv, h⟩ := Fallible.bind_ok.mp h
    have ⟨hg, hy⟩ := hf visited v y ht hv
    have ⟨hg', hl⟩ := ih hg.topological h
    exact ⟨hg.trans hg', List.cons_subset.mpr ⟨hg'.subset hy, hl⟩⟩

theorem visit_ok (ht : Topological edges visited)
    (h : visit edges n visiting visited x = .ok visited') :
    Grown edges visiting visited visited' ∧ x ∈ visited' := by
  induction n generalizing visiting visited visited' x with
  | zero => cases h
  | succ n ih =>
    rw [visit] at h
    split at h
    case isTrue => cases h
    split at h
    case isTrue hx =>
      cases h
      exact ⟨⟨ht, fun _ => id, fun _ => .inl⟩, hx⟩
    case isFalse hx =>
      have ⟨v, hv, h⟩ := Fallible.bind_ok.mp h
      cases h
      have ⟨hg, hl⟩ := grown_foldlM (fun _ _ _ => ih) ht hv
      have hnew : x ∉ v := fun hm => (hg.fresh x hm).elim hx (· (by simp))
      refine ⟨⟨.cons hnew hl hg.topological, fun y hy => List.mem_cons_of_mem _ (hg.subset hy),
        List.forall_mem_cons.mpr ⟨.inr ‹_›, fun y hy => ?_⟩⟩, List.mem_cons_self⟩
      exact (hg.fresh y hy).imp_right fun hn hm => hn (List.mem_append_left _ hm)

theorem visitAll_ok {order : List κ} (h : visitAll edges keys = .ok order) :
    Topological edges order ∧ keys ⊆ order :=
  have ⟨hg, hk⟩ := grown_foldlM (fun _ _ _ => visit_ok) .nil h
  ⟨hg.topological, hk⟩

omit [DecidableEq κ] in
theorem foldlM_total {f : List κ → κ → Except (Failure κ) (List κ)}
    (hf : ∀ v, ∀ y ∈ l, ∃ v', f v y = .ok v') : ∃ v', l.foldlM f visited = .ok v' := by
  induction l generalizing visited with
  | nil => exact ⟨visited, rfl⟩
  | cons y l ih =>
    have ⟨hy, hl⟩ := List.forall_mem_cons.mp (fun y hy v => hf v y hy)
    have ⟨v, hv⟩ := hy visited
    have ⟨v', hv'⟩ : ∃ v', l.foldlM f v = .ok v' := ih fun v y hy => hl y hy v
    exact ⟨v', Fallible.bind_ok.mpr ⟨v, hv, hv'⟩⟩

-- What is being visited is not repeated, so that the search comes to its end.
theorem visit_fuel (hk : ∀ x, edges x ≠ [] → x ∈ keys) (hd : visiting.Nodup) (hv : visiting ⊆ keys)
    (hn : keys.length + 1 ≤ n + visiting.length) :
    Fallible.Raises (· ≠ .fuel) (visit edges n visiting visited x) := by
  induction n generalizing visiting visited x with
  | zero =>
    have hlen := (List.subperm_of_subset hd hv).length_le
    omega
  | succ n ih =>
    rw [visit]
    split
    case isTrue     => exact .error nofun
    case isFalse hx =>
      split
      case isTrue  => exact .ok
      case isFalse =>
        refine .bind (.foldlM fun v y hy => ih ?_ ?_ ?_) fun _ _ => .ok
        · exact List.nodup_append_comm.mp (List.nodup_cons.mpr ⟨hx, hd⟩)
        · exact List.append_subset.mpr
            ⟨hv, List.cons_subset.mpr ⟨hk x (List.ne_nil_of_mem hy), List.nil_subset _⟩⟩
        · rw [List.length_append, List.length_singleton]
          omega

theorem visitAll_fuel (hk : ∀ x, edges x ≠ [] → x ∈ keys) :
    Fallible.Raises (· ≠ .fuel) (visitAll edges keys) :=
  .foldlM fun _ _ _ => visit_fuel hk .nil (List.nil_subset _) (Nat.le_refl _)

-- Each of what is being visited leads to what is visited next. There are as many of them as there
-- are keys at most, so that the fuel suffices.
theorem visit_total (hk : ∀ x, edges x ≠ [] → x ∈ keys)
    (ha : ∀ x, ¬Relation.TransGen (Edge edges) x x)
    (hp : (visiting ++ [x]).Pairwise (Relation.TransGen (Edge edges))) (hv : visiting ⊆ keys)
    (hn : keys.length + 1 ≤ n + visiting.length) :
    ∃ visited', visit edges n visiting visited x = .ok visited' := by
  induction n generalizing visiting visited x with
  | zero =>
    have hnodup : visiting.Nodup := by
      refine (List.pairwise_append.mp hp).left.imp fun {y z} h he => ?_
      exact ha y (he ▸ h)
    have hlen := (List.subperm_of_subset hnodup hv).length_le
    omega
  | succ n ih =>
    rw [visit]
    split
    case isTrue hx =>
      exact absurd ((List.pairwise_append.mp hp).right.right x hx x (List.mem_singleton_self x)) (ha x)
    split
    case isTrue => exact ⟨_, rfl⟩
    case isFalse =>
      have hedges : ∀ v, ∀ y ∈ edges x, ∃ v', visit edges n (visiting ++ [x]) v y = .ok v' := by
        intro v y hy
        refine ih ?_ ?_ (by rw [List.length_append, List.length_singleton]; omega)
        · refine List.pairwise_append.mpr ⟨hp, List.pairwise_singleton .., fun z hz w hw => ?_⟩
          cases List.mem_singleton.mp hw
          rcases List.mem_append.mp hz with hz | hz
          · exact ((List.pairwise_append.mp hp).right.right z hz x (List.mem_singleton_self x)).tail hy
          · cases List.mem_singleton.mp hz
            exact .single hy
        · refine List.append_subset.mpr ⟨hv, List.cons_subset.mpr ⟨hk x ?_, List.nil_subset _⟩⟩
          exact List.ne_nil_of_mem hy
      have ⟨v', h⟩ : ∃ v', (edges x).foldlM (visit edges n (visiting ++ [x])) visited = .ok v' :=
        foldlM_total hedges
      exact ⟨x :: v', Fallible.bind_ok.mpr ⟨v', h, rfl⟩⟩

-- The search succeeds iff there is no cycle.
theorem visitAll_iff (hk : ∀ x, edges x ≠ [] → x ∈ keys) :
    (∃ order, visitAll edges keys = .ok order) ↔
      ∀ x ∈ keys, ¬Relation.TransGen (Edge edges) x x := by
  constructor
  · intro ⟨order, h⟩ x hx
    have ⟨ht, hkeys⟩ := visitAll_ok h
    exact ht.acyclic (hkeys hx)
  · intro ha
    have ha (x : κ) : ¬Relation.TransGen (Edge edges) x x := by
      intro hc
      have ⟨w, hw, _⟩ := Relation.TransGen.head'_iff.mp hc
      exact ha x (hk x (List.ne_nil_of_mem hw)) hc
    exact foldlM_total fun v y _ =>
      visit_total hk ha (List.pairwise_singleton ..) (List.nil_subset _) (Nat.le_refl _)

end Dfs
