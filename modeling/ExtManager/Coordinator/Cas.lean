import ExtManager.Coordinator.Runs
import Mathlib.Data.List.Pairwise

open Crash Prog Relation

namespace Store

variable {s s' : Store} {n : Int}

-- The commits took the generations one after the other, each plan the one that it was made for.
structure CasInv (n : Int) (s : Store) : Prop where
  count : s.generation = n + s.journal.countP (·.isCommit)
  below : ∀ r ∈ s.journal, r.isCommit → ∀ a, s.activation r.planId = some a →
    a.plan.predecessor.generation < s.generation
  order : (s.journal.filter (·.isCommit)).Pairwise fun r r' => ∀ a a',
    s.activation r.planId = some a → s.activation r'.planId = some a' →
      a'.plan.predecessor.generation < a.plan.predecessor.generation

theorem Changed.cas {planId : String} {a b : Activation} {rows : List JournalRow}
    (hc : Changed planId a b rows s s') (h : s.CasInv n) : s'.CasInv n := by
  -- the plans of the rows that were there are what they were
  have hold : (s.journal.filter (·.isCommit)).Pairwise fun r r' => ∀ a a',
      s'.activation r.planId = some a → s'.activation r'.planId = some a' →
        a'.plan.predecessor.generation < a.plan.predecessor.generation := by
    refine h.order.imp fun hlt a a' ha ha' => ?_
    have ⟨a₀, ha₀, hp⟩ := hc.activation ha
    have ⟨a₀', ha₀', hp'⟩ := hc.activation ha'
    exact hp ▸ hp' ▸ hlt a₀ a₀' ha₀ ha₀'
  have hbelow : ∀ r ∈ s.journal, r.isCommit → ∀ a, s'.activation r.planId = some a →
      a.plan.predecessor.generation < s.generation := by
    intro r hm hk a ha
    have ⟨a₀, ha₀, hp⟩ := hc.activation ha
    exact hp ▸ h.below r hm hk a₀ ha₀
  rcases hc.generation with ⟨hr, hg⟩ | ⟨r, r', hrows, hk, hk', hp, hg⟩
  case inl =>
    have hnone : rows.filter (·.isCommit) = [] := by simpa using hr
    refine ⟨?_, fun r hm hk a ha => ?_, ?_⟩
    · have hz : rows.countP (·.isCommit) = 0 := by simpa [List.countP_eq_zero] using hr
      rw [hg, hc.journal, List.countP_append, hz, h.count]
      simp
    · rw [hc.journal, List.mem_append] at hm
      rcases hm with hm | hm
      · simp [hr r hm] at hk
      · exact hg ▸ hbelow r hm hk a ha
    · rw [hc.journal, List.filter_append, hnone]
      exact hold
  case inr =>
    subst hrows
    have hj : s'.journal = r :: r' :: s.journal := hc.journal
    have ha' {a'} (ha' : s'.activation r.planId = some a') :
        a'.plan.predecessor.generation = s.generation := by
      have hid : r.planId = planId := hc.about r (by simp)
      simp only [hc.after, hid, if_true, Option.some.injEq] at ha'
      rw [← ha', hc.plan, hp]
    refine ⟨?_, fun r₁ hm hk₁ a₁ ha₁ => ?_, ?_⟩
    · have hn : s'.journal.countP (·.isCommit) = s.journal.countP (·.isCommit) + 1 := by
        simp [hj, hk, hk']
      rw [hg, hn, h.count]
      push_cast
      omega
    · rw [hj, List.mem_cons, List.mem_cons] at hm
      rcases hm with he | he | hm
      · subst he
        have := ha' ha₁
        omega
      · simp [he, hk'] at hk₁
      · have := hbelow r₁ hm hk₁ a₁ ha₁
        omega
    · rw [hj, List.filter_cons_of_pos hk, List.filter_cons_of_neg (by simp [hk'])]
      refine List.pairwise_cons.mpr ⟨fun r₁ hm a₁ a₁' ha₁ ha₁' => ?_, hold⟩
      have ⟨hm, hk₁⟩ := List.mem_filter.mp hm
      exact ha' ha₁ ▸ hbelow r₁ hm hk₁ a₁' ha₁'

theorem CasInv.insert [Sha256] {plan : Plan} (h : s.CasInv n) (hi : s.Inv)
    (hs : s.insert plan = .ok s') : s'.CasInv n := by
  have ⟨hn, he⟩ := insert_ok_iff.mp hs
  -- no row is about the new plan
  have hact {r} (hm : r ∈ s.journal) : s'.activation r.planId = s.activation r.planId := by
    have hne : r.planId ≠ plan.planId := by
      intro hid
      have := hi.journal r hm
      simp [hid, hn] at this
    simp [he, log, setActivation, hne]
  have hj : s'.journal = ⟨plan.planId, .transition, "plan", .obj [("state", .str "Planned")]⟩ ::
      s.journal := by rw [he]; rfl
  have hg : s'.generation = s.generation := by rw [he]; rfl
  refine ⟨?_, fun r hm hk a ha => ?_, ?_⟩
  · rw [hg, hj, List.countP_cons_of_neg (by simp [JournalRow.isCommit]), h.count]
  · rw [hj, List.mem_cons] at hm
    rcases hm with he | hm
    · simp [he, JournalRow.isCommit] at hk
    · exact hg ▸ h.below r hm hk a (hact hm ▸ ha)
  · rw [hj, List.filter_cons_of_neg (by simp [JournalRow.isCommit])]
    refine h.order.imp_of_mem fun hm hm' hlt a a' ha ha' => ?_
    have hm := (List.mem_filter.mp hm).left
    have hm' := (List.mem_filter.mp hm').left
    exact hlt a a' (hact hm ▸ ha) (hact hm' ▸ ha')

theorem casInv_new : CasInv n { Store.new with generation := n } :=
  ⟨by simp [Store.new], fun _ hm => (nomatch hm), List.Pairwise.nil⟩

-- No two plans have committed over the same generation.
theorem CasInv.distinct {r r' : JournalRow} {a a' : Activation} (h : s.CasInv n)
    (hm : r ∈ s.journal) (hk : r.isCommit) (hm' : r' ∈ s.journal) (hk' : r'.isCommit)
    (hne : r.planId ≠ r'.planId) (ha : s.activation r.planId = some a)
    (ha' : s.activation r'.planId = some a') :
    a.plan.predecessor.generation ≠ a'.plan.predecessor.generation := by
  let R (r r' : JournalRow) := ∀ a a', s.activation r.planId = some a →
    s.activation r'.planId = some a' →
      a.plan.predecessor.generation ≠ a'.plan.predecessor.generation
  have : Std.Symm R := ⟨fun r r' h a a' ha ha' => (h a' a ha' ha).symm⟩
  have hpair : (s.journal.filter (·.isCommit)).Pairwise R :=
    h.order.imp fun h a a' ha ha' => (h a a' ha ha').ne'
  exact hpair.forall (List.mem_filter.mpr ⟨hm, hk⟩) (List.mem_filter.mpr ⟨hm', hk'⟩)
    (fun he => hne (by rw [he])) a a' ha ha'

end Store

namespace Coordinator

variable [Sha256] {τ π : Type} [TrafficAdapter τ] [TrafficGate π] {w : World τ π} {n : Int}
variable {may : Call → Op → World τ π → Prop} {env : Traffic τ π → Traffic τ π → Prop}

omit [TrafficGate π] in
theorem Commit.casInv {c : Call} {op : Op} {w₀ : World τ π} {s : Store}
    (hc : Commit c op w₀ w s) (h₀ : w₀.store.Inv) (hi : w.store.Inv) (h : w.store.CasInv n) :
    s = w₀.store ∨ s.CasInv n := by
  cases hc.effect
  case insert hs _ _ => exact .inr (h.insert hi hs)
  case change hc _   => exact .inr (hc.cas h)
  case delete hs he  => exact .inl (he.trans (Store.delete_insert h₀ hs))

theorem reachable_cas (h : Reachable (Initial n) (Next may env) w) : w.store.CasInv n :=
  (run_store_invariant h Store.casInv_new (fun _ _ h => ⟨h.count, h.below, h.order⟩)
    fun _ _ _ _ _ _ h₀ hi h hc => hc.casInv h₀ hi h).right

-- Whatever coordinators do with whatever plans, the generation counts the commits, no two plans
-- commit over the same generation, and no plan commits twice.
theorem generation_agreement (h : Reachable (Initial n) (Next Always Anything) w) :
    w.store.generation = n + w.store.journal.countP (·.isCommit) ∧
      (∀ r ∈ w.store.journal, r.isCommit → ∀ r' ∈ w.store.journal, r'.isCommit →
        r.planId ≠ r'.planId →
        ∃ a a', w.store.activation r.planId = some a ∧ w.store.activation r'.planId = some a' ∧
          a.plan.predecessor.generation ≠ a'.plan.predecessor.generation) ∧
      ((w.store.journal.filter (·.isCommit)).map (·.planId)).Nodup := by
  have hcas := reachable_cas h
  have hact {r} (hm : r ∈ w.store.journal) : ∃ a, w.store.activation r.planId = some a :=
    Option.isSome_iff_exists.mp ((reachable_inv h).journal r hm)
  refine ⟨hcas.count, fun r hm hk r' hm' hk' hne => ?_, ?_⟩
  · have ⟨a, ha⟩ := hact hm
    have ⟨a', ha'⟩ := hact hm'
    exact ⟨a, a', ha, ha', hcas.distinct hm hk hm' hk' hne ha ha'⟩
  · refine List.pairwise_map.mpr (hcas.order.imp_of_mem fun hm _ h he => ?_)
    have ⟨a, ha⟩ := hact (List.mem_filter.mp hm).left
    exact (h a a ha (he ▸ ha)).ne rfl

end Coordinator

namespace Coordinator.Sample

theorem generation_of_committed :
    (committed []).store.journal.countP (·.isCommit) = 1 ∧ (committed []).store.generation = 1 := by
  have hc : (committed []).store.journal.countP (·.isCommit) = 1 := by decide +kernel
  refine ⟨hc, ?_⟩
  rw [(generation_agreement reachable_committed).left, hc]
  rfl

end Coordinator.Sample
