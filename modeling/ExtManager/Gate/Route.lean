import ExtManager.Gate.Runs

open Crash Prog Relation GateDb

namespace DeterministicTrafficAdapter

variable {a : DeterministicTrafficAdapter}

-- Only the gate changes the route: between its operations the environment may add and remove fault
-- points, pass the lease on and make rollbacks fail.
def SameRoute (a a' : DeterministicTrafficAdapter) : Prop :=
  a'.route = a.route

theorem route_close {n : Int} : (TrafficAdapter.close n a).2.route = a.route := by
  simp only [TrafficAdapter.close, close, hit]
  split <;> rfl

theorem route_queryRoute {v : Except Exc RouteState} {a' : DeterministicTrafficAdapter}
    (h : TrafficAdapter.queryRoute a = (v, a')) :
    a'.route = a.route ∧ ∀ r, v = .ok r → r = a.route := by
  simp only [TrafficAdapter.queryRoute, queryRoute, hit] at h
  split at h
  all_goals injection h with hv ha; subst hv ha; simp

theorem route_closeAll (a : DeterministicTrafficAdapter) :
    (TrafficAdapter.closeAll a).1 = .ok () ∧ (TrafficAdapter.closeAll a).2.route = .closed ∨
      (TrafficAdapter.closeAll a).1 ≠ .ok () ∧ (TrafficAdapter.closeAll a).2.route = a.route := by
  simp only [TrafficAdapter.closeAll, closeAll, hit]
  split
  case isTrue  => exact .inr ⟨by simp, rfl⟩
  case isFalse => exact .inl ⟨rfl, rfl⟩

theorem route_of_closeAll {a' : DeterministicTrafficAdapter}
    (h : TrafficAdapter.closeAll a = (.ok (), a')) : a'.route = .closed := by
  rcases route_closeAll a with ⟨_, he⟩ | ⟨he, _⟩
  · rw [h] at he
    exact he
  · simp [h] at he

-- What returned was no fault.
theorem not_fault_of_closeAll (h : (TrafficAdapter.closeAll a).1 = .ok ()) : "close_all" ∉ a.faults := by
  intro hf
  simp [TrafficAdapter.closeAll, closeAll, hit, hf] at h

theorem close_ok {n : Int} {a' : DeterministicTrafficAdapter}
    (h : TrafficAdapter.close n a = (.ok (), a')) : a' = a ∧ "close" ∉ a.faults := by
  simp only [TrafficAdapter.close, close, hit] at h
  split at h
  case isTrue     => cases h
  case isFalse hf =>
    cases h
    exact ⟨rfl, hf⟩

theorem queryRoute_ok {r : RouteState} {a' : DeterministicTrafficAdapter}
    (h : TrafficAdapter.queryRoute a = (.ok r, a')) : a' = a ∧ r = a.route ∧ "route.query" ∉ a.faults := by
  simp only [TrafficAdapter.queryRoute, queryRoute, hit] at h
  split at h
  case isTrue     => cases h
  case isFalse hf =>
    cases h
    exact ⟨rfl, rfl, hf⟩

theorem route_open {n now : Int} {fence : String} {snapshot : Json} {grant : LeaseGrant} :
    (TrafficAdapter.open n fence snapshot grant now a).2.route = a.route ∨
      (TrafficAdapter.open n fence snapshot grant now a).2.route = ⟨some n, fence, snapshot⟩ := by
  simp only [TrafficAdapter.open, «open», hit]
  split
  case isTrue  => exact .inl rfl
  case isFalse =>
    split
    case isTrue  => exact .inl rfl
    case isFalse =>
      split
      all_goals exact .inr rfl

-- No call changes the kind of restore.
theorem behavioralRestore_close {n : Int} :
    (TrafficAdapter.close n a).2.behavioralRestore = a.behavioralRestore := by
  simp only [TrafficAdapter.close, close, hit]
  split <;> rfl

theorem behavioralRestore_open {n now : Int} {fence : String} {snapshot : Json}
    {grant : LeaseGrant} : (TrafficAdapter.open n fence snapshot grant now a).2.behavioralRestore =
      a.behavioralRestore := by
  simp only [TrafficAdapter.open, «open», hit]
  repeat' split
  all_goals rfl

theorem behavioralRestore_closeAll :
    (TrafficAdapter.closeAll a).2.behavioralRestore = a.behavioralRestore := by
  simp only [TrafficAdapter.closeAll, closeAll, hit]
  split <;> rfl

theorem behavioralRestore_restore {n : Int} {fence : String} {snapshot : Json} :
    (TrafficAdapter.restore n fence snapshot a).2.behavioralRestore = a.behavioralRestore := by
  simp only [TrafficAdapter.restore, restore]
  split <;> rfl

theorem behavioralRestore_queryRoute {v : Except Exc RouteState} {a' : DeterministicTrafficAdapter}
    (h : TrafficAdapter.queryRoute a = (v, a')) : a'.behavioralRestore = a.behavioralRestore := by
  simp only [TrafficAdapter.queryRoute, queryRoute, hit] at h
  split at h
  all_goals injection h with _ ha; rw [← ha]

end DeterministicTrafficAdapter

namespace Gate

open DeterministicTrafficAdapter

variable [Sha256] {op : Op} {g₀ g g' : Gate DeterministicTrafficAdapter}

omit [Sha256] in
theorem Observed.route_eq {r : RouteState} (h : g.Observed r) : g.traffic.route = r := by
  rcases h.right with h | ⟨t, h⟩
  · exact h
  · have ⟨he, hr⟩ := route_queryRoute h
    rw [he, hr r rfl]

omit [Sha256] in
theorem route_restoreCall (row : GateRow) (a : DeterministicTrafficAdapter) :
    (restoreCall row a).2.route = a.route ∨
      (restoreCall row a).2.route.generation = some row.predecessorGeneration := by
  simp only [restoreCall, TrafficAdapter.restore, restore]
  split
  case isTrue  => exact .inl rfl
  case isFalse => exact .inr rfl

-- The candidate's route stands only under the fence of an open intent.
def RouteInv (g : Gate DeterministicTrafficAdapter) : Prop :=
  ∀ row, g.db.row = some row → g.traffic.route.generation = some row.candidateGeneration →
    ∃ intent ∈ g.db.openIntents, intent.fence = some g.traffic.route.fence

theorem RouteInv.commit {db : GateDb} (hi : g.RouteInv) (hc : Commit op g₀ g db) :
    (g.setDb db).RouteInv := by
  intro row' hr' hg
  cases hr : g.db.row
  case some row =>
    have ⟨row'', hr'', same, _, _, ht, _⟩ := hc.grows hr
    have he : row' = row'' := by simpa [hr''] using hr'.symm
    subst he
    have ⟨intent, hm, hf⟩ := hi row hr (same.candidateGeneration ▸ hg)
    exact ⟨intent, mem_openIntents_of_grows ht hm, hf⟩
  case none =>
    -- the candidate is staged over the predecessor's route
    have ⟨_, hn, r, ho, hgen, _⟩ := hc.staged hr hr'
    rw [setDb_traffic, ho.route_eq, hgen, Option.some.injEq] at hg
    omega

omit [Sha256] in
theorem RouteInv.congr (hi : g.RouteInv) (hd : g'.db = g.db)
    (hr : g'.traffic.route = g.traffic.route) : g'.RouteInv := by
  simpa only [RouteInv, hd, hr] using hi

theorem RouteInv.step (hi : g.RouteInv) (h : g.db.Inv) (hs : Step op g₀ g g') : g'.RouteInv := by
  cases hs
  case fault | tick | read => exact hi
  case query v _ _ hq      => cases v <;> exact hi.congr rfl (route_queryRoute hq).left
  case close               => exact hi.congr rfl route_close
  case commit hc           => exact hi.commit hc
  case restore row _ hr _ _ _ _ _ =>
    rcases route_restoreCall row g.traffic with he | he
    · exact hi.congr rfl he
    · intro row' hr' hg
      have hrow : row = row' := Option.some.inj ((h.getRow.mp hr).symm.trans hr')
      have hgen := (h.row row' hr').generation
      rw [setTraffic_traffic, he, Option.some.injEq, hrow] at hg
      omega
  case closeAll =>
    rcases route_closeAll g.traffic with ⟨_, he⟩ | ⟨_, he⟩
    · intro row' hr' hg
      rw [setTraffic_traffic, he] at hg
      contradiction
    · exact hi.congr rfl he
  case «open» row intent fence grant now hr _ hint hf =>
    rcases route_open with he | he
    · exact hi.congr rfl he
    · intro row' hr' hg
      refine ⟨intent, ?_, ?_⟩
      · rw [latest_openIntents] at hint
        exact List.mem_of_mem_head? hint
      · rw [setTraffic_traffic, he, hf]

theorem RouteInv.steps (hs : Steps op g₀ g) (hi : g₀.RouteInv) (h : g₀.db.Inv) : g.RouteInv := by
  induction hs
  case refl          => exact hi
  case tail hs hn hi => exact hi.step (Steps.inv hs h) hn

theorem reachable_routeInv (h : Reachable Initial (Next Always SameRoute) g) : g.RouteInv := by
  refine h.invariant (fun g h => ?_) fun g g' h hi hn => ?_
  · intro row hr
    rw [Initial] at h
    simp [h] at hr
  · have hinv := reachable_inv h fun _ h => h
    cases hn
    case op _ he => exact RouteInv.steps (Op.steps_of_ends hinv he) hi hinv
    case restart => exact hi
    case env hr  => exact hi.congr rfl hr

-- What is recorded of an open candidate, and the route itself, go back to the one open intent.
theorem open_route_of_reachable (h : Reachable Initial (Next Always SameRoute) g) :
    g.db.openIntents.length ≤ 1 ∧ ∀ row, g.db.row = some row →
      (row.state = .candidateOpen ∨ row.state = .draining → ∃ intent ∈ g.db.openIntents,
        row.routeGeneration = some row.candidateGeneration ∧
        intent.fence = some row.routeFence ∧
        row.observedCandidateDigest = some row.candidateDigest ∧
        ∃ digest, row.proofDigest = some digest ∧
          intent.detail.get? "proof_digest" = some (.str digest)) ∧
      (g.traffic.route.generation = some row.candidateGeneration →
        ∃ intent ∈ g.db.openIntents, intent.fence = some g.traffic.route.fence) := by
  have hinv := reachable_inv h fun _ h => h
  refine ⟨?_, fun row hr => ⟨fun hs => ?_, reachable_routeInv h row hr⟩⟩
  · cases hr : g.db.row
    case none     => simp [openIntents, hinv.empty hr]
    case some row => exact (hinv.row row hr).phase.length_le.left
  · obtain ⟨intent, proof, _, hi, _, hint, hf, _, _, hg, ho⟩ := (hinv.row row hr).phase.of_open hs
    refine ⟨intent, by simp [hi], hg, hf, ho, proof.digest, hint.proofDigest, ?_⟩
    rw [hint.detail]
    rfl

end Gate

namespace Gate.Sample

open DeterministicTrafficAdapter

theorem open_route_of_opened : ∃ row, opened.db.row = some row ∧ row.state = .candidateOpen ∧
    opened.traffic.route.generation = some row.candidateGeneration ∧
    ∃ intent ∈ opened.db.openIntents, intent.fence = some opened.traffic.route.fence := by
  have h : opened.db.row.any fun row => row.state = .candidateOpen ∧
      opened.traffic.route.generation = some row.candidateGeneration := by
    decide +kernel
  have ⟨row, hr, h⟩ := (Option.any_eq_true _ _).mp h
  have ⟨hs, hg⟩ := of_decide_eq_true h
  exact ⟨row, hr, hs, hg, ((open_route_of_reachable reachable_opened).right row hr).right hg⟩

end Gate.Sample
