import ExtManager.Gate.Route

open Crash Prog Relation GateDb

namespace Gate

open DeterministicTrafficAdapter

variable [Sha256] {op : Op} {g₀ g g' : Gate DeterministicTrafficAdapter} {row : GateRow}

-- The environment leaves alone the route and the kind of restore.
def Quiet (a a' : DeterministicTrafficAdapter) : Prop :=
  a'.route = a.route ∧ a'.behavioralRestore = a.behavioralRestore

-- A new gate over an adapter that restores snapshots as they were.
def InitialStrong (g : Gate DeterministicTrafficAdapter) : Prop :=
  g.Initial ∧ g.traffic.behavioralRestore = false

-- A gate that has ended tells the truth about the route.
def Truthful (g : Gate DeterministicTrafficAdapter) : Prop :=
  ∀ row ∈ g.db.row,
    (row.state = .failedSafe → g.traffic.route.isClosed) ∧
      (row.state = .rolledBack → isPredecessor row g.traffic.route)

-- An operation that acts on the route before it asks whether its transition is allowed is not
-- called where the gate has ended otherwise: no restore in `FAILED_SAFE` and no close in
-- `ROLLED_BACK`. There `close` closes the route if the fence on record is not the predecessor's.
-- Calls that die before they act do no harm, and neither do those whose close raises.
def Harmless (op : Op) (g : Gate DeterministicTrafficAdapter) : Prop :=
  ∀ row ∈ g.db.row, match op with
    | .rollback n _  => n = row.candidateGeneration → "rollback.after_intent" ∉ g.faults →
      (row.state = .failedSafe → g.traffic.rollbackFails) ∧
        (row.state = .rolledBack → g.traffic.rollbackFails → "close_all" ∈ g.traffic.faults)
    | .failClose n _ => n = row.candidateGeneration → "fail_close.before_effect" ∉ g.faults →
      row.state = .rolledBack → "close_all" ∈ g.traffic.faults
    | .close n       => n = row.candidateGeneration → (∀ point ∈ closePoints, point ∉ g.faults) →
      row.state = .rolledBack → row.routeFence ≠ predecessorFence row.predecessorGeneration →
        ∃ point ∈ ["close", "route.query", "close_all"], point ∈ g.traffic.faults
    | _              => True

omit [Sha256] in
theorem restoreCall_fails {a : DeterministicTrafficAdapter} (h : a.rollbackFails) :
    (restoreCall row a).2.route = a.route := by
  simp [restoreCall, TrafficAdapter.restore, restore, h]

omit [Sha256] in
theorem restoreCall_ok {a : DeterministicTrafficAdapter} (h : ¬a.rollbackFails)
    (hb : a.behavioralRestore = false) :
    ∃ r, (restoreCall row a).1 = .ok r ∧ (restoreCall row a).2.route = r ∧ isPredecessor row r := by
  simp [restoreCall, TrafficAdapter.restore, restore, h, hb, isPredecessor]

omit [Sha256] in
theorem restoreCall_route {a a' : DeterministicTrafficAdapter} {r : RouteState}
    (h : restoreCall row a = (.ok r, a')) : a'.route = r := by
  simp only [restoreCall, TrafficAdapter.restore, restore] at h
  split at h
  case isTrue  => simp at h
  case isFalse =>
    injection h with hr ha
    injection hr with hr
    rw [← ha, ← hr]

theorem UncheckedClose.route {r : RouteState} (h : UncheckedClose g₀ r g.traffic) :
    g.traffic.route = .closed := by
  have ⟨_, _, _, _, _, t₁, _, _, _, hc, hq⟩ := h
  rw [(route_queryRoute hq).left, route_of_closeAll hc]

-- What a verdict says of the route.
theorem Verdict.route {operation : GateOperation} {s : GateState}
    (hv : Verdict op g₀ g row operation s) (hb : g.traffic.behavioralRestore = false) :
    (s = .failedSafe → g.traffic.route.isClosed) ∧
      (s = .rolledBack → isPredecessor row g.traffic.route) := by
  cases hv
  case restored ho hp       => exact ⟨by simp, fun _ => ho.route_eq ▸ hp⟩
  case rolledBack hr hp     =>
    refine ⟨by simp, fun _ => ?_⟩
    rw [restoreCall_route hr]
    exact hp.resolve_right fun h => by simp [TrafficAdapter.behavioralRestore, hb] at h
  case failedSafe ho hc     => exact ⟨fun _ => ho.route_eq ▸ hc, by simp⟩
  case unchecked hu _       => exact ⟨fun _ => by rw [hu.route]; rfl, by simp⟩
  case safetyUnknown        => exact ⟨by simp, by simp⟩

omit [Sha256] in
theorem isPredecessor_same {row' : GateRow} {r : RouteState} (h : Same row row') :
    isPredecessor row' r = isPredecessor row r := by
  simp [isPredecessor, h.predecessorGeneration, h.predecessor]

theorem Truthful.commit {db : GateDb} (ht : g.Truthful)
    (hb : g.traffic.behavioralRestore = false) (hc : Commit op g₀ g db) :
    (g.setDb db).Truthful := by
  intro row' hr'
  by_cases hs : row'.state = .rolledBack ∨ row'.state = .failedSafe
  case neg => simp_all
  case pos =>
    have ⟨row, hr, same, hv⟩ := hc.entered hr' hs
    rw [isPredecessor_same same]
    rcases hv with he | ⟨_, hv⟩
    · exact he ▸ ht row hr
    · exact hv.route hb

omit [Sha256] in
theorem Truthful.congr (ht : g.Truthful) (hd : g'.db = g.db)
    (hr : g'.traffic.route = g.traffic.route) : g'.Truthful := by
  simpa only [Truthful, hd, hr] using ht

-- An operation that finds the gate in a state and has not left it yet knows the row it found.
theorem row_of_undecided (hs : Steps op g₀ g) (h : g₀.db.Inv) (hu : Undecided g₀ g)
    (hr : g.db.row = some row) (ho : row.state ≠ .opening) :
    ∃ row₀, g₀.db.row = some row₀ ∧ row₀.state = row.state ∧ Same row₀ row := by
  have hst : g₀.state? = some row.state := by
    rcases hu with hu | hu
    · rw [← hu, state?, hr, Option.map_some]
    · rw [state?, hr, Option.map_some, Option.some.injEq] at hu
      contradiction
  obtain ⟨row₀, hr₀, he⟩ := Option.map_eq_some_iff.mp hst
  obtain ⟨row', hr', same⟩ := Steps.same hs h hr₀
  have hrow : row' = row := Option.some.inj (hr'.symm.trans hr)
  exact ⟨row₀, hr₀, he, hrow ▸ same⟩

-- In `ROLLED_BACK` a harmless operation has no cause for a close that succeeds.
theorem Truthful.not_rolledBack (ht : g.Truthful) (hh : Harmless op g₀) (h₀ : g₀.db.Inv)
    (hb : g₀.traffic.behavioralRestore = false) (hs : Steps op g₀ g) (hu : Undecided g₀ g)
    (hr : g.db.row = some row) (hc : CloseCause op g₀ g row)
    (hok : (TrafficAdapter.closeAll g.traffic).1 = .ok ()) : row.state ≠ .rolledBack := by
  intro hst
  have h := Steps.inv hs h₀
  have hclose := not_fault_of_closeAll hok
  obtain ⟨row₀, hr₀, hst₀, same⟩ := row_of_undecided hs h₀ hu hr (by simp [hst])
  have hh := hh row₀ hr₀
  cases hc
  case failClose he _ hf htr =>
    subst he
    exact hclose (htr ▸ hh same.candidateGeneration hf (hst₀.trans hst))
  case close r t he hk _ hq hm hf hcl =>
    subst he
    obtain ⟨rfl, hcf⟩ := close_ok hcl
    obtain ⟨htr, rfl, hqf⟩ := queryRoute_ok hq
    have hp := (ht row hr).right hst
    have hrow : row₀ = row := Option.some.inj ((hr₀.symm.trans hk.symm).trans hr)
    subst hrow
    have hd := (h.row row₀ hr).predecessorDigest
    by_cases hfence : row₀.routeFence = predecessorFence row₀.predecessorGeneration
    case pos => simp_all [isPredecessor, predecessorMismatch]
    case neg =>
      obtain ⟨point, hpoint, hfault⟩ := hh rfl hf hst hfence
      simp only [List.mem_cons, List.not_mem_nil, or_false] at hpoint
      rcases hpoint with rfl | rfl | rfl
      · exact hcf hfault
      · exact hqf hfault
      · exact hclose (htr ▸ hfault)
  case observe hbefore _ _ => simp [hst, GateState.beforeOpen] at hbefore
  case opening ho          => simp [hst] at ho
  case rollback v he _ hv hl hf =>
    subst he
    have hh := (hh same.candidateGeneration hf).right (hst₀.trans hst)
    by_cases hfails : g₀.traffic.rollbackFails
    case pos =>
      refine hclose ?_
      rw [show g.traffic = (restoreCall row g₀.traffic).2 from congrArg Prod.snd hv.symm]
      simpa [restoreCall, TrafficAdapter.restore, restore, hfails] using hh hfails
    case neg =>
      obtain ⟨r, hr, _, hp⟩ := @restoreCall_ok row g₀.traffic hfails hb
      exact hl r (by rw [← hr, hv]) hp
  case recovery hp =>
    have := (h.row row hr).recovery hp
    simp [hst] at this

theorem Step.behavioralRestore (hs : Step op g₀ g g') :
    g'.traffic.behavioralRestore = g.traffic.behavioralRestore := by
  cases hs
  case query v _ _ hq => cases v <;> exact behavioralRestore_queryRoute hq
  case close          => exact behavioralRestore_close
  case «open»         => exact behavioralRestore_open
  case closeAll       => exact behavioralRestore_closeAll
  case restore        => exact behavioralRestore_restore
  all_goals rfl

theorem Truthful.step (ht : g.Truthful) (hh : Harmless op g₀) (h₀ : g₀.db.Inv)
    (hb₀ : g₀.traffic.behavioralRestore = false) (hb : g.traffic.behavioralRestore = false)
    (hs : Steps op g₀ g) (hn : Step op g₀ g g') : g'.Truthful := by
  have h := Steps.inv hs h₀
  cases hn
  case fault | tick | read => exact ht
  case query v _ _ hq      => cases v <;> exact ht.congr rfl (route_queryRoute hq).left
  case close               => exact ht.congr rfl route_close
  case commit hc           => exact ht.commit hb hc
  case «open» row _ _ _ _ hr hst _ _ =>
    intro row' hr'
    have hrow : row = row' := Option.some.inj ((h.getRow.mp hr).symm.trans hr')
    simp [← hrow, hst]
  case closeAll row hr hu hc =>
    rcases route_closeAll g.traffic with ⟨hok, he⟩ | ⟨_, he⟩
    · intro row' hr'
      have hr := h.getRow.mp hr
      have hrow : row = row' := Option.some.inj (hr.symm.trans hr')
      subst hrow
      refine ⟨fun _ => by rw [setTraffic_traffic, he]; rfl, fun hst => ?_⟩
      exact absurd hst (ht.not_rolledBack hh h₀ hb₀ hs hu hr hc hok)
    · exact ht.congr rfl he
  case restore row oracle hr hst he ha htr hf =>
    by_cases hfails : g.traffic.rollbackFails
    case pos => exact ht.congr rfl (restoreCall_fails hfails)
    case neg =>
      intro row' hr'
      have hr := h.getRow.mp hr
      have hrow : row = row' := Option.some.inj (hr.symm.trans hr')
      subst hrow
      have ⟨r, _, hroute, hp⟩ := @restoreCall_ok row g.traffic hfails hb
      refine ⟨fun hfs => ?_, fun _ => by rw [setTraffic_traffic, hroute]; exact hp⟩
      have ⟨row₀, hr₀, hst₀, same⟩ := row_of_undecided hs h₀ (.inl hst) hr (by simp [hfs])
      have hh := hh row₀ hr₀
      subst he
      exact absurd (htr ▸ (hh same.candidateGeneration hf).left (hst₀.trans hfs)) hfails

theorem Truthful.steps (hs : Steps op g₀ g) (ht : g₀.Truthful) (hh : Harmless op g₀)
    (h : g₀.db.Inv) (hb : g₀.traffic.behavioralRestore = false) :
    g.Truthful ∧ g.traffic.behavioralRestore = false := by
  induction hs
  case refl          => exact ⟨ht, hb⟩
  case tail hs hn ih =>
    exact ⟨ih.left.step hh h hb ih.right hs hn,
      hn.behavioralRestore.trans ih.right⟩

-- In every run of harmless calls a gate that has ended tells the truth about the route.
theorem truthful_of_reachable (h : Reachable InitialStrong (Next Harmless Quiet) g) :
    g.Truthful := by
  let I (g : Gate DeterministicTrafficAdapter) := g.Truthful ∧ g.traffic.behavioralRestore = false
  suffices hi : I g from hi.left
  refine h.invariant (fun g hi => ⟨?_, hi.right⟩) fun g g' h ⟨ht, hb⟩ hn => ?_
  · intro row hr
    have hd := hi.left
    rw [Initial] at hd
    simp [hd] at hr
  · have hinv := reachable_inv h fun _ h => h.left
    cases hn
    case op hh he => exact Truthful.steps (Op.steps_of_ends hinv he) ht hh hinv hb
    case restart  => exact ⟨ht, hb⟩
    case env hr   => exact ⟨ht.congr rfl hr.left, hr.right.trans hb⟩

end Gate

namespace Gate.Sample

def failed : Gate DeterministicTrafficAdapter :=
  (Op.failClose 2 "drill").after staged

-- The rollback is rejected, but it has restored the predecessor's route by then.
def reopened : Gate DeterministicTrafficAdapter :=
  (Op.rollback 2 none).after failed

theorem truthful_of_failed : failed.state? = some .failedSafe ∧ failed.Truthful := by
  have hs : Reachable InitialStrong (Next Harmless Quiet) staged :=
    .step (.init ⟨initial_created, rfl⟩) (.op _ (fun _ _ => trivial) Op.after_mem)
  have hh : Harmless (.failClose 2 "drill") staged := by
    intro row hr _ _ hst
    have : staged.state? = some .candidateStaged := by decide +kernel
    simp_all [state?]
  exact ⟨by decide +kernel, truthful_of_reachable (.step hs (.op _ hh Op.after_mem))⟩

theorem not_truthful_of_reopened : Reachable InitialStrong (Next Always Quiet) reopened ∧
    reopened.state? = some .failedSafe ∧ reopened.traffic.route = ⟨some 1, "fence-1", predecessor⟩ ∧
    ¬reopened.Truthful := by
  have hr : Reachable InitialStrong (Next Always Quiet) reopened :=
    .step (.step (.step (.init ⟨initial_created, rfl⟩) (.op _ trivial Op.after_mem))
      (.op _ trivial Op.after_mem)) (.op _ trivial Op.after_mem)
  have ⟨hs, hroute, hc⟩ : reopened.state? = some .failedSafe ∧
      reopened.traffic.route = ⟨some 1, "fence-1", predecessor⟩ ∧
      reopened.traffic.route.isClosed = false := by
    decide +kernel
  refine ⟨hr, hs, hroute, fun ht => ?_⟩
  have ⟨row, hrow, hst⟩ := Option.map_eq_some_iff.mp hs
  exact absurd ((ht row hrow).left hst) (by simp [hc])

end Gate.Sample
