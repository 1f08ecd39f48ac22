import ExtManager.Experiment.Explore

-- What a run of the transaction model has done when it admits a request.
namespace TransactionModel

open TransactionModel.State

-- What happens as long as nothing is to be opened, and what happens behind the candidate route.

def unexposed : List Action :=
  [.stage, .observeComplete, .closeCandidate, .admitRequest, .loseLease, .renewLease]

def exposed : List Action :=
  [.openReceipt, .admitRequest, .startDrain, .finishDrain, .crash, .reconcile]

-- The proof was completed under the lease that is still held.
def Proven (w : List Action) : Prop :=
  ∃ u v, w = u ++ .observeComplete :: v ∧ .stage ∈ u ∧ .loseLease ∉ v ∧ .renewLease ∉ v

structure Ready (w : List Action) : Prop where
  unexposed : w ⊆ TransactionModel.unexposed
  closed    : .closeCandidate ∈ w
  proven    : Proven w

def Receipted (v : List Action) : Prop :=
  .openReceipt ∈ v ∨ .reconcile ∈ v

variable {s t : State} {a : Action} {u v w : List Action}

theorem Proven.snoc (h : Proven w) (hl : a ≠ .loseLease) (hr : a ≠ .renewLease) :
    Proven (w ++ [a]) := by
  obtain ⟨u, v, rfl, hs, hnl, hnr⟩ := h
  exact ⟨u, v ++ [a], by simp, hs, by simp [hnl, hl.symm], by simp [hnr, hr.symm]⟩

theorem proven_observed (h : .stage ∈ w) : Proven (w ++ [.observeComplete]) :=
  ⟨w, [], rfl, h, List.not_mem_nil, List.not_mem_nil⟩

theorem Receipted.snoc (h : Receipted v) : Receipted (v ++ [a]) :=
  h.imp (List.mem_append_left _) (List.mem_append_left _)

theorem unleased_phase (h : s.unleased.phase ≠ .safetyUnknown) : s.unleased.phase = s.phase := by
  rw [State.unleased] at h ⊢
  split at h
  · exact absurd rfl h
  · simp [*]

theorem unleased_route : s.unleased.route ≠ .candidate := by
  rw [State.unleased]
  split
  · simp
  · assumption

theorem unleased_leaseValid : s.unleased.leaseValid = false := by
  rw [State.unleased]
  split <;> rfl

theorem reconciled_cases : s.reconciled.phase = .safetyUnknown ∧ s.reconciled.route = s.route ∧
      s.route = .unknown ∨
    s.reconciled.phase = .candidateOpen ∧ s.reconciled.route = s.route ∧ s.route = .candidate ∨
    s.reconciled.phase = .failedSafe ∧ s.reconciled.route = .closed := by
  rw [State.reconciled]
  split
  · exact .inl ⟨rfl, rfl, ‹_›⟩
  split
  case isTrue hc => exact .inr (.inl ⟨rfl, rfl, hc.1⟩)
  case isFalse   => exact .inr (.inr ⟨rfl, rfl⟩)

theorem reconciled_notMem : s.reconciled.phase ∉ Phase.preExposure := by
  rcases reconciled_cases (s := s) with hc | hc | hc <;> rw [hc.1] <;> decide

-- Where a step leads back to.
section Origins

theorem origin_preExposure (ht : s.transition a = .ok t) (h : t.phase ∈ Phase.preExposure) :
    s.phase ∈ Phase.preExposure ∧ a ∈ unexposed ∧ (t.phase = s.phase ∨
      a = .stage ∧ t.phase = .candidateStaged ∨
      a = .closeCandidate ∧ s.phase = .candidateStaged ∧ t.phase = .candidateClosed) := by
  cases a <;> simp only [State.transition, goes_ok] at ht <;> obtain ⟨hp, rfl⟩ := ht
  case loseLease =>
    have he : s.unleased.phase = s.phase := unleased_phase fun he => absurd (he ▸ h) (by decide)
    exact ⟨he ▸ h, by decide, .inl he⟩
  case reconcile => exact absurd h reconciled_notMem
  all_goals
    simp_all [Phase.preExposure, Phase.observable, State.opened, State.failedSafe, unexposed]

theorem observable_subset : Phase.observable ⊆ Phase.preExposure := by
  decide

theorem origin_proven (ht : s.transition a = .ok t) (h : t.phase ∈ Phase.preExposure)
    (hp : t.proofComplete) (hl : t.leaseValid) : s.phase ∈ Phase.observable ∧ a = .observeComplete ∨
      s.proofComplete ∧ s.leaseValid ∧ a ≠ .loseLease ∧ a ≠ .renewLease := by
  cases a <;> simp only [State.transition, goes_ok] at ht <;> obtain ⟨hp, rfl⟩ := ht
  case loseLease => simp [unleased_leaseValid] at hl
  case reconcile => exact absurd h reconciled_notMem
  all_goals simp_all [State.opened, State.failedSafe]

theorem origin_opening (ht : s.transition a = .ok t) (h : t.phase = .opening)
    (hr : t.route = .predecessor) (hl : t.leaseValid) :
    a = .openIntent ∧ s.phase = .candidateClosed ∧ s.proofComplete ∧ s.leaseValid := by
  cases a <;> simp only [State.transition, goes_ok] at ht <;> obtain ⟨hp, rfl⟩ := ht
  case loseLease => simp [unleased_leaseValid] at hl
  case reconcile =>
    rcases reconciled_cases (s := s) with hc | hc | hc <;> simp [hc.1] at h
  all_goals simp_all [Phase.preExposure, Phase.observable, State.opened, State.failedSafe, canAdmit]

theorem State.Sound.unreceipted (h : s.Sound) (hp : s.phase = .opening) : s.openReceipt = false := by
  simp only [Sound, hp] at h
  exact h.2.2.2.1

theorem State.Sound.phase_of_candidate (h : s.Sound) (hr : s.route = .candidate) :
    s.phase ∉ Phase.preExposure := by
  intro hp
  simp only [Phase.preExposure, List.mem_cons, List.not_mem_nil, or_false] at hp
  rcases hp with hp | hp | hp <;> simp_all [Sound]

theorem origin_candidate (hs : s.Sound) (ht : s.transition a = .ok t) (hr : t.route = .candidate) :
    a = .openEffect ∧ s.phase = .opening ∧ s.route = .predecessor ∧ s.leaseValid ∧
        t.openReceipt = s.openReceipt ∨
      a ∈ exposed ∧ s.route = .candidate ∧
        (t.openReceipt → s.openReceipt ∨ a = .openReceipt ∨ a = .reconcile) := by
  cases a <;> simp only [State.transition, goes_ok] at ht <;> obtain ⟨hp, rfl⟩ := ht
  case loseLease => exact absurd hr unleased_route
  case reconcile =>
    rcases reconciled_cases (s := s) with hc | hc | hc <;> simp_all [exposed]
  all_goals
    have hpre := hs.phase_of_candidate
    simp_all [Phase.preExposure, Phase.observable, State.opened, State.failedSafe, exposed]

end Origins

-- How the actions of a run stand to the state that it leads to.
structure Told (w : List Action) (s : State) : Prop where
  unexposed : s.phase ∈ Phase.preExposure → w ⊆ TransactionModel.unexposed
  staged    : s.phase ∈ Phase.observable → .stage ∈ w
  closed    : s.phase = .candidateClosed → .closeCandidate ∈ w
  proven    : s.phase ∈ Phase.preExposure → s.proofComplete → s.leaseValid → Proven w
  opening   : s.phase = .opening → s.route = .predecessor → s.leaseValid →
    ∃ u, Ready u ∧ w = u ++ [.openIntent]
  candidate : s.route = .candidate → ∃ u v, Ready u ∧ w = u ++ .openIntent :: .openEffect :: v ∧
    v ⊆ exposed ∧ (s.openReceipt → Receipted v)

theorem told_initialState : Told [] initialState := by
  constructor <;> simp [initialState, Phase.observable]

theorem Told.transition (h : Told w s) (hs : s.Sound) (ht : s.transition a = .ok t) :
    Told (w ++ [a]) t where
  unexposed hp := by
    obtain ⟨hp, ha, -⟩ := origin_preExposure ht hp
    exact List.append_subset.mpr ⟨h.unexposed hp, by simpa using ha⟩
  staged hp := by
    rcases (origin_preExposure ht (observable_subset hp)).2.2 with he | ⟨rfl, -⟩ | ⟨-, hs, -⟩
    · exact List.mem_append_left _ (h.staged (he ▸ hp))
    · simp
    · exact List.mem_append_left _ (h.staged (by simp [hs, Phase.observable]))
  closed hp := by
    have hpre : t.phase ∈ Phase.preExposure := by simp [hp, Phase.preExposure]
    rcases (origin_preExposure ht hpre).2.2 with he | ⟨-, hc⟩ | ⟨rfl, -⟩
    · exact List.mem_append_left _ (h.closed (he ▸ hp))
    · simp [hp] at hc
    · simp
  proven hp hc hl := by
    rcases origin_proven ht hp hc hl with ⟨hp, rfl⟩ | ⟨hc, hl, hnl, hnr⟩
    · exact proven_observed (h.staged hp)
    · exact (h.proven (origin_preExposure ht hp).1 hc hl).snoc hnl hnr
  opening hp hr hl := by
    obtain ⟨rfl, hp, hc, hl⟩ := origin_opening ht hp hr hl
    have hpre : s.phase ∈ Phase.preExposure := by simp [hp, Phase.preExposure]
    exact ⟨w, ⟨h.unexposed hpre, h.closed hp, h.proven hpre hc hl⟩, rfl⟩
  candidate hr := by
    rcases origin_candidate hs ht hr with ⟨rfl, hp, hr, hl, hn⟩ | ⟨ha, hr, hor⟩
    · obtain ⟨u, hu, rfl⟩ := h.opening hp hr hl
      have hn : t.openReceipt = false := hn.trans (hs.unreceipted hp)
      exact ⟨u, [], hu, by simp, List.nil_subset _, by simp [hn]⟩
    · obtain ⟨u, v, hu, rfl, hv, hc⟩ := h.candidate hr
      refine ⟨u, v ++ [a], hu, by simp, List.append_subset.mpr ⟨hv, by simpa using ha⟩, ?_⟩
      intro ht
      rcases hor ht with hs | rfl | rfl
      · exact (hc hs).snoc
      · exact .inl (by simp)
      · exact .inr (by simp)

theorem run_told (h : run initialState w = .ok s) : Told w s := by
  induction w using List.reverseRecOn generalizing s with
  | nil =>
    cases h
    exact told_initialState
  | append_singleton w a ih =>
    obtain ⟨u, hu, ha⟩ := run_snoc.mp h
    exact (ih hu).transition (sound_run sound_initialState hu) ha

-- A request is admitted on the predecessor route before anything was opened, or else on the
-- candidate route behind a proof, an intent and a receipt which nothing has revoked.
theorem admitted_authorised (h : run initialState (w ++ [.admitRequest]) = .ok s) :
    s.route = .predecessor ∧ w ⊆ unexposed ∨
    s.route = .candidate ∧ ∃ u v, Ready u ∧ w = u ++ .openIntent :: .openEffect :: v ∧
      v ⊆ exposed ∧ Receipted v := by
  obtain ⟨s', hw, ha⟩ := run_snoc.mp h
  obtain ⟨hc, rfl⟩ := goes_ok.mp ha
  have ht := run_told hw
  rw [canAdmit] at hc
  split at hc
  case isTrue hr =>
    exact .inl ⟨hr, ht.unexposed (of_decide_eq_true hc)⟩
  case isFalse hr =>
    have hc := of_decide_eq_true hc
    obtain ⟨u, v, hu, hw, hv, hor⟩ := ht.candidate hc.1
    exact .inr ⟨hc.1, u, v, hu, hw, hv, hor hc.2.2.2.2.2⟩

theorem admitted_authorised_opened : ∃ u v, Ready u ∧
    [.stage, .observeComplete, .closeCandidate, .openIntent, .openEffect, .openReceipt] =
      u ++ .openIntent :: .openEffect :: v ∧ v ⊆ exposed ∧ Receipted v :=
  (admitted_authorised (s := ⟨.candidateOpen, .candidate, true, true, 1, true, true⟩) rfl).elim
    (fun h => absurd h.1 (by decide)) And.right

end TransactionModel
