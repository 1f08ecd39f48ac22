import ExtManager.Gate.Terminal

open Crash Prog Relation GateDb

namespace Gate

section

variable [Sha256] {τ : Type} [TrafficAdapter τ] {op : Op} {g₀ g g' : Gate τ}

-- The last route that the operation has read from the adapter was closed.
def SeenClosed (g : Gate τ) : Prop :=
  ∃ r, g.reads.head? = some r ∧ r.generation = none ∧ r.fence = "closed"

-- Where `reconcile` recovers an open by closing all routes and the adapter reports no error, the
-- adapter has closed them: this is the one place where nobody looks.
def Closes (op : Op) (g : Gate τ) : Prop :=
  op = .reconcile → ∀ r t, UncheckedClose g r t → r.isClosed

theorem UncheckedClose.of_start {r : RouteState} {t : τ} (h : UncheckedClose g.start r t) :
    UncheckedClose g r t := by
  have ⟨row, intent, proof, r₀, t₀, t₁, hr, h⟩ := h
  exact ⟨row, intent, proof, r₀, t₀, t₁, ⟨hr.row_eq, hr.opening, hr.noFail, hr.noRecovery,
    hr.noRollback, hr.intent_eq, hr.proof_eq, hr.digest, hr.lease, hr.valid⟩, h⟩

omit [Sha256] [TrafficAdapter τ] in
theorem seenClosed_of_isClosed {r : RouteState} (hr : g.reads.head? = some r) (hc : r.isClosed) :
    g.SeenClosed := by
  simp only [RouteState.isClosed, Bool.and_eq_true, decide_eq_true_eq] at hc
  exact ⟨r, hr, hc⟩

-- Nothing is read any more once the gate has failed safe.
omit [Sha256] [TrafficAdapter τ] in
theorem Undecided.not_failedSafe (hu : Undecided g₀ g) (h₀ : g₀.state? ≠ some .failedSafe) :
    g.state? ≠ some .failedSafe := by
  rcases hu with hu | hu
  · rw [hu]
    exact h₀
  · simp [hu]

theorem SeenClosed.step (hn : Step op g₀ g g')
    (hc : op = .reconcile → ∀ r t, UncheckedClose g₀ r t → r.isClosed)
    (h₀ : g₀.state? ≠ some .failedSafe) (hi : g.state? = some .failedSafe → g.SeenClosed)
    (h : g'.state? = some .failedSafe) : g'.SeenClosed := by
  cases hn
  case read hu        => exact absurd h (hu.not_failedSafe h₀)
  case query v _ hu _ => cases v <;> exact absurd h (hu.not_failedSafe h₀)
  case commit hco     =>
    have ⟨row', hr', hs⟩ := Option.map_eq_some_iff.mp h
    have ⟨row, hr, _, hv⟩ := hco.entered hr' (.inr hs)
    rcases hv with he | ⟨_, hv⟩
    · exact hi (by rw [state?, hr, Option.map_some, he, hs])
    · rw [hs] at hv
      cases hv
      case failedSafe ho hcl    => exact seenClosed_of_isClosed ho.left hcl
      case unchecked he hu hd => exact seenClosed_of_isClosed hd (hc he _ _ hu)
  all_goals exact hi h

theorem SeenClosed.steps (hs : Steps op g₀ g)
    (hc : op = .reconcile → ∀ r t, UncheckedClose g₀ r t → r.isClosed)
    (h₀ : g₀.state? ≠ some .failedSafe) (h : g.state? = some .failedSafe) : g.SeenClosed := by
  induction hs
  case refl          => contradiction
  case tail hs hn ih => exact SeenClosed.step hn hc h₀ ih h

-- Whatever the adapter does, an operation moves the gate to `FAILED_SAFE` only after it has read a
-- closed route, in every run in which the adapter closes routes where nobody looks.
theorem seenClosed_of_failedSafe (h : Reachable Initial (Next Closes Anything) g)
    (hc : Closes op g) (he : g' ∈ op.ends g) (hs : g.state? ≠ some .failedSafe)
    (hs' : g'.state? = some .failedSafe) : g'.SeenClosed := by
  have hinv := reachable_inv h fun _ h => h
  exact SeenClosed.steps (Op.steps_of_ends hinv he) (fun he r t hu => hc he r t hu.of_start) hs hs'

end

-- The deterministic adapter closes what it says it has closed.
theorem closes_deterministic [Sha256] {op : Op} {g : Gate DeterministicTrafficAdapter} :
    Closes op g := by
  intro _ r t ⟨_, _, _, _, _, t₁, _, _, _, hc, hq⟩
  rw [(DeterministicTrafficAdapter.route_queryRoute hq).right r rfl,
    DeterministicTrafficAdapter.route_of_closeAll hc]
  rfl

end Gate

namespace Gate.Sample

-- An adapter whose `close_all` returns normally and closes nothing.
structure IdleAdapter where
  base : DeterministicTrafficAdapter

instance : TrafficAdapter IdleAdapter where
  route a                             := a.base.route
  authority a                         := a.base.authority
  behavioralRestore a                 := a.base.behavioralRestore
  close n a                           := Prod.map id IdleAdapter.mk (a.base.close n)
  «open» n fence snapshot grant now a :=
    Prod.map id IdleAdapter.mk (a.base.open n fence snapshot grant now)
  closeAll a                          := (.ok (), a)
  restore n fence snapshot a          :=
    Prod.map id IdleAdapter.mk (a.base.restore n fence snapshot)
  leaseValid grant now a              := a.base.leaseValid grant now
  queryRoute a                        := Prod.map id IdleAdapter.mk a.base.queryRoute

theorem seenClosed_of_interrupted :
    (Op.reconcile.after (interrupted adapter)).state? = some .failedSafe ∧
      (Op.reconcile.after (interrupted adapter)).SeenClosed := by
  have h : Reachable Initial (Next Closes Anything) (interrupted adapter) :=
    reachable_interrupted fun _ _ _ => closes_deterministic
  have ⟨hne, hs⟩ : (interrupted adapter).state? ≠ some .failedSafe ∧
      (Op.reconcile.after (interrupted adapter)).state? = some .failedSafe := by
    decide +kernel
  exact ⟨hs, seenClosed_of_failedSafe h closes_deterministic Op.after_mem hne hs⟩

-- The predecessor's route is still open when the gate fails safe.
theorem not_seenClosed_of_idle :
    Reachable Initial (Next Always Anything) (interrupted (IdleAdapter.mk adapter)) ∧
      (interrupted (IdleAdapter.mk adapter)).state? = some .opening ∧
      (Op.reconcile.after (interrupted (IdleAdapter.mk adapter))).state? = some .failedSafe ∧
      ¬(Op.reconcile.after (interrupted (IdleAdapter.mk adapter))).SeenClosed := by
  have ⟨hopening, hs, hr⟩ : (interrupted (IdleAdapter.mk adapter)).state? = some .opening ∧
      (Op.reconcile.after (interrupted (IdleAdapter.mk adapter))).state? = some .failedSafe ∧
      (Op.reconcile.after (interrupted (IdleAdapter.mk adapter))).reads.head? =
        some ⟨some 1, "fence-1", predecessor⟩ := by
    decide +kernel
  refine ⟨reachable_interrupted fun _ _ _ => trivial, hopening, hs, ?_⟩
  intro ⟨r, hr', hg, _⟩
  rw [hr, Option.some.injEq] at hr'
  simp [← hr'] at hg

end Gate.Sample
