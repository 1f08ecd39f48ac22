import ExtManager.Gate.FaultFree
import ExtManager.Gate.Terminal

open Crash Prog Relation GateDb

namespace GateDb

variable {db db' : GateDb} {n : Int} {kind : GateKind} {operation : GateOperation}
variable {fromState toState : Option GateState} {fence : Option String} {detail : Json}
variable {id : Option OperationId}

theorem Scoped.append (h : db.Scoped) (hc : db.Correlated operation id) :
    (db.append n kind operation fromState toState fence detail id).Scoped := by
  intro t ht hs
  rcases List.mem_cons.mp ht with he | hm
  · subst he
    refine hc.resolve_right fun hi => ?_
    cases id
    case none   => cases operation <;> simp [GateOperation.scope] at hs
    case some i =>
      rcases hi i rfl with hne | ⟨t, hm, hne, he⟩
      · exact hne hs
      · exact hne (h t hm (he ▸ hs))
  · exact h t hm hs

-- What `reconcile` and `recover` need to know of the database.
structure Sound [Sha256] (db : GateDb) : Prop extends Inv db where
  ids : db.Scoped

-- What `reconcile` leaves pending of what it found: it deals with one intent at a time.
structure Left (db db' : GateDb) : Prop where
  failClose : db'.pending .failClose = none
  recovery  : db'.pendingRecoveryClose = none ↔
    db.pending .failClose = none ∨ db.pendingRecoveryClose = none
  rollback  : db'.pending .rollback = none ↔
    (db.pending .failClose = none ∧ db.pendingRecoveryClose = none) ∨ db.pending .rollback = none

theorem Idle.left (h : db.Idle) (h' : db'.Idle) : Left db db' where
  failClose := h'.failClose
  recovery  := by simp [h.failClose, h'.recovery]
  rollback  := by simp [h.rollback, h'.rollback]

theorem Left.idle_iff (h : Left db db') : db'.Idle ↔
    (db.pending .failClose = none ∨ db.pendingRecoveryClose = none) ∧
      ((db.pending .failClose = none ∧ db.pendingRecoveryClose = none) ∨
        db.pending .rollback = none) :=
  ⟨fun hi => ⟨h.recovery.mp hi.recovery, h.rollback.mp hi.rollback⟩,
    fun ⟨hrc, hrb⟩ => ⟨h.failClose, h.recovery.mpr hrc, h.rollback.mpr hrb⟩⟩

end GateDb

namespace Gate

section Sound

variable [Sha256] {τ : Type} [TrafficAdapter τ] {op : Op} {g₀ g g' : Gate τ} {db : GateDb}
variable {init : Gate τ → Prop} {may : Op → Gate τ → Prop} {env : τ → τ → Prop}

theorem Commit.scoped (hc : Commit op g₀ g db) (h : g.db.Scoped) : db.Scoped := by
  cases hc
  case stage                  => exact h.append (.new)
  case append hc              => exact h.append hc
  case move hc                => exact h.append hc
  case admission | finish     => exact h
  case recovery hc            =>
    refine (h.append (.inl rfl)).append ?_
    refine .inr fun i hi => ?_
    rcases hc.resolve_left (by simp) i hi with hs | ⟨t, hm, ht⟩
    · exact .inl hs
    · exact .inr ⟨t, List.mem_cons_of_mem _ hm, ht⟩

theorem Op.ends_sound (h : g.db.Sound) (he : g' ∈ op.ends g) : g'.db.Sound where
  toInv := Op.ends_inv h.toInv he
  ids   := Steps.db_invariant (Op.steps_of_ends h.toInv he) h.toInv h.ids
    fun _ _ _ hs hc => hc.scoped hs

omit [TrafficAdapter τ] in
theorem Initial.sound (h : g.Initial) : g.db.Sound := by
  refine ⟨h.inv, ?_⟩
  rw [Initial] at h
  simp [h, Scoped]

theorem reachable_sound (h : Reachable init (Next may env) g) (hi : ∀ g, init g → g.Initial) :
    g.db.Sound := by
  refine h.invariant (I := fun g => g.db.Sound) (fun g h => (hi g h).sound) fun g g' _ hs hn => ?_
  cases hn
  case op he   => exact Op.ends_sound hs he
  case restart => exact hs
  case env     => exact hs

end Sound

variable [Sha256] {g g' : Gate DeterministicTrafficAdapter} {row : GateRow}

-- The state in which `reconcile` tries to end.
def decision (g : Gate DeterministicTrafficAdapter) (row : GateRow) : GateState :=
  if (g.db.pending .failClose).isSome then (closeClass (.ok g.traffic.route)).target
  else if g.db.pendingRecoveryClose.isSome then .failedSafe
  else if (g.db.pending .rollback).isSome then (rollbackClass row (.ok g.traffic.route)).target
  else if row.state ≠ .opening then row.state
  else if g.Stands row then .candidateOpen
  else .failedSafe

omit [Sha256] in
theorem Tries.mono {s : GateState} {L L' : GateDb → Prop} {m : M DeterministicTrafficAdapter GateState}
    (h : Tries row s L m g) (hl : ∀ db, L db → L' db) : Tries row s L' m g := by
  unfold Tries Ends at h ⊢
  refine wp_mono h (fun v g' h => ⟨fun ha => ?_, h.right⟩) fun _ h => h
  have ⟨hv, he, hdb⟩ := h.left ha
  exact ⟨hv, he, hl _ hdb⟩

-- A gate without pending intents that is not opening stays as it is.
theorem reconcile_calm (h : g.db.Sound) (hr : g.db.row = some row) (hi : g.db.Idle)
    (hs : row.state ≠ .opening) : Ends reconcile (fun v g' => v = .ok row.state ∧ g' = g) g := by
  unfold reconcile
  refine wp_row_seq (fun row' hr' => ?_) (fun e he => by simp [h.getRow.mpr hr] at he)
  have he : row = row' := Except.ok.inj ((h.getRow.mpr hr).symm.trans hr')
  subst he
  refine wp_read_seq ?_
  simp only [hi.failClose, hi.recovery, hi.rollback]
  rw [if_pos hs]
  exact wp_pure.mpr ⟨rfl, rfl⟩

theorem reconcile_free (h : g.db.Sound) (hr : g.db.row = some row) (hf : g.FaultFree) :
    Tries row (g.decision row) (Left g.db) reconcile g := by
  have hr' := h.getRow.mpr hr
  unfold Tries Ends reconcile
  refine wp_row_seq (fun row' hr'' => ?_) (fun e he => by simp [hr'] at he)
  have he : row = row' := Except.ok.inj (hr'.symm.trans hr'')
  subst he
  refine wp_read_seq ?_
  -- the branches in the order of the code
  cases hfc : g.db.pending .failClose
  case some intent =>
    have hd : g.decision row = (closeClass (.ok g.traffic.route)).target := by simp [decision, hfc]
    rw [hd]
    refine (reconcileFailClose_free h.toInv h.ids hr hf hfc).mono fun db hl => ?_
    exact ⟨hl.left, by simp [hl.right.left, hfc], by simp [hl.right.right, hfc]⟩
  case none =>
  cases hrc : g.db.pendingRecoveryClose
  case some intent =>
    have hd : g.decision row = .failedSafe := by simp [decision, hfc, hrc]
    rw [hd]
    refine (reconcileRecoveryClose_free h.toInv h.ids hr hf hfc hrc).mono fun db hl => ?_
    exact ⟨hl.left, by simp [hl.right.left, hfc], by simp [hl.right.right, hrc]⟩
  case none =>
  cases hrb : g.db.pending .rollback
  case some intent =>
    have hd : g.decision row = (rollbackClass row (.ok g.traffic.route)).target := by
      simp [decision, hfc, hrc, hrb]
    rw [hd]
    refine (reconcileRollback_free h.toInv h.ids hr hf hfc hrc hrb).mono fun db hl => ?_
    exact ⟨hl.failClose, by simp [hl.recovery, hfc], by simp [hl.rollback, hfc, hrc]⟩
  case none =>
    have hi : g.db.Idle := ⟨hfc, hrc, hrb⟩
    by_cases hs : row.state = .opening
    case pos =>
      have hd : g.decision row = if g.Stands row then .candidateOpen else .failedSafe := by
        simp [decision, hfc, hrc, hrb, hs]
      rw [hd]
      simp only [hs, ne_eq, not_true_eq_false, if_false]
      exact hs ▸ (reconcileOpening_free h.toInv h.ids hr hs hf hi).mono fun db hl => hi.left hl
    case neg =>
      have hd : g.decision row = row.state := by simp [decision, hfc, hrc, hrb, hs]
      rw [hd]
      simp only [ne_eq, hs, not_false_eq_true, if_true]
      refine wp_pure.mpr ⟨fun _ => ⟨rfl, ⟨hf, by simp [state?, hr], rfl⟩, hi.left hi⟩,
        fun ha => absurd accepts_self ha⟩

-- `reconcile` gets the gate out of `OPENING`, and to call it again changes nothing.
def Recovers (g : Gate DeterministicTrafficAdapter) : Prop :=
  ∃ s g' g'', s ≠ .opening ∧ Returned reconcile s g g' ∧ Returned reconcile s g' g'' ∧
    g''.db.transitions = g'.db.transitions ∧ g''.traffic.route = g'.traffic.route

-- At most one intent is pending, and its outcome is a transition that the gate allows: the class
-- of the route for a fail-close and for a rollback, `FAILED_SAFE` for a recovery close.
structure Resolvable (g : Gate DeterministicTrafficAdapter) (row : GateRow) : Prop where
  failClose : (g.db.pending .failClose).isSome →
    g.db.pendingRecoveryClose = none ∧ g.db.pending .rollback = none ∧
      row.state.accepts (closeClass (.ok g.traffic.route)).target
  recovery  : g.db.pendingRecoveryClose.isSome →
    g.db.pending .rollback = none ∧ row.state.accepts .failedSafe
  rollback  : (g.db.pending .rollback).isSome →
    row.state.accepts (rollbackClass row (.ok g.traffic.route)).target

theorem resolvable_iff : g.Resolvable row ↔ row.state.accepts (g.decision row) ∧
    (g.db.pending .failClose = none ∨ g.db.pendingRecoveryClose = none) ∧
    ((g.db.pending .failClose = none ∧ g.db.pendingRecoveryClose = none) ∨
      g.db.pending .rollback = none) := by
  cases hfc : g.db.pending .failClose
  case some =>
    have hd : g.decision row = (closeClass (.ok g.traffic.route)).target := by simp [decision, hfc]
    refine ⟨fun h => ?_, fun ⟨ha, hrc, hrb⟩ => ⟨fun _ => ?_, ?_, ?_⟩⟩
    · have ⟨hrc, hrb, ha⟩ := h.failClose (by simp [hfc])
      exact ⟨hd ▸ ha, .inr hrc, .inr hrb⟩
    all_goals simp_all
  case none =>
  cases hrc : g.db.pendingRecoveryClose
  case some =>
    have hd : g.decision row = .failedSafe := by simp [decision, hfc, hrc]
    refine ⟨fun h => ?_, fun ⟨ha, _, hrb⟩ => ⟨?_, fun _ => ?_, ?_⟩⟩
    · have ⟨hrb, ha⟩ := h.recovery (by simp [hrc])
      exact ⟨hd ▸ ha, .inl rfl, .inr hrb⟩
    all_goals simp_all
  case none =>
  cases hrb : g.db.pending .rollback
  case some =>
    have hd : g.decision row = (rollbackClass row (.ok g.traffic.route)).target := by
      simp [decision, hfc, hrc, hrb]
    refine ⟨fun h => ⟨hd ▸ h.rollback (by simp [hrb]), .inl rfl, .inl ⟨rfl, rfl⟩⟩,
      fun ⟨ha, _, _⟩ => ⟨?_, ?_, fun _ => hd ▸ ha⟩⟩
    all_goals simp_all
  case none =>
    refine ⟨fun _ => ⟨?_, .inl rfl, .inl ⟨rfl, rfl⟩⟩, fun _ => ⟨?_, ?_, ?_⟩⟩
    · by_cases hs : row.state = .opening
      case pos =>
        have hd : g.decision row = if g.Stands row then .candidateOpen else .failedSafe := by
          simp [decision, hfc, hrc, hrb, hs]
        rw [hd, hs]
        cases g.Stands row <;> decide
      case neg =>
        have hd : g.decision row = row.state := by simp [decision, hfc, hrc, hrb, hs]
        exact hd ▸ accepts_self
    all_goals simp_all

theorem decision_ne_opening : g.decision row ≠ .opening := by
  unfold decision
  have hc (c : RollbackClass) : c.target ≠ .opening := by cases c <;> decide
  split
  · exact hc _
  · split
    · simp
    · split
      · exact hc _
      · split
        · assumption
        · split <;> simp

theorem mem_of_reconcile {s : GateState} (h : Returned reconcile s g g') :
    g' ∈ Op.reconcile.ends g := by
  have he : Op.reconcile.ends g = (reconcile g.start).ends := ends_void
  rw [he, ← h.right]
  exact List.mem_append_right _ (List.mem_singleton.mpr rfl)

-- What a `reconcile` that returns has done.
theorem reconcile_spec {s : GateState} (hc : Returned reconcile s g g') (h : g.db.Sound)
    (hr : g.db.row = some row) (hf : g.FaultFree) :
    row.state.accepts (g.decision row) ∧ s = g.decision row ∧
      EndsIn s g.traffic.rollbackFails g' ∧ Left g.db g'.db := by
  have ⟨hv, hg⟩ := hc
  have hfree := (@reconcile_free _ g.start row h hr ⟨hf.gate, hf.adapter⟩).right
  rw [hv, hg] at hfree
  by_cases ha : row.state.accepts (g.decision row)
  case pos =>
    have ⟨he, hend, hl⟩ := hfree.left ha
    injection he with he
    subst he
    exact ⟨ha, rfl, hend, hl⟩
  case neg =>
    have ⟨_, he⟩ := hfree.right ha
    contradiction

theorem reconciles_of_accepts (h : g.db.Sound) (hr : g.db.row = some row) (hf : g.FaultFree)
    (ha : row.state.accepts (g.decision row)) : ∃ g', Returned reconcile (g.decision row) g g' := by
  have hfree := (@reconcile_free _ g.start row h hr ⟨hf.gate, hf.adapter⟩).right
  exact ⟨_, (hfree.left ha).left, rfl⟩

theorem reconciles_calm (h : g.db.Sound) (hr : g.db.row = some row) (hi : g.db.Idle)
    (hs : row.state ≠ .opening) : Returned reconcile row.state g g.start :=
  (@reconcile_calm _ g.start row h hr hi hs).right

-- The intent that `reconcile` takes up has an outcome that the gate allows.
def Reconcilable (g : Gate DeterministicTrafficAdapter) (row : GateRow) : Prop :=
  if (g.db.pending .failClose).isSome then
    row.state.accepts (closeClass (.ok g.traffic.route)).target = true
  else if g.db.pendingRecoveryClose.isSome then
    row.state.accepts .failedSafe = true
  else
    (g.db.pending .rollback).isSome →
      row.state.accepts (rollbackClass row (.ok g.traffic.route)).target

theorem reconcilable_iff : g.Reconcilable row ↔ row.state.accepts (g.decision row) := by
  unfold Reconcilable decision
  split
  case isTrue => rfl
  case isFalse =>
  split
  case isTrue => rfl
  case isFalse =>
  split
  case isTrue h => simp [h]
  case isFalse h =>
    simp only [h, Bool.false_eq_true, false_implies, true_iff]
    split
    case isTrue    => exact accepts_self
    case isFalse h =>
      rw [not_not.mp h]
      split <;> decide

-- Once `reconcile` has taken up its intent, the gate can still be closed.
def Closable (g : Gate DeterministicTrafficAdapter) (row : GateRow) : Prop :=
  if (g.db.pending .failClose).isSome then
    g.traffic.route.isClosed = true
  else if g.db.pendingRecoveryClose.isSome then
    True
  else if (g.db.pending .rollback).isSome then
    g.traffic.route.isClosed = true
  else
    row.state ≠ .rolledBack ∧ row.state ≠ .safetyUnknown

omit [Sha256] in
theorem accepts_failedSafe_iff {s : GateState} :
    s.accepts .failedSafe ↔ s ≠ .rolledBack ∧ s ≠ .safetyUnknown := by
  cases s <;> decide

theorem closable_iff : g.Closable row ↔ (g.decision row).accepts .failedSafe := by
  unfold Closable decision
  split
  case isTrue =>
    cases hc : g.traffic.route.isClosed
    all_goals simp [closeClass, isClosed, hc, RollbackClass.target, accepts_failedSafe_iff]
  case isFalse =>
  split
  case isTrue => simp [accepts_self]
  case isFalse =>
  split
  case isTrue =>
    cases hc : g.traffic.route.isClosed
    case true =>
      have hp : isPredecessor row g.traffic.route = false := by
        simp only [RouteState.isClosed, Bool.and_eq_true, decide_eq_true_eq] at hc
        simp [isPredecessor, hc.left]
      simp [rollbackClass, hp, hc, RollbackClass.target, accepts_failedSafe_iff]
    case false =>
      cases hp : isPredecessor row g.traffic.route
      all_goals simp [rollbackClass, hp, hc, RollbackClass.target, accepts_failedSafe_iff]
  case isFalse =>
    rw [accepts_failedSafe_iff]
    split
    case isTrue    => rfl
    case isFalse h =>
      rw [not_not.mp h]
      split <;> simp

section Returned

variable {α : Type} {n : Int}

omit [Sha256] in
theorem row_of_returned {k : GateRow → M DeterministicTrafficAdapter α} {a : α}
    (h : Returned (Gate.row >>= k) a g g') : ∃ row, g.db.row = some row := by
  have ⟨row, _, hr, _⟩ := returns_bind.mp h
  exact ⟨row, (getRow_ok_iff.mp (returns_lift.mp hr).left).left⟩

theorem rollback_returns_iff (h : g.db.Inv) (hr : g.db.row = some row)
    (hn : row.candidateGeneration = n) (hf : g.FaultFree) :
    (∃ c g', Returned (rollback n none) c g g') ↔
      row.state.accepts (restoredClass row (restoreCall row g.traffic).1).target := by
  have hfree := (@rollback_free g.start _ row n h hr hn ⟨hf.gate, hf.adapter⟩).right
  constructor
  case mp =>
    intro ⟨c, g', hv, _⟩
    by_contra hna
    have ⟨_, he⟩ := hfree.right hna
    exact absurd (hv.symm.trans he) (by simp)
  case mpr => exact fun ha => ⟨_, _, hfree.left ha, rfl⟩

theorem failClose_returns_iff {reason : String} (h : g.db.Inv) (hr : g.db.row = some row)
    (hn : row.candidateGeneration = n) (hf : g.FaultFree) :
    (∃ res g', Returned (failClose n reason) res g g') ↔ row.state.accepts .failedSafe := by
  have hfree := (@failClose_free g.start _ row reason n h hr hn ⟨hf.gate, hf.adapter⟩).right
  constructor
  case mp =>
    intro ⟨c, g', hv, _⟩
    by_contra hna
    have ⟨_, he⟩ := hfree.right hna
    exact absurd (hv.symm.trans he) (by simp)
  case mpr =>
    intro ha
    have ⟨⟨res, hv, _⟩, _⟩ := hfree.left ha
    exact ⟨res, _, hv, rfl⟩

end Returned

-- A gate recovers exactly where at most one intent is pending and its outcome is allowed.
theorem recovers_iff {env : DeterministicTrafficAdapter → DeterministicTrafficAdapter → Prop}
    (h : Reachable Initial (Next Always env) g) (hr : g.db.row = some row) (hf : g.FaultFree) :
    g.Recovers ↔ g.Resolvable row := by
  have hs := reachable_sound h fun _ h => h
  rw [resolvable_iff]
  constructor
  case mp =>
    rintro ⟨s, g', g'', _, hc, hc', ht, _⟩
    obtain ⟨ha, _, hend, hl⟩ := reconcile_spec hc hs hr hf
    obtain ⟨row', hr', _⟩ := Option.map_eq_some_iff.mp hend.state
    obtain ⟨_, _, _, hl'⟩ := reconcile_spec hc' (Op.ends_sound hs (mem_of_reconcile hc)) hr' hend.faultFree
    -- the second call has appended nothing, so it has found nothing pending
    have hrc : g''.db.pendingRecoveryClose = g'.db.pendingRecoveryClose := by
      simp [pendingRecoveryClose, hasReceipt, ht]
    have hrb : g''.db.pending .rollback = g'.db.pending .rollback := by
      simp [pending, latest, ht]
    have hi : g'.db.Idle := by
      have hrc' := hrc ▸ hl'.recovery.mpr (.inl hl.failClose)
      exact ⟨hl.failClose, hrc', hrb ▸ hl'.rollback.mpr (.inl ⟨hl.failClose, hrc'⟩)⟩
    exact ⟨ha, hl.idle_iff.mp hi⟩
  case mpr =>
    rintro ⟨ha, hi⟩
    obtain ⟨g', hc⟩ := reconciles_of_accepts hs hr hf ha
    obtain ⟨_, _, hend, hl⟩ := reconcile_spec hc hs hr hf
    obtain ⟨row', hr', hst⟩ := Option.map_eq_some_iff.mp hend.state
    have hne : row'.state ≠ .opening := hst ▸ decision_ne_opening
    have hc' := reconciles_calm (Op.ends_sound hs (mem_of_reconcile hc)) hr' (hl.idle_iff.mpr hi) hne
    exact ⟨_, g', g'.start, decision_ne_opening, hc, hst ▸ hc', rfl, rfl⟩

end Gate

namespace Gate.Sample

def rolledBack : Gate DeterministicTrafficAdapter :=
  (Op.rollback 2 none).after staged

-- The fail-close is rejected, but its intent stays.
def rejected : Gate DeterministicTrafficAdapter :=
  (Op.failClose 2 "drill").after rolledBack

-- The process dies with a fail-close announced.
def dying : Gate DeterministicTrafficAdapter :=
  (Op.failClose 2 "drill").after { staged with faults := ["fail_close.before_effect"] }

theorem recovers_of_dying : (dying.db.pending .failClose).isSome ∧ dying.Recovers := by
  have h : Reachable Initial (Next Always Anything) dying :=
    .step (.step reachable_staged .restart) (.op _ trivial Op.after_mem)
  have ⟨hs, hrb, hfc, hrc, hfaults, htraffic, hc⟩ : dying.state? = some .candidateStaged ∧
      dying.db.pending .rollback = none ∧ (dying.db.pending .failClose).isSome ∧
      dying.db.pendingRecoveryClose = none ∧ dying.faults = [] ∧ dying.traffic.faults = [] ∧
      (closeClass (.ok dying.traffic.route)).target = .safetyUnknown := by
    decide +kernel
  have ⟨row, hr, hst⟩ := Option.map_eq_some_iff.mp hs
  refine ⟨hfc, (recovers_iff h hr ⟨hfaults, htraffic⟩).mpr ?_⟩
  refine ⟨fun _ => ⟨hrc, hrb, ?_⟩, fun hp => ⟨hrb, hst ▸ by decide⟩, by simp [hrb]⟩
  rw [hst, hc]
  decide

theorem not_recovers_of_rejected : Reachable Initial (Next Always Quiet) rejected ∧
    rejected.state? = some .rolledBack ∧ rejected.FaultFree ∧ ¬rejected.Recovers := by
  have hr : Reachable Initial (Next Always Quiet) rejected :=
    .step (.step reachable_staged (.op _ trivial Op.after_mem)) (.op _ trivial Op.after_mem)
  have ⟨hs, hfaults, htraffic, hv⟩ : rejected.state? = some .rolledBack ∧ rejected.faults = [] ∧
      rejected.traffic.faults = [] ∧ (reconcile rejected.start).value.toOption = none := by
    decide +kernel
  refine ⟨hr, hs, ⟨hfaults, htraffic⟩, ?_⟩
  intro ⟨s, _, _, _, hc, _⟩
  simp [hc.left, Except.toOption] at hv

end Gate.Sample
