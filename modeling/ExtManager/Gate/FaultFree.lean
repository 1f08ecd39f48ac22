import ExtManager.Gate.Route

open Crash Prog Relation GateDb

-- What the pending intents are after a new row.
namespace GateDb

variable {db db' : GateDb} {t : GateTransition} {operation : GateOperation} {row : GateRow}

theorem latest_cons {kind : GateKind} (ht : db'.transitions = t :: db.transitions) :
    db'.latest operation kind =
      if t.operation = operation ∧ t.kind = kind then some t else db.latest operation kind := by
  by_cases h : t.operation = operation ∧ t.kind = kind
  case pos => simp [latest, ht, h]
  case neg =>
    have h' : decide (t.operation = operation ∧ t.kind = kind) = false := by simpa using h
    simp only [latest, ht, List.find?_cons, h', if_neg h]

theorem pending_cons_of_ne (ht : db'.transitions = t :: db.transitions)
    (h : t.operation ≠ operation) : db'.pending operation = db.pending operation := by
  simp [pending, latest_cons ht, h]

theorem pending_cons_receipt (h : ∀ t ∈ db.transitions, t.seq ≤ db.transitions.length)
    (ht : db'.transitions = t :: db.transitions) (hs : t.seq = db.nextSeq)
    (ho : t.operation = operation) (hk : t.kind = .receipt) : db'.pending operation = none := by
  simp only [pending, latest_cons ht, ho, hk, true_and, if_true, reduceCtorEq, if_false]
  cases hi : db.latest operation .intent
  case none        => rfl
  case some intent =>
    have := h intent (latest_mem hi).left
    simp only [hs, nextSeq, ite_eq_right_iff, reduceCtorEq, imp_false]
    omega

theorem pending_cons_intent (h : ∀ t ∈ db.transitions, t.seq ≤ db.transitions.length)
    (ht : db'.transitions = t :: db.transitions) (hs : t.seq = db.nextSeq)
    (ho : t.operation = operation) (hk : t.kind = .intent) : db'.pending operation = some t := by
  simp only [pending, latest_cons ht, ho, hk, true_and, if_true, reduceCtorEq, if_false]
  cases hr : db.latest operation .receipt
  case none         => rfl
  case some receipt =>
    have := h receipt (latest_mem hr).left
    simp only [hs, nextSeq, ite_eq_left_iff, reduceCtorEq, imp_false]
    omega

-- No other operation has the id of a recovery close.
def Scoped (db : GateDb) : Prop :=
  ∀ t ∈ db.transitions, t.operationId.scope = .openReconcileClose →
    t.operation = .openReconcileCloseAll

theorem hasReceipt_cons {id : OperationId} (ht : db'.transitions = t :: db.transitions) :
    db'.hasReceipt id = (decide (t.operationId = id ∧ t.kind = .receipt) || db.hasReceipt id) := by
  simp [hasReceipt, ht]

theorem noRecovery_cons_iff [Sha256] (h : db.RowInv row)
    (ht : db'.transitions = t :: db.transitions)
    (hs : t.operationId.scope ≠ .openReconcileClose) (ho : t.operation ≠ .openReconcileCloseAll) :
    db'.pendingRecoveryClose = none ↔ db.pendingRecoveryClose = none := by
  refine ⟨fun hn => ?_, fun hn => pendingRecoveryClose_cons hn ht fun he => absurd he ho⟩
  rw [pendingRecoveryClose_eq_none] at hn ⊢
  intro t' hm ho' hi
  have hid := h.recoveryId t' hm ho'
  have hne : t.operationId ≠ t'.operationId := fun he => hs (by rw [he, hid])
  have hr := hn t' (ht ▸ List.mem_cons_of_mem _ hm) ho' hi
  simpa [hasReceipt_cons ht, hne] using hr

-- The receipt of one recovery close stands for all of them.
theorem noRecovery_cons_receipt [Sha256] (h : db.RowInv row)
    (ht : db'.transitions = t :: db.transitions) (hk : t.kind = .receipt)
    (hid : t.operationId = ⟨.openReconcileClose, row.candidateGeneration⟩) :
    db'.pendingRecoveryClose = none := by
  rw [pendingRecoveryClose_eq_none]
  intro t' hm ho hi
  rw [ht, List.mem_cons] at hm
  rcases hm with he | hm
  · rw [he, hk] at hi
    contradiction
  · simp [hasReceipt_cons ht, hk, hid, h.recoveryId t' hm ho]

section

variable [Sha256] {n : Int} {kind : GateKind} {fromState toState : Option GateState}
variable {fence : Option String} {detail : Json} {id : Option OperationId} {target : GateState}
variable {update : Nat → GateRow → GateRow} {operation' : GateOperation} {row' : GateRow}

omit [Sha256] in
theorem pending_append_of_ne (h : operation ≠ operation') :
    (db.append n kind operation fromState toState fence detail id).pending operation' =
      db.pending operation' :=
  pending_cons_of_ne rfl h

omit [Sha256] in
theorem pending_moved_of_ne (h : operation ≠ operation') :
    (db.moved row' n target operation kind detail fence id update).pending operation' =
      db.pending operation' :=
  pending_cons_of_ne rfl h

theorem pending_moved_receipt (h : db.Inv) :
    (db.moved row' n target operation .receipt detail fence id update).pending operation = none :=
  pending_cons_receipt h.seq rfl rfl rfl rfl

theorem noRecovery_append_iff (h : db.RowInv row) (ho : operation ≠ .openReconcileCloseAll)
    (hs : (id.getD ⟨operation.scope, n⟩).scope ≠ .openReconcileClose) :
    (db.append n kind operation fromState toState fence detail id).pendingRecoveryClose = none ↔
      db.pendingRecoveryClose = none :=
  noRecovery_cons_iff h rfl hs ho

theorem noRecovery_moved_iff (h : db.RowInv row) (ho : operation ≠ .openReconcileCloseAll)
    (hs : (id.getD ⟨operation.scope, n⟩).scope ≠ .openReconcileClose) :
    (db.moved row' n target operation kind detail fence id update).pendingRecoveryClose = none ↔
      db.pendingRecoveryClose = none :=
  noRecovery_cons_iff h rfl hs ho

end

-- The operation id of an intent that is not a recovery close.
theorem Scoped.of_latest {kind : GateKind} (h : db.Scoped) (hl : db.latest operation kind = some t)
    (ho : operation ≠ .openReconcileCloseAll) : t.operationId.scope ≠ .openReconcileClose := by
  intro hs
  have ⟨hm, he, _⟩ := latest_mem hl
  exact ho (he ▸ h t hm hs)

-- No intent is waiting for `reconcile`.
structure Idle (db : GateDb) : Prop where
  failClose : db.pending .failClose = none
  recovery  : db.pendingRecoveryClose = none
  rollback  : db.pending .rollback = none

end GateDb

namespace Gate

open DeterministicTrafficAdapter

variable {α : Type} {g : Gate DeterministicTrafficAdapter} {Q : Except Exc α → Gate DeterministicTrafficAdapter → Prop}

-- Neither the gate nor its adapter has a fault point left.
structure FaultFree (g : Gate DeterministicTrafficAdapter) : Prop where
  gate    : g.faults = []
  adapter : g.traffic.faults = []

-- How a call ends that is not killed.
def Ends (m : M DeterministicTrafficAdapter α)
    (Q : Except Exc α → Gate DeterministicTrafficAdapter → Prop)
    (g : Gate DeterministicTrafficAdapter) : Prop :=
  wp m Q (fun _ => True) g

namespace Ends

theorem hit {point : String} {k : Unit → M DeterministicTrafficAdapter α} (hf : g.FaultFree)
    (hk : Ends (k ()) Q g) : Ends (Gate.hit point >>= k) Q g := by
  simp only [Ends, wp_bind, Gate.hit, wp_silent, hf.gate, List.not_mem_nil, if_false]
  exact hk

theorem queryRoute {k : RouteState → M DeterministicTrafficAdapter α} (hf : g.traffic.faults = [])
    (hk : Ends (k g.traffic.route) Q (g.addRead g.traffic.route)) :
    Ends (Gate.queryRoute >>= k) Q g := by
  unfold Ends
  simp only [wp_bind, Gate.queryRoute, wp_act, true_and, TrafficAdapter.queryRoute,
    DeterministicTrafficAdapter.queryRoute, DeterministicTrafficAdapter.hit, hf, List.not_mem_nil,
    if_false]
  exact hk

theorem tryQueryRoute {k : Except String RouteState → M DeterministicTrafficAdapter α}
    (hf : g.FaultFree) (hk : Ends (k (.ok g.traffic.route)) Q (g.addRead g.traffic.route)) :
    Ends (Gate.tryQueryRoute >>= k) Q g := by
  have hq : TrafficAdapter.queryRoute g.traffic = (.ok g.traffic.route, g.traffic) := by
    simp [TrafficAdapter.queryRoute, DeterministicTrafficAdapter.queryRoute,
      DeterministicTrafficAdapter.hit, hf.adapter]
  refine wp_tryQueryRoute_seq trivial (fun r t hq' => ?_) (fun e t hq' => ?_)
  · rw [hq, Prod.mk.injEq, Except.ok.injEq] at hq'
    obtain ⟨hr, ht⟩ := hq'
    subst hr ht
    exact hk
  · simp [hq] at hq'

theorem tryCloseAll {k : Option String → M DeterministicTrafficAdapter α}
    (hf : g.traffic.faults = [])
    (hk : Ends (k none) Q (g.setTraffic { g.traffic with route := .closed })) :
    Ends (Gate.tryCloseAll >>= k) Q g := by
  have hc : TrafficAdapter.closeAll g.traffic = (.ok (), { g.traffic with route := .closed }) := by
    simp [TrafficAdapter.closeAll, closeAll, DeterministicTrafficAdapter.hit, hf]
  refine wp_tryCloseAll_seq trivial (fun _ => ?_) (fun e he => ?_)
  · rw [hc]
    exact hk
  · simp [hc] at he

theorem transition {row : GateRow} {n : Int} {target : GateState} {operation : GateOperation}
    {kind : GateKind} {detail : Json} {fence : Option String} {id : Option OperationId}
    {update : Nat → GateRow → GateRow} {k : Unit → M DeterministicTrafficAdapter α}
    (hr : g.db.getRow = .ok row)
    (hok : row.state.accepts target →
      Ends (k ()) Q (g.setDb (g.db.moved row n target operation kind detail fence id update)))
    (herr : ¬row.state.accepts target → ∀ message, Q (.error (.gate message)) g) :
    Ends (Gate.transition n target operation kind detail fence id update >>= k) Q g := by
  refine wp_bind.mpr ?_
  simp only [Gate.transition, transaction, wp_act, true_and]
  by_cases ha : row.state.accepts target
  case pos =>
    rw [transition_ok_iff.mpr ⟨row, hr, ha, rfl⟩]
    simp only [moved_updateRow]
    exact hok ha
  case neg =>
    simp only [GateDb.transition, hr, if_neg ha]
    exact herr ha _

end Ends

section Reconcile

variable [Sha256] {row : GateRow} {intent : GateTransition}

-- The gate ends in `s`, and its adapter has no new fault.
structure EndsIn (s : GateState) (rollbackFails : Bool) (g : Gate DeterministicTrafficAdapter) :
    Prop where
  faultFree     : g.FaultFree
  state         : g.state? = some s
  rollbackFails : g.traffic.rollbackFails = rollbackFails

-- What is left to `reconcile` after a fail-close.
structure FailClosedFree (g g' : Gate DeterministicTrafficAdapter) : Prop
    extends EndsIn .failedSafe g.traffic.rollbackFails g' where
  failClose : g'.db.pending .failClose = none
  recovery  : g'.db.pendingRecoveryClose = none ↔ g.db.pendingRecoveryClose = none
  rollback  : g'.db.pending .rollback = g.db.pending .rollback

theorem failClose_free {reason : String} {n : Int} (h : g.db.Inv) (hr : g.db.row = some row)
    (hn : row.candidateGeneration = n) (hf : g.FaultFree) :
    Ends (failClose n reason) (fun v g' =>
      (row.state.accepts .failedSafe → (∃ res, v = .ok res ∧ res.classification = .failedSafe) ∧
        FailClosedFree g g') ∧
      (¬row.state.accepts .failedSafe → ∃ e, v = .error e)) g := by
  have hr' := h.getRow.mpr hr
  unfold failClose
  refine wp_row_seq (fun row' hr'' => ?_) (fun e he => by simp [hr'] at he)
  have hrow : row = row' := Except.ok.inj (hr'.symm.trans hr'')
  subst hrow hn
  refine wp_raiseIf_seq (fun h => absurd rfl h) fun _ => wp_append_seq trivial ?_
  have hinv : (g.db.append row.candidateGeneration .intent .failClose (some row.state) none
      (some "closed") (.obj [("reason", .str reason)]) none).Inv := Note.inv .failCloseIntent h hr
  refine Ends.hit ⟨hf.gate, hf.adapter⟩ <| Ends.tryCloseAll hf.adapter ?_
  refine Ends.hit ⟨hf.gate, hf.adapter⟩ <| Ends.tryQueryRoute ⟨hf.gate, hf.adapter⟩ ?_
  refine Ends.transition hr' (fun ha => wp_pure.mpr ?_) fun ha _ => ?_
  · refine ⟨fun _ => ⟨⟨_, rfl, rfl⟩, ⟨⟨hf.gate, hf.adapter⟩, rfl, rfl⟩, ?_, ?_, ?_⟩,
      fun hna => absurd ha hna⟩
    · exact pending_moved_receipt hinv
    · exact (noRecovery_moved_iff (hinv.row row hr) (by simp) (by simp [GateOperation.scope])).trans
        (noRecovery_append_iff (h.row row hr) (by simp) (by simp [GateOperation.scope]))
    · exact (pending_moved_of_ne (by simp)).trans (pending_append_of_ne (by simp))
  · exact ⟨fun ha' => absurd ha' ha, fun _ => ⟨_, rfl⟩⟩

-- A branch of `reconcile` tries to end the gate in `s` and raises if that is not allowed. `Left`
-- says what it leaves to the next `reconcile`.
def Tries (row : GateRow) (s : GateState) (Left : GateDb → Prop)
    (m : M DeterministicTrafficAdapter GateState) (g : Gate DeterministicTrafficAdapter) : Prop :=
  Ends m (fun v g' =>
    (row.state.accepts s → v = .ok s ∧ EndsIn s g.traffic.rollbackFails g' ∧ Left g'.db) ∧
    (¬row.state.accepts s → ∃ e, v = .error e)) g

theorem reconcileFailClose_free (h : g.db.Inv) (hs : g.db.Scoped) (hr : g.db.row = some row)
    (hf : g.FaultFree) (hp : g.db.pending .failClose = some intent) :
    Tries row (closeClass (.ok g.traffic.route)).target (fun db =>
        db.pending .failClose = none ∧
        (db.pendingRecoveryClose = none ↔ g.db.pendingRecoveryClose = none) ∧
        db.pending .rollback = g.db.pending .rollback)
      (reconcileFailClose row intent) g := by
  have hscope := hs.of_latest (latest_of_pending hp) (by simp)
  unfold reconcileFailClose
  refine Ends.tryQueryRoute hf <| Ends.transition (h.getRow.mpr hr) (fun ha => wp_pure.mpr ?_)
    fun ha _ => ⟨fun ha' => absurd ha' ha, fun _ => ⟨_, rfl⟩⟩
  refine ⟨fun _ => ⟨rfl, ⟨⟨hf.gate, hf.adapter⟩, state?_moved onlyRoute_recordRoute, rfl⟩, ?_, ?_, ?_⟩,
    fun hna => absurd ha hna⟩
  · exact pending_moved_receipt h
  · exact noRecovery_moved_iff (h.row row hr) (by simp) hscope
  · exact pending_moved_of_ne (by simp)

theorem reconcileRollback_free (h : g.db.Inv) (hs : g.db.Scoped) (hr : g.db.row = some row)
    (hf : g.FaultFree) (hnf : g.db.pending .failClose = none)
    (hnc : g.db.pendingRecoveryClose = none) (hp : g.db.pending .rollback = some intent) :
    Tries row (rollbackClass row (.ok g.traffic.route)).target Idle
      (reconcileRollback row intent) g := by
  have hscope := hs.of_latest (latest_of_pending hp) (by simp)
  unfold reconcileRollback
  refine Ends.tryQueryRoute hf <| Ends.transition (h.getRow.mpr hr) (fun ha => wp_pure.mpr ?_)
    fun ha _ => ⟨fun ha' => absurd ha' ha, fun _ => ⟨_, rfl⟩⟩
  refine ⟨fun _ => ⟨rfl, ⟨⟨hf.gate, hf.adapter⟩, rfl, rfl⟩, ?_, ?_, ?_⟩, fun hna => absurd ha hna⟩
  · exact (pending_moved_of_ne (by simp)).trans hnf
  · refine (noRecovery_moved_iff (h.row row hr) (by simp) ?_).mpr hnc
    exact hscope
  · exact pending_moved_receipt h

theorem reconcileRecoveryClose_free (h : g.db.Inv) (hs : g.db.Scoped) (hr : g.db.row = some row)
    (hf : g.FaultFree) (hnf : g.db.pending .failClose = none)
    (hp : g.db.pendingRecoveryClose = some intent) :
    Tries row .failedSafe (fun db => db.pending .failClose = none ∧
        db.pendingRecoveryClose = none ∧ db.pending .rollback = g.db.pending .rollback)
      (reconcileRecoveryClose row intent) g := by
  have hrow := h.row row hr
  have hid : intent.operationId = ⟨.openReconcileClose, row.candidateGeneration⟩ := by
    have := List.find?_some hp
    exact hrow.recoveryId intent (List.mem_of_find?_eq_some hp) (by simp_all)
  have ⟨openIntent, hi⟩ : ∃ t, g.db.latest .open .intent = some t := by
    rw [latest_openIntents]
    exact Option.isSome_iff_exists.mp (by simpa using (hrow.recovery (by simp [hp])).right)
  have hscope := hs.of_latest hi (by simp)
  unfold reconcileRecoveryClose recordRecoveryClose
  refine Ends.hit hf <| Ends.tryCloseAll hf.adapter <| Ends.hit ⟨hf.gate, hf.adapter⟩ ?_
  refine Ends.tryQueryRoute ⟨hf.gate, hf.adapter⟩ <| Ends.hit ⟨hf.gate, hf.adapter⟩ ?_
  refine wp_lift_seq (fun t ht => ?_) (fun e he => by simp [hi] at he)
  have he : openIntent = t := by simpa [hi] using ht
  subst he
  refine wp_transitionAfter_seq trivial (fun row' hr' ha => wp_pure.mpr ?_) fun e hna => ?_
  case refine_1 =>
    have hrow' : row = row' := Except.ok.inj ((h.getRow.mpr hr).symm.trans hr')
    subst hrow'
    have hinv : (g.db.append row.candidateGeneration .receipt .openReconcileCloseAll
        (some .opening) none (some "closed") (.obj [("actual_route", asdict (.ok RouteState.closed))])
        (some intent.operationId)).Inv := append_inv h hr (by simp) (by simp [hid]) (by simp)
    refine ⟨fun _ => ⟨rfl, ⟨⟨hf.gate, hf.adapter⟩, rfl, rfl⟩, ?_, ?_, ?_⟩, fun hna => absurd ha hna⟩
    · exact (pending_moved_of_ne (by simp)).trans ((pending_append_of_ne (by simp)).trans hnf)
    · refine (noRecovery_moved_iff (hinv.row row hr) (by simp) ?_).mpr ?_
      · exact hscope
      · exact noRecovery_cons_receipt hrow rfl rfl hid
    · exact (pending_moved_of_ne (by simp)).trans (pending_append_of_ne (by simp))
  case refine_2 =>
    have hna := hna row (h.getRow.mpr hr)
    exact ⟨fun ha => absurd ha hna, fun _ => ⟨e, rfl⟩⟩

theorem cancelOpen_free {reason : String} {n : Int} (h : g.db.Inv) (hs : g.db.Scoped)
    (hr : g.db.row = some row) (hst : row.state = .opening) (hn : row.candidateGeneration = n)
    (hi : g.db.latest .open .intent = some intent) (hf : g.FaultFree) (hidle : g.db.Idle) :
    Tries row .failedSafe Idle (cancelOpen intent n reason) g := by
  have hscope := hs.of_latest hi (by simp)
  unfold Tries Ends cancelOpen
  refine wp_append_seq trivial ?_
  have hinv : (g.db.append row.candidateGeneration .receipt .open (some .opening) none intent.fence
      (.obj [("cancelled", .str reason)]) (some intent.operationId)).Inv :=
    append_inv h hr (by simp) (by simp) (by simp)
  have ha : row.state.accepts .failedSafe := by simp [hst, GateState.accepts, GateState.allowed]
  subst hn
  refine wp_seq (failClose_free hinv hr rfl ⟨hf.gate, hf.adapter⟩) (fun res g' hres => ?_)
    fun e g' he => ?_
  case refine_1 =>
    obtain ⟨⟨res', he, hc⟩, hfree⟩ := hres.left ha
    injection he with he
    subst he
    refine wp_pure.mpr ⟨fun _ => ⟨by simp [hc], ⟨hfree.faultFree, hfree.state, hfree.rollbackFails⟩, ?_⟩,
      fun hna => absurd ha hna⟩
    refine ⟨hfree.failClose, hfree.recovery.mpr ?_, hfree.rollback.trans ?_⟩
    · refine (noRecovery_append_iff (h.row row hr) (by simp) ?_).mpr hidle.recovery
      exact hscope
    · exact (pending_append_of_ne (by simp)).trans hidle.rollback
  case refine_2 =>
    obtain ⟨⟨_, he, _⟩, _⟩ := he.left ha
    contradiction

theorem reconcileClose_free {n : Int} {actual : RouteState} (h : g.db.Inv) (hs : g.db.Scoped)
    (hr : g.db.row = some row) (hst : row.state = .opening) (hn : row.candidateGeneration = n)
    (hi : g.db.latest .open .intent = some intent) (hf : g.FaultFree) (hidle : g.db.Idle) :
    Tries row .failedSafe Idle (reconcileClose intent n actual) g := by
  have hscope := hs.of_latest hi (by simp)
  unfold Tries Ends reconcileClose
  refine wp_append_seq trivial ?_
  refine Ends.hit ⟨hf.gate, hf.adapter⟩ <| Ends.tryCloseAll hf.adapter ?_
  refine Ends.hit ⟨hf.gate, hf.adapter⟩ <| Ends.tryQueryRoute ⟨hf.gate, hf.adapter⟩ ?_
  refine Ends.hit ⟨hf.gate, hf.adapter⟩ <| wp_append_seq trivial ?_
  subst hn
  have hinv {detail} : (g.db.append row.candidateGeneration .intent .openReconcileCloseAll
      (some .opening) none (some "closed") detail
      (some ⟨.openReconcileClose, row.candidateGeneration⟩)).Inv :=
    append_inv h hr (by simp) (by simp) (by simp [hst])
  have ha : row.state.accepts .failedSafe := by simp [hst, GateState.accepts, GateState.allowed]
  rw [if_neg (by simp [joinErrors])]
  refine Ends.transition (h.getRow.mpr hr) (fun _ => wp_pure.mpr ?_) fun hna => absurd ha hna
  refine ⟨fun _ => ⟨rfl, ⟨⟨hf.gate, hf.adapter⟩, rfl, rfl⟩, ?_⟩, fun hna => absurd ha hna⟩
  refine ⟨?_, ?_, ?_⟩
  · exact (pending_moved_of_ne (by simp)).trans ((pending_append_of_ne (by simp)).trans
      ((pending_append_of_ne (by simp)).trans hidle.failClose))
  · refine (noRecovery_moved_iff ((append_inv hinv hr (by simp) (by simp) (by simp)).row row hr)
      (by simp) ?_).mpr ?_
    · exact hscope
    · exact noRecovery_cons_receipt (hinv.row row hr) rfl rfl rfl
  · exact (pending_moved_of_ne (by simp)).trans ((pending_append_of_ne (by simp)).trans
      ((pending_append_of_ne (by simp)).trans hidle.rollback))

-- The open that `reconcile` finds unfinished stands: its lease holds and the route is its own.
def Stands (g : Gate DeterministicTrafficAdapter) (row : GateRow) : Bool :=
  match g.db.latest .open .intent with
  | none        => false
  | some intent => match OpenProof.ofDetail intent.detail with
    | .error _  => false
    | .ok proof => proof.1.digest = proof.2 ∧ proof.1.lease = row.lease ∧
      g.traffic.leaseValid proof.1.lease (g.clock g.ticks) ∧
      ¬candidateMismatch row.candidateGeneration intent.fence proof.1.candidateDigest g.traffic.route

theorem reconcileOpening_free (h : g.db.Inv) (hs : g.db.Scoped) (hr : g.db.row = some row)
    (hst : row.state = .opening) (hf : g.FaultFree) (hidle : g.db.Idle) :
    Tries row (if g.Stands row then .candidateOpen else .failedSafe) Idle
      (reconcileOpening row) g := by
  have ⟨intent, proof, hone, _, hint⟩ := (h.row row hr).phase.of_opening hst
  have hi : g.db.latest .open .intent = some intent := by simp [latest_openIntents, hone]
  have hp : OpenProof.ofDetail intent.detail = .ok (proof, proof.digest) := by
    rw [hint.detail, ofDetail_intentDetail]
  have hscope := hs.of_latest hi (by simp)
  unfold Tries Ends reconcileOpening
  refine wp_lift_seq (fun t ht => ?_) (fun e he => by simp [hi] at he)
  have he : intent = t := by simpa [hi] using ht
  subst he
  refine wp_lift_seq (fun p hp' => ?_) (fun e he => by simp [hp] at he)
  have he : p = (proof, proof.digest) := Except.ok.inj (hp'.symm.trans hp)
  subst he
  refine wp_now_seq <| wp_read_seq ?_
  refine wp_ite.mpr ?_
  split
  case isTrue hc =>
    have hv := (hc.resolve_left (not_not.mpr rfl)).resolve_left (not_not.mpr hint.lease)
    have hst' : g.Stands row = false := by
      simp only [Stands, hi, hp, decide_eq_false_iff_not]
      exact fun h => hv h.right.right.left
    rw [hst']
    exact cancelOpen_free h hs hr hst rfl hi ⟨hf.gate, hf.adapter⟩ hidle
  case isFalse hc =>
    have hv := not_not.mp (not_or.mp (not_or.mp hc).right).right
    refine Ends.tryQueryRoute ⟨hf.gate, hf.adapter⟩ ?_
    refine wp_ite.mpr ?_
    split
    case isTrue hm =>
      have hst' : g.Stands row = false := by
        simp only [Stands, hi, hp, decide_eq_false_iff_not]
        exact fun h => h.right.right.right hm
      rw [hst']
      exact reconcileClose_free h hs hr hst rfl hi ⟨hf.gate, hf.adapter⟩ hidle
    case isFalse hm =>
      have hst' : g.Stands row = true := by
        simp only [Stands, hi, hp, decide_eq_true_eq]
        exact ⟨trivial, hint.lease, hv, hm⟩
      rw [hst']
      have ha : row.state.accepts .candidateOpen := by simp [hst, GateState.accepts, GateState.allowed]
      refine Ends.transition (h.getRow.mpr hr) (fun _ => wp_pure.mpr ?_) fun hna => absurd ha hna
      refine ⟨fun _ => ⟨rfl, ⟨⟨hf.gate, hf.adapter⟩, rfl, rfl⟩, ?_, ?_, ?_⟩, fun hna => absurd ha hna⟩
      · exact (pending_moved_of_ne (by simp)).trans hidle.failClose
      · refine (noRecovery_moved_iff (h.row row hr) (by simp) ?_).mpr hidle.recovery
        exact hscope
      · exact (pending_moved_of_ne (by simp)).trans hidle.rollback

end Reconcile

section Rollback

variable [Sha256] {row : GateRow}

-- The class of a rollback in which nothing fails but the adapter's `restore`.
def restoredClass (row : GateRow) : Except Exc RouteState → RollbackClass
  | .ok r    => if isPredecessor row r then .restoredStrong else .failedSafe
  | .error _ => .failedSafe

omit [Sha256] in
theorem closeAfterRestore_free {k : RollbackClass → M DeterministicTrafficAdapter α}
    (hf : g.FaultFree) (hk : ∀ g', g'.FaultFree → g'.db = g.db → Ends (k .failedSafe) Q g') :
    Ends (closeAfterRestore >>= k) Q g := by
  unfold Ends
  refine wp_bind.mpr ?_
  refine Ends.tryCloseAll hf.adapter <| wp_readRoute_seq <| wp_pure.mpr ?_
  exact hk _ ⟨hf.gate, hf.adapter⟩ rfl

omit [Sha256] in
theorem restoreOutcome_free {v : Except Exc RouteState}
    {k : RollbackClass → M DeterministicTrafficAdapter α} (hf : g.FaultFree)
    (hk : ∀ g', g'.FaultFree → g'.db = g.db → Ends (k (restoredClass row v)) Q g') :
    Ends (restoreOutcome row none v.toOption >>= k) Q g := by
  have hc (he : restoredClass row v = .failedSafe) : Ends (closeAfterRestore >>= k) Q g :=
    closeAfterRestore_free hf fun g' hf' hd => he ▸ hk g' hf' hd
  unfold Ends restoreOutcome
  refine wp_bind.mpr <| wp_read_seq ?_
  cases v
  case error e => exact wp_bind.mp (hc rfl)
  case ok r =>
    refine wp_ite.mpr ?_
    split
    case isTrue hp  =>
      have hk' := hk g hf rfl
      simp only [restoredClass, hp, if_true] at hk'
      exact wp_pure.mpr hk'
    case isFalse hp =>
      rw [if_neg (by simp [BehavioralOracleResult.accepts])]
      exact wp_bind.mp (hc (by simp [restoredClass, hp]))

theorem rollback_free {n : Int} (h : g.db.Inv) (hr : g.db.row = some row)
    (hn : row.candidateGeneration = n) (hf : g.FaultFree) :
    Ends (rollback n none) (fun v _ =>
      (row.state.accepts (restoredClass row (restoreCall row g.traffic).1).target →
        v = .ok (restoredClass row (restoreCall row g.traffic).1)) ∧
      (¬row.state.accepts (restoredClass row (restoreCall row g.traffic).1).target →
        ∃ e, v = .error e)) g := by
  have hr' := h.getRow.mpr hr
  unfold Ends rollback
  refine wp_row_seq (fun row' hr'' => ?_) (fun e he => by simp [hr'] at he)
  have hrow : row = row' := Except.ok.inj (hr'.symm.trans hr'')
  subst hrow hn
  refine wp_raiseIf_seq (fun h => absurd rfl h) fun _ => wp_append_seq trivial ?_
  refine Ends.hit ⟨hf.gate, hf.adapter⟩ <| wp_tryRestore_seq trivial fun v hv => ?_
  have he : (restoreCall row g.traffic).1 = v := congrArg Prod.fst hv
  rw [he]
  have hfr : (restoreCall row g.traffic).2.faults = [] := by
    simp only [restoreCall, TrafficAdapter.restore, restore]
    split
    all_goals exact hf.adapter
  refine restoreOutcome_free ⟨hf.gate, hfr⟩ fun g' hf' hd => Ends.hit hf' <| wp_readRoute_seq ?_
  have hr₂ : (g'.addRead (TrafficAdapter.route g'.traffic)).db.getRow = .ok row := by
    rw [addRead_db, hd]
    exact hr'
  refine Ends.transition hr₂ (fun ha => wp_pure.mpr ?_) fun ha _ => ?_
  · exact ⟨fun _ => rfl, fun hna => absurd ha hna⟩
  · exact ⟨fun ha' => absurd ha' ha, fun _ => ⟨_, rfl⟩⟩

end Rollback

end Gate
