import ExtManager.Gate.Calls
import ExtManager.Gate.Recovery

open Crash Prog Relation GateDb

-- The columns in which a recovery is compared with the operation that it recovers.
structure GateOutcome where
  state                   : GateState
  routeGeneration         : Option Int
  routeFence              : String
  observedCandidateDigest : Option String
  deriving DecidableEq

def GateRow.outcome (row : GateRow) : GateOutcome where
  state                   := row.state
  routeGeneration         := row.routeGeneration
  routeFence              := row.routeFence
  observedCandidateDigest := row.observedCandidateDigest

namespace Gate

-- A point at which the gate or its adapter may raise an `InjectedCrash`.
inductive FaultPoint
  | gate (name : String)
  | adapter (name : String)

def FaultPoint.name : FaultPoint → String
  | .gate name | .adapter name => name

-- The gate with one fault point.
def armed (g : Gate DeterministicTrafficAdapter) : FaultPoint → Gate DeterministicTrafficAdapter
  | .gate name    => g.setFaults [name]
  | .adapter name => g.setTraffic { g.traffic with faults := [name] }

-- The fault points of an operation that lie behind its effect on the traffic.
def Op.later : Op → List FaultPoint
  | .open _ _      => [.adapter "open.after", .gate "open.after_side_effect",
    .adapter "route.query", .gate "open.after_query"]
  | .rollback _ _  => [.gate "rollback.after_effect"]
  | .failClose _ _ => [.gate "fail_close.after_effect"]
  | _              => []

def outcome? {τ : Type} (g : Gate τ) : Option GateOutcome :=
  g.db.row.map GateRow.outcome

-- The gate object of a new process, with a clock of its own.
def resumed {τ : Type} (g : Gate τ) (clock : Nat → Int) (ticks : Nat) : Gate τ :=
  { g with clock := clock, ticks := ticks }

variable [Sha256] {g g' g₂ : Gate DeterministicTrafficAdapter} {row : GateRow} {n : Int}

-- The operation was interrupted at a fault point.
structure Interrupted (op : Op) (p : FaultPoint) (g g' : Gate DeterministicTrafficAdapter) :
    Prop where
  value : (op.run (g.armed p).start).value = .error (.injectedCrash p.name)
  state : (op.run (g.armed p).start).state = g'

-- `reconcile` returns and leaves the gate as the operation has left it that was not interrupted.
def Reproduces (g g' : Gate DeterministicTrafficAdapter) : Prop :=
  ∃ s g'', Returned reconcile s g g'' ∧ g''.outcome? = g'.outcome?

section Rules

variable {α : Type} {m : M DeterministicTrafficAdapter α} {P : Gate DeterministicTrafficAdapter → Prop}
variable {Q : Except Exc α → Gate DeterministicTrafficAdapter → Prop}

omit [Sha256] in
theorem void_value {s : Gate DeterministicTrafficAdapter} :
    ((void m) s).value = (m s).value.map (fun _ => ()) ∧ ((void m) s).state = (m s).state := by
  simp only [void, Bind.bind, Prog.bind]
  rcases m s with ⟨t, v, s'⟩
  cases v <;> exact ⟨rfl, rfl⟩

omit [Sha256] in
theorem of_completed (hc : Returned (void m) () g g')
    (h : Ends m (fun v g' => ∀ a, v = .ok a → P g') g.start) : P g' := by
  have ⟨hv, hs⟩ := hc
  rw [void_value.left] at hv
  rw [void_value.right] at hs
  have hp := h.right
  cases hm : (m g.start).value
  case ok a    => exact hs ▸ hp a hm
  case error e => simp [hm, Except.map] at hv

omit [Sha256] in
theorem of_interrupted {e : Exc} {s : Gate DeterministicTrafficAdapter}
    (hv : ((void m) s).value = .error e) (hs : ((void m) s).state = g')
    (h : Ends m (fun v g' => v = .error e → P g') s) : P g' := by
  rw [void_value.left] at hv
  rw [void_value.right] at hs
  have hp := h.right
  cases hm : (m s).value
  case ok a    => simp [hm, Except.map] at hv
  case error e => exact hs ▸ hp (by simpa [hm, Except.map] using hv)

omit [Sha256] in
theorem of_returned {a : α} (hc : Returned m a g g')
    (h : Ends m (fun v g' => ∀ a, v = .ok a → P g') g.start) : P g' :=
  hc.right ▸ h.right a hc.left

namespace Ends

variable {point : String} {k : Unit → M DeterministicTrafficAdapter α}

omit [Sha256] in
theorem getRow {k : GateRow → M DeterministicTrafficAdapter α} (hr : g.db.getRow = .ok row)
    (hk : Ends (k row) Q g) : Ends (Gate.row >>= k) Q g := by
  refine wp_row_seq (fun row' hr' => ?_) (fun e he => by simp [hr] at he)
  exact Except.ok.inj (hr.symm.trans hr') ▸ hk

omit [Sha256] in
theorem pass (h : point ∉ g.faults) (hk : Ends (k ()) Q g) : Ends (Gate.hit point >>= k) Q g := by
  simp only [Ends, wp_bind, Gate.hit, wp_silent, h, if_false]
  exact hk

omit [Sha256] in
theorem stop (h : point ∈ g.faults)
    (hq : Q (.error (.injectedCrash point)) (g.setFaults (g.faults.filter (· ≠ point)))) :
    Ends (Gate.hit point >>= k) Q g := by
  simp only [Ends, wp_bind, Gate.hit, wp_silent, h, if_true]
  exact hq

end Ends

end Rules

omit [Sha256] in
theorem state?_of_outcome {o : GateOutcome} (h : g.outcome? = some o) : g.state? = some o.state := by
  obtain ⟨row, hr, rfl⟩ := Option.map_eq_some_iff.mp h
  exact Option.map_eq_some_iff.mpr ⟨row, hr, rfl⟩

theorem Interrupted.sound {op : Op} {p : FaultPoint} (h : g.db.Sound) (hi : Interrupted op p g g') :
    g'.db.Sound := by
  have h' : (g.armed p).db.Sound := by
    cases p <;> exact h
  have hm : g' ∈ op.ends (g.armed p) := by
    rw [Op.ends, ← hi.state]
    exact List.mem_append_right _ (List.mem_singleton.mpr rfl)
  exact Op.ends_sound h' hm

-- What `reconcile` makes of the row, where it returns.
section Reconcile

variable {intent : GateTransition}

theorem reconcile_failClose (h : g.db.Inv) (hr : g.db.row = some row) (hf : g.FaultFree)
    (hp : g.db.pending .failClose = some intent) :
    Ends reconcile (fun v g' => ∀ s, v = .ok s → g'.outcome? = some
      ⟨(closeClass (.ok g.traffic.route)).target, g.traffic.route.generation,
        g.traffic.route.fence, row.observedCandidateDigest⟩) g := by
  unfold reconcile
  refine Ends.getRow (h.getRow.mpr hr) <| wp_read_seq ?_
  simp only [hp]
  refine Ends.tryQueryRoute hf <| Ends.transition (h.getRow.mpr hr) (fun _ => wp_pure.mpr ?_)
    fun _ _ _ he => nomatch he
  exact fun _ _ => rfl

theorem reconcile_rollback (h : g.db.Inv) (hr : g.db.row = some row) (hf : g.FaultFree)
    (hnf : g.db.pending .failClose = none) (hnr : g.db.pendingRecoveryClose = none)
    (hp : g.db.pending .rollback = some intent) :
    Ends reconcile (fun v g' => ∀ s, v = .ok s → g'.outcome? = some
      ⟨(rollbackClass row (.ok g.traffic.route)).target, row.routeGeneration, row.routeFence,
        row.observedCandidateDigest⟩) g := by
  unfold reconcile
  refine Ends.getRow (h.getRow.mpr hr) <| wp_read_seq ?_
  simp only [hnf, hnr, hp]
  refine Ends.tryQueryRoute hf <| Ends.transition (h.getRow.mpr hr) (fun _ => wp_pure.mpr ?_)
    fun _ _ _ he => nomatch he
  exact fun _ _ => rfl

theorem reconcile_open {proof : OpenProof} (h : g.db.Inv) (hr : g.db.row = some row)
    (hf : g.FaultFree) (hidle : g.db.Idle) (hst : row.state = .opening)
    (hi : g.db.latest .open .intent = some intent)
    (hp : OpenProof.ofDetail intent.detail = .ok (proof, proof.digest)) (hl : proof.lease = row.lease)
    (hv : TrafficAdapter.leaseValid row.lease (g.clock g.ticks) g.traffic)
    (hm : ¬candidateMismatch row.candidateGeneration intent.fence proof.candidateDigest g.traffic.route) :
    Ends reconcile (fun v g' => v = .ok .candidateOpen ∧ g'.outcome? = some
      ⟨.candidateOpen, some row.candidateGeneration, g.traffic.route.fence,
        some (digestOf g.traffic.route.snapshot)⟩) g := by
  unfold reconcile
  refine Ends.getRow (h.getRow.mpr hr) <| wp_read_seq ?_
  simp only [hidle.failClose, hidle.recovery, hidle.rollback, hst, ne_eq, not_true_eq_false, if_false]
  unfold reconcileOpening
  refine wp_lift_seq (fun t ht => ?_) (fun e he => by simp [hi] at he)
  have he : intent = t := by simpa [hi] using ht
  subst he
  refine wp_lift_seq (fun p hp' => ?_) (fun e he => by simp [hp] at he)
  have he : p = (proof, proof.digest) := Except.ok.inj (hp'.symm.trans hp)
  subst he
  refine wp_now_seq <| wp_read_seq ?_
  rw [if_neg (by simpa [hl] using hv)]
  refine Ends.tryQueryRoute ⟨hf.gate, hf.adapter⟩ ?_
  refine wp_ite.mpr ?_
  rw [if_neg (show ¬candidateMismatch _ _ _ g.tick.traffic.route from hm)]
  have ha : row.state.accepts .candidateOpen := by simp [hst, GateState.accepts, GateState.allowed]
  refine Ends.transition (h.getRow.mpr hr) (fun _ => wp_pure.mpr ?_) fun hna => absurd ha hna
  exact ⟨rfl, rfl⟩

end Reconcile

section FailClose

variable {reason : String}

theorem failClose_ends (h : g.db.Inv) (hr : g.db.row = some row) (hf : g.FaultFree) :
    Ends (failClose n reason) (fun v g' => ∀ a, v = .ok a → row.state.accepts .failedSafe ∧
      g'.outcome? = some ⟨.failedSafe, none, "closed", row.observedCandidateDigest⟩) g := by
  unfold failClose
  refine Ends.getRow (h.getRow.mpr hr) <| wp_raiseIf_seq (fun _ _ he => nomatch he) fun _ => ?_
  refine wp_append_seq trivial <| Ends.hit ⟨hf.gate, hf.adapter⟩ <| Ends.tryCloseAll hf.adapter ?_
  refine Ends.hit ⟨hf.gate, hf.adapter⟩ <| Ends.tryQueryRoute ⟨hf.gate, hf.adapter⟩ ?_
  refine Ends.transition (h.getRow.mpr hr) (fun ha => wp_pure.mpr ?_) fun _ _ _ he => nomatch he
  exact fun _ _ => ⟨ha, rfl⟩

-- The gate after the effect of a fail-close.
structure Closed (g : Gate DeterministicTrafficAdapter) (row : GateRow) (n : Int)
    (g' : Gate DeterministicTrafficAdapter) : Prop where
  generation : row.candidateGeneration = n
  faultFree : g'.FaultFree
  route : g'.traffic.route = .closed
  db : ∃ detail, g'.db =
    g.db.append n .intent .failClose (some row.state) none (some "closed") detail none

theorem closed_of_interrupted (h : g.db.Inv) (hr : g.db.row = some row) (hf : g.FaultFree)
    (hi : Interrupted (.failClose n reason) (.gate "fail_close.after_effect") g g') :
    Closed g row n g' := by
  refine of_interrupted (m := failClose n reason) hi.value hi.state ?_
  unfold failClose
  refine Ends.getRow (h.getRow.mpr hr) <| wp_raiseIf_seq (fun _ he => nomatch he) fun hn => ?_
  refine wp_append_seq trivial <| Ends.pass (by simp [armed, start]) ?_
  refine Ends.tryCloseAll hf.adapter <| Ends.stop (by simp [armed, start]) fun _ => ?_
  exact ⟨not_not.mp hn, ⟨by simp [armed, start], hf.adapter⟩, rfl, _, rfl⟩

-- An interrupted fail-close is always brought to the end that it would have come to.
theorem failClose_reproduces {p : FaultPoint} {clock : Nat → Int} {ticks : Nat} (h : g.db.Sound)
    (hr : g.db.row = some row) (hf : g.FaultFree) (hp : p ∈ (Op.failClose n reason).later)
    (hi : Interrupted (.failClose n reason) p g g')
    (hc : Returned (Op.failClose n reason).run () g g₂) : (g'.resumed clock ticks).Reproduces g₂ := by
  rw [Op.later, List.mem_singleton] at hp
  subst hp
  have ⟨ha, hout⟩ := of_completed (m := failClose n reason) hc
    (failClose_ends (g := g.start) h.toInv hr ⟨hf.gate, hf.adapter⟩)
  have hcl := closed_of_interrupted h.toInv hr hf hi
  have hs := hi.sound h
  obtain ⟨detail, hdb⟩ := hcl.db
  have hr' : g'.db.row = some row := hdb ▸ hr
  have hp : ∃ intent, g'.db.pending .failClose = some intent := by
    rw [hdb]
    exact ⟨_, pending_cons_intent h.seq rfl rfl rfl rfl⟩
  obtain ⟨intent, hp⟩ := hp
  have hfree : (g'.resumed clock ticks).FaultFree := ⟨hcl.faultFree.gate, hcl.faultFree.adapter⟩
  have hd : (g'.resumed clock ticks).decision row = .failedSafe := by
    have hcc : closeClass (.ok (g'.resumed clock ticks).traffic.route) = .failedSafe := by
      simp [resumed, hcl.route, closeClass, isClosed, RouteState.isClosed, RouteState.closed]
    have hp' : (g'.resumed clock ticks).db.pending .failClose = some intent := hp
    simp [decision, hp', hcc, RollbackClass.target]
  obtain ⟨g'', hret⟩ := reconciles_of_accepts (g := g'.resumed clock ticks) hs hr' hfree (hd ▸ ha)
  refine ⟨_, g'', hret, ?_⟩
  rw [of_returned hret (reconcile_failClose (g := (g'.resumed clock ticks).start) hs.toInv hr'
    ⟨hfree.gate, hfree.adapter⟩ hp), hout]
  simp [resumed, start, hcl.route, closeClass, isClosed, RouteState.isClosed, RouteState.closed,
    RollbackClass.target]

end FailClose

section Rollback

variable {oracle : Option BehavioralOracleResult}

-- An adapter that restores what it is told to.
structure Restores (t : DeterministicTrafficAdapter) : Prop where
  rollbackFails : t.rollbackFails = false
  behavioralRestore : t.behavioralRestore = false

def predecessorRoute (row : GateRow) : RouteState :=
  ⟨some row.predecessorGeneration, predecessorFence row.predecessorGeneration, row.predecessor⟩

omit [Sha256] in
theorem isPredecessor_predecessorRoute : isPredecessor row (predecessorRoute row) := by
  simp [isPredecessor, predecessorRoute]

omit [Sha256] in
theorem restoreCall_eq {t : DeterministicTrafficAdapter} (h : Restores t) :
    restoreCall row t = (.ok (predecessorRoute row), { t with route := predecessorRoute row }) := by
  simp [restoreCall, TrafficAdapter.restore, DeterministicTrafficAdapter.restore, h.rollbackFails,
    h.behavioralRestore, predecessorRoute]

omit [Sha256] in
-- A rollback comes behind its effect with the predecessor's route.
theorem Ends.restored {α : Type} {k : RollbackClass → M DeterministicTrafficAdapter α}
    {Q : Except Exc α → Gate DeterministicTrafficAdapter → Prop} (h : Restores g.traffic)
    (hk : Ends (k .restoredStrong) Q (g.setTraffic { g.traffic with route := predecessorRoute row })) :
    Ends (tryRestore row >>= fun restored => restoreOutcome row oracle restored >>= k) Q g := by
  refine wp_tryRestore_seq trivial fun v hv => ?_
  rw [restoreCall_eq h] at hv
  cases hv
  rw [restoreCall_eq h]
  refine wp_bind.mpr ?_
  unfold restoreOutcome
  refine wp_read_seq ?_
  simp only [Except.toOption, isPredecessor_predecessorRoute, if_true]
  exact wp_pure.mpr hk

theorem rollback_ends (h : g.db.Inv) (hr : g.db.row = some row) (hf : g.FaultFree)
    (ht : Restores g.traffic) : Ends (rollback n oracle) (fun v g' => ∀ a, v = .ok a →
      row.state.accepts .rolledBack ∧ g'.outcome? = some ⟨.rolledBack,
        (predecessorRoute row).generation, (predecessorRoute row).fence,
        row.observedCandidateDigest⟩) g := by
  unfold rollback
  refine Ends.getRow (h.getRow.mpr hr) <| wp_raiseIf_seq (fun _ _ he => nomatch he) fun _ => ?_
  refine wp_append_seq trivial <| Ends.hit ⟨hf.gate, hf.adapter⟩ <| Ends.restored ht ?_
  refine Ends.hit ⟨hf.gate, hf.adapter⟩ <| wp_readRoute_seq ?_
  refine Ends.transition (h.getRow.mpr hr) (fun ha => wp_pure.mpr ?_) fun _ _ _ he => nomatch he
  exact fun _ _ => ⟨ha, rfl⟩

-- The gate after the effect of a rollback.
structure Restored (g : Gate DeterministicTrafficAdapter) (row : GateRow) (n : Int)
    (g' : Gate DeterministicTrafficAdapter) : Prop where
  faultFree : g'.FaultFree
  route : g'.traffic.route = predecessorRoute row
  db : ∃ fence detail, g'.db =
    g.db.append n .intent .rollback (some row.state) none fence detail none

theorem restored_of_interrupted (h : g.db.Inv) (hr : g.db.row = some row) (hf : g.FaultFree)
    (ht : Restores g.traffic)
    (hi : Interrupted (.rollback n oracle) (.gate "rollback.after_effect") g g') :
    Restored g row n g' := by
  refine of_interrupted (m := rollback n oracle) hi.value hi.state ?_
  unfold rollback
  refine Ends.getRow (h.getRow.mpr hr) <| wp_raiseIf_seq (fun _ he => nomatch he) fun hn => ?_
  refine wp_append_seq trivial <| Ends.pass (by simp [armed, start]) <| Ends.restored ht ?_
  refine Ends.stop (by simp [armed, start]) fun _ => ?_
  exact ⟨⟨by simp [armed, start], hf.adapter⟩, rfl, _, _, rfl⟩

-- A rollback that was interrupted is brought to its end where no fail-close is pending, but the
-- columns of the route stay as they were before it.
theorem rollback_reproduces_iff {p : FaultPoint} {clock : Nat → Int} {ticks : Nat} (h : g.db.Sound)
    (hr : g.db.row = some row) (hf : g.FaultFree) (ht : Restores g.traffic)
    (hp : p ∈ (Op.rollback n oracle).later) (hi : Interrupted (.rollback n oracle) p g g')
    (hc : Returned (Op.rollback n oracle).run () g g₂) :
    (g'.resumed clock ticks).Reproduces g₂ ↔ g.db.pending .failClose = none ∧
      row.routeGeneration = some row.predecessorGeneration ∧
      row.routeFence = predecessorFence row.predecessorGeneration := by
  rw [Op.later, List.mem_singleton] at hp
  subst hp
  obtain ⟨ha, hout⟩ := of_completed (m := rollback n oracle) hc
    (rollback_ends (g := g.start) h.toInv hr ⟨hf.gate, hf.adapter⟩ ht)
  have hre := restored_of_interrupted h.toInv hr hf ht hi
  have hs := hi.sound h
  obtain ⟨fence, detail, hdb⟩ := hre.db
  have hr' : g'.db.row = some row := hdb ▸ hr
  have hfc : g'.db.pending .failClose = g.db.pending .failClose := hdb ▸ pending_append_of_ne (by simp)
  have hfree : (g'.resumed clock ticks).FaultFree := ⟨hre.faultFree.gate, hre.faultFree.adapter⟩
  have hroute : (g'.resumed clock ticks).traffic.route = predecessorRoute row := hre.route
  have hstates : row.state ≠ .opening ∧ row.state ≠ .failedSafe ∧ row.state ≠ .safetyUnknown := by
    revert ha
    cases row.state <;> decide
  have hrc : g'.db.pendingRecoveryClose = none :=
    (hs.row row hr').noRecovery hstates.left hstates.right.left hstates.right.right
  have hrb : ∃ intent, g'.db.pending .rollback = some intent := by
    rw [hdb]
    exact ⟨_, pending_cons_intent h.seq rfl rfl rfl rfl⟩
  obtain ⟨intent, hrb⟩ := hrb
  rw [← hfc]
  constructor
  · rintro ⟨s, g'', hret, hsame⟩
    obtain ⟨_, hdec, hend, _⟩ := reconcile_spec (g := g'.resumed clock ticks) hret hs hr' hfree
    cases hp : g'.db.pending .failClose
    case some t =>
      have hp' : (g'.resumed clock ticks).db.pending .failClose = some t := hp
      have hst : g''.state? = some .safetyUnknown := by
        rw [hend.state, hdec]
        simp [decision, hp', hroute, closeClass, isClosed, RouteState.isClosed, predecessorRoute,
          RollbackClass.target]
      have hst₂ := state?_of_outcome (hsame.trans hout)
      simp [hst] at hst₂
    case none =>
      have hrec := of_returned hret (reconcile_rollback (g := (g'.resumed clock ticks).start) hs.toInv
        hr' ⟨hfree.gate, hfree.adapter⟩ hp hrc hrb)
      rw [hsame, hout] at hrec
      have heq := Option.some.inj hrec
      exact ⟨rfl, (congrArg GateOutcome.routeGeneration heq).symm,
        (congrArg GateOutcome.routeFence heq).symm⟩
  · rintro ⟨hp, hg, hfe⟩
    have hclass : rollbackClass row (.ok (g'.resumed clock ticks).traffic.route) = .restoredStrong := by
      simp [rollbackClass, hroute, isPredecessor_predecessorRoute]
    have hd : (g'.resumed clock ticks).decision row = .rolledBack := by
      have hp' : (g'.resumed clock ticks).db.pending .failClose = none := hp
      have hrc' : (g'.resumed clock ticks).db.pendingRecoveryClose = none := hrc
      have hrb' : (g'.resumed clock ticks).db.pending .rollback = some intent := hrb
      simp [decision, hp', hrc', hrb', hclass, RollbackClass.target]
    obtain ⟨g'', hret⟩ := reconciles_of_accepts (g := g'.resumed clock ticks) hs hr' hfree (hd ▸ ha)
    refine ⟨_, g'', hret, ?_⟩
    rw [of_returned hret (reconcile_rollback (g := (g'.resumed clock ticks).start) hs.toInv hr'
      ⟨hfree.gate, hfree.adapter⟩ hp hrc hrb), hout, hg, hfe]
    exact congrArg (fun c => some (GateOutcome.mk (RollbackClass.target c) _ _ _)) hclass

end Rollback

section Open

variable {proof : OpenProof}

def candidateRoute (row : GateRow) (n : Int) (fence : String) : RouteState :=
  ⟨some n, fence, row.candidate⟩

namespace Ends

variable {α : Type} {Q : Except Exc α → Gate DeterministicTrafficAdapter → Prop} {fence : String}
variable {now : Int} {lease : LeaseGrant}

omit [Sha256] in
theorem openCall {k : Unit → M DeterministicTrafficAdapter α} (hb : "open.before" ∉ g.traffic.faults)
    (ha : "open.after" ∉ g.traffic.faults) (he : ∀ message, Q (.error (.gate message)) g)
    (hk : Ends (k ()) Q (g.setTraffic { g.traffic with route := candidateRoute row n fence })) :
    Ends (call (TrafficAdapter.open n fence row.candidate lease now) >>= k) Q g := by
  unfold Ends
  by_cases hl : g.traffic.authority ≠ lease ∨ lease.expiresAt < now
  case pos =>
    simp only [wp_bind, call, wp_act, true_and, TrafficAdapter.open,
      DeterministicTrafficAdapter.open, DeterministicTrafficAdapter.hit, hb, if_false, if_pos hl]
    exact he _
  case neg =>
    simp only [wp_bind, call, wp_act, true_and, TrafficAdapter.open,
      DeterministicTrafficAdapter.open, DeterministicTrafficAdapter.hit, hb, ha, if_false, if_neg hl]
    exact hk

omit [Sha256] in
theorem openCall_stop {k : Unit → M DeterministicTrafficAdapter α}
    (hf : g.traffic.faults = ["open.after"]) (he : ∀ message, Q (.error (.gate message)) g)
    (hq : Q (.error (.injectedCrash "open.after"))
      (g.setTraffic { g.traffic with route := candidateRoute row n fence, faults := [] })) :
    Ends (call (TrafficAdapter.open n fence row.candidate lease now) >>= k) Q g := by
  unfold Ends
  have hb : "open.before" ∉ g.traffic.faults := by simp [hf]
  by_cases hl : g.traffic.authority ≠ lease ∨ lease.expiresAt < now
  case pos =>
    simp only [wp_bind, call, wp_act, true_and, TrafficAdapter.open,
      DeterministicTrafficAdapter.open, DeterministicTrafficAdapter.hit, hb, if_false, if_pos hl]
    exact he _
  case neg =>
    simp only [wp_bind, call, wp_act, true_and, TrafficAdapter.open,
      DeterministicTrafficAdapter.open, DeterministicTrafficAdapter.hit, hb, if_false, if_neg hl]
    simpa [hf, candidateRoute] using hq

omit [Sha256] in
theorem queryRoute_stop {k : RouteState → M DeterministicTrafficAdapter α}
    (hf : g.traffic.faults = ["route.query"])
    (hq : Q (.error (.injectedCrash "route.query")) (g.setTraffic { g.traffic with faults := [] })) :
    Ends (Gate.queryRoute >>= k) Q g := by
  unfold Ends
  simp only [wp_bind, Gate.queryRoute, wp_act, true_and, TrafficAdapter.queryRoute,
    DeterministicTrafficAdapter.queryRoute, DeterministicTrafficAdapter.hit, hf]
  simpa using hq

end Ends

-- The gate behind the effect of an open: only the adapter has changed.
structure Effected (g : Gate DeterministicTrafficAdapter) (route : RouteState)
    (g' : Gate DeterministicTrafficAdapter) : Prop where
  faultFree : g'.FaultFree
  route : g'.traffic.route = route
  db : g'.db = g.db

theorem openEffect_interrupted {p : FaultPoint} {fence : String} (hf : g.FaultFree)
    (hp : p ∈ (Op.open n proof).later) : Ends (openEffect row n proof fence)
      (fun v g' => v = .error (.injectedCrash p.name) → Effected g (candidateRoute row n fence) g')
      (g.armed p) := by
  unfold openEffect
  simp only [Op.later, List.mem_cons, List.not_mem_nil, or_false] at hp
  -- the fault points in the order of the code
  rcases hp with rfl | rfl | rfl | rfl
  · refine Ends.pass (by simp [armed, hf.gate]) <| wp_now_seq ?_
    refine Ends.openCall_stop rfl (fun _ he => by cases he) fun _ => ?_
    exact ⟨⟨hf.gate, rfl⟩, rfl, rfl⟩
  · refine Ends.pass (by simp [armed]) <| wp_now_seq ?_
    refine Ends.openCall (by simp [armed, hf.adapter]) (by simp [armed, hf.adapter])
      (fun _ he => by cases he) <| Ends.stop (by simp [armed]) fun _ => ?_
    exact ⟨⟨by simp [armed], hf.adapter⟩, rfl, rfl⟩
  · refine Ends.pass (by simp [armed, hf.gate]) <| wp_now_seq ?_
    refine Ends.openCall (by simp [armed]) (by simp [armed]) (fun _ he => by cases he) ?_
    refine Ends.pass (by simp [armed, hf.gate]) <| Ends.queryRoute_stop rfl fun _ => ?_
    exact ⟨⟨hf.gate, rfl⟩, rfl, rfl⟩
  · refine Ends.pass (by simp [armed]) <| wp_now_seq ?_
    refine Ends.openCall (by simp [armed, hf.adapter]) (by simp [armed, hf.adapter])
      (fun _ he => by cases he) <| Ends.pass (by simp [armed]) ?_
    refine Ends.queryRoute hf.adapter <| Ends.stop (by simp [armed]) fun _ => ?_
    exact ⟨⟨by simp [armed], hf.adapter⟩, rfl, rfl⟩

omit [Sha256] in
theorem armed_db {p : FaultPoint} : (g.armed p).db = g.db := by
  cases p <;> rfl

-- The gate behind the effect of an open.
structure OpenedCut (g : Gate DeterministicTrafficAdapter) (row : GateRow) (n : Int)
    (proof : OpenProof) (g' : Gate DeterministicTrafficAdapter) : Prop where
  generation : row.candidateGeneration = n
  digest : proof.candidateDigest = row.candidateDigest
  lease : proof.lease = row.lease
  state : row.state = .candidateClosed
  faultFree : g'.FaultFree
  route : g'.traffic.route = candidateRoute row n (candidateFence n proof row.transitionSeq)
  db : g'.db = announced g.db row proof

omit [Sha256] in
theorem closed_of_accepts {s : GateState} (ha : s.accepts .opening) (hs : s ≠ .opening) :
    s = .candidateClosed := by
  revert ha hs
  cases s <;> decide

omit [Sha256] in
theorem expectedPlan_error {candidate : Json} {e : Exc} (h : expectedPlan candidate = .error e) :
    e = .other "plan_id" := by
  unfold expectedPlan at h
  split at h
  case h_1 => cases h
  case h_2 =>
    split at h <;> cases h
    rfl

theorem opened_of_interrupted {p : FaultPoint} (h : g.db.Inv) (hr : g.db.row = some row)
    (hf : g.FaultFree) (hp : p ∈ (Op.open n proof).later)
    (hi : Interrupted (.open n proof) p g g') : OpenedCut g row n proof g' := by
  refine of_interrupted (m := Gate.open n proof) hi.value hi.state ?_
  have hr' : (g.armed p).start.db.getRow = .ok row := by
    rw [start, armed_db]
    exact h.getRow.mpr hr
  have hb : "open.before_intent" ∉ (g.armed p).faults := by
    simp only [Op.later, List.mem_cons, List.not_mem_nil, or_false] at hp
    rcases hp with rfl | rfl | rfl | rfl <;> simp [armed, hf.gate]
  unfold Gate.open
  refine Ends.getRow hr' <| wp_raiseIf_seq (fun _ he => by cases he) fun hn => ?_
  obtain rfl := not_not.mp (not_or.mp hn).right
  refine wp_lift_seq (fun _ _ => ?_) (fun e he => ?_)
  · refine wp_raiseIf_seq (fun _ he => by cases he) fun _ => ?_
    refine wp_raiseIf_seq (fun _ he => by cases he) fun hd => ?_
    refine wp_raiseIf_seq (fun _ he => by cases he) fun _ => wp_now_seq <| wp_read_seq ?_
    refine wp_raiseIf_seq (fun _ he => by cases he) fun hl => wp_ite.mpr ?_
    split
    case isTrue => exact wp_raiseIf_seq (fun _ he => by cases he) fun _ => wp_pure.mpr fun he => by cases he
    case isFalse =>
      refine wp_ite.mpr ?_
      split
      case isTrue => exact wp_raise.mpr fun he => by cases he
      case isFalse hs =>
        unfold openCandidate
        refine Ends.pass hb <| Ends.transition hr' (fun ha => ?_) fun _ _ he => by cases he
        have harmed : ((g.armed p).start.tick).setDb (announced (g.armed p).start.tick.db row proof) =
            (g.start.tick.setDb (announced g.db row proof)).armed p := by
          cases p <;> rfl
        have hidle : (g.start.tick.setDb (announced g.db row proof)).FaultFree := ⟨hf.gate, hf.adapter⟩
        let fence := candidateFence row.candidateGeneration proof row.transitionSeq
        have he := @openEffect_interrupted _ _ row _ _ p fence hidle hp
        rw [← harmed] at he
        refine wp_mono he (fun v g' heff hv => ?_) fun _ _ => trivial
        have heff := heff hv
        exact ⟨rfl, not_not.mp hd, not_not.mp (not_or.mp hl).left,
          closed_of_accepts ha hs, heff.faultFree, heff.route, heff.db⟩
  · intro hv
    cases hv
    cases expectedPlan_error he

theorem open_ends (h : g.db.Inv) (hr : g.db.row = some row) (hf : g.FaultFree)
    (hs : row.state = .candidateClosed) : Ends (Gate.open n proof) (fun v g' => ∀ a, v = .ok a →
      g'.outcome? = some ⟨.candidateOpen, some n, candidateFence n proof row.transitionSeq,
        some (digestOf row.candidate)⟩) g := by
  have hr' := h.getRow.mpr hr
  unfold Gate.open
  refine Ends.getRow hr' <| wp_raiseIf_seq (fun _ _ he => nomatch he) fun hn => ?_
  obtain rfl := not_not.mp (not_or.mp hn).right
  refine wp_lift_seq (fun _ _ => ?_) (fun _ _ _ he => nomatch he)
  refine wp_raiseIf_seq (fun _ _ he => nomatch he) fun _ => ?_
  refine wp_raiseIf_seq (fun _ _ he => nomatch he) fun _ => ?_
  refine wp_raiseIf_seq (fun _ _ he => nomatch he) fun _ => wp_now_seq <| wp_read_seq ?_
  refine wp_raiseIf_seq (fun _ _ he => nomatch he) fun _ => ?_
  rw [if_neg (by simp [hs]), if_neg (by simp [hs])]
  unfold openCandidate
  refine Ends.hit ⟨hf.gate, hf.adapter⟩ <| Ends.transition hr' (fun _ => ?_) fun _ _ _ he => nomatch he
  unfold openEffect
  refine Ends.hit ⟨hf.gate, hf.adapter⟩ <| wp_now_seq ?_
  refine Ends.openCall (by simp [hf.adapter]) (by simp [hf.adapter]) (fun _ _ he => nomatch he) ?_
  refine Ends.hit ⟨hf.gate, hf.adapter⟩ <| Ends.queryRoute hf.adapter ?_
  refine Ends.hit ⟨hf.gate, hf.adapter⟩ <| wp_ite.mpr ?_
  split
  case isTrue =>
    refine wp_append_seq trivial <| wp_seq (R := fun _ _ => True) ⟨fun _ _ => trivial, trivial⟩
      (fun _ _ _ => wp_raise.mpr fun _ he => nomatch he) fun _ _ _ _ he => nomatch he
  case isFalse =>
    have hrow : (announced g.db row proof).getRow = .ok (openingRow g.db row proof) :=
      getRow_ok_iff.mpr ⟨rfl, (h.row row hr).schema⟩
    refine Ends.transition hrow (fun _ => wp_pure.mpr ?_) fun _ _ _ he => nomatch he
    exact fun _ _ => rfl

theorem not_candidateMismatch (h : g.db.Inv) (hr : g.db.row = some row)
    (hc : OpenedCut g row n proof g') : ¬candidateMismatch n
      (some (candidateFence n proof row.transitionSeq)) proof.candidateDigest g'.traffic.route := by
  have hd : digestOf row.candidate = proof.candidateDigest :=
    ((h.row row hr).candidateDigest ▸ hc.digest).symm
  simp [candidateMismatch, hc.route, candidateRoute, hd]

-- Where the route is the candidate's, a pending fail-close or rollback is not resolved to the state
-- of an open candidate.
theorem decision_ne_candidateOpen {clock : Nat → Int} {ticks : Nat} (h : g.db.Inv)
    (hr : g.db.row = some row) (hc : OpenedCut g row n proof g')
    (hrc : g'.db.pendingRecoveryClose = none)
    (hp : (g'.db.pending .failClose).isSome ∨ (g'.db.pending .rollback).isSome) :
    (g'.resumed clock ticks).decision (openingRow g.db row proof) = .safetyUnknown := by
  have hroute : (g'.resumed clock ticks).traffic.route = candidateRoute row n _ := hc.route
  have hne : n ≠ row.predecessorGeneration := by
    have := (h.row row hr).generation
    have := hc.generation
    omega
  have hrc' : (g'.resumed clock ticks).db.pendingRecoveryClose = none := hrc
  have hclosed : (candidateRoute row n (candidateFence n proof row.transitionSeq)).isClosed = false := by
    simp [candidateRoute, RouteState.isClosed]
  unfold decision
  split
  case isTrue => simp [hroute, closeClass, isClosed, hclosed, RollbackClass.target]
  case isFalse hnf =>
    have hrb : ((g'.resumed clock ticks).db.pending .rollback).isSome := hp.resolve_left hnf
    have hpre : isPredecessor (openingRow g.db row proof)
        (candidateRoute row n (candidateFence n proof row.transitionSeq)) = false := by
      simp [isPredecessor, candidateRoute, openingRow, hne]
    simp [hrc', hrb, hroute, rollbackClass, hpre, hclosed, RollbackClass.target]

-- An open that was interrupted is brought to its end where neither a fail-close nor a rollback is
-- pending.
theorem open_reproduces_iff {p : FaultPoint} {clock : Nat → Int} {ticks : Nat} (h : g.db.Sound)
    (hr : g.db.row = some row) (hf : g.FaultFree) (hp : p ∈ (Op.open n proof).later)
    (hi : Interrupted (.open n proof) p g g')
    (hc : Returned (Op.open n proof).run () g g₂)
    (hl : TrafficAdapter.leaseValid row.lease (clock ticks) g'.traffic) :
    (g'.resumed clock ticks).Reproduces g₂ ↔
      g.db.pending .failClose = none ∧ g.db.pending .rollback = none := by
  have hcut := opened_of_interrupted h.toInv hr hf hp hi
  have hout := of_completed (m := Gate.open n proof) hc
    (open_ends (g := g.start) h.toInv hr ⟨hf.gate, hf.adapter⟩ hcut.state)
  have hs := hi.sound h
  have hr' : g'.db.row = some (openingRow g.db row proof) := hcut.db ▸ rfl
  have hfree : (g'.resumed clock ticks).FaultFree := ⟨hcut.faultFree.gate, hcut.faultFree.adapter⟩
  have hfc : g'.db.pending .failClose = g.db.pending .failClose :=
    hcut.db ▸ pending_moved_of_ne (by simp)
  have hrb : g'.db.pending .rollback = g.db.pending .rollback :=
    hcut.db ▸ pending_moved_of_ne (by simp)
  have hrow := h.row row hr
  have hrc : g'.db.pendingRecoveryClose = none := by
    rw [hcut.db]
    refine (noRecovery_moved_iff hrow (by simp) (by simp [GateOperation.scope])).mpr ?_
    exact hrow.noRecovery (by simp [hcut.state]) (by simp [hcut.state]) (by simp [hcut.state])
  rw [← hfc, ← hrb]
  constructor
  · rintro ⟨s, g'', hret, hsame⟩
    obtain ⟨_, hdec, hend, _⟩ := reconcile_spec (g := g'.resumed clock ticks) hret hs hr' hfree
    have hst := state?_of_outcome (hsame.trans hout)
    by_contra hne
    have hp : (g'.db.pending .failClose).isSome ∨ (g'.db.pending .rollback).isSome := by
      rw [Option.isSome_iff_ne_none, Option.isSome_iff_ne_none]
      exact not_and_or.mp hne
    rw [hend.state, hdec, decision_ne_candidateOpen h.toInv hr hcut hrc hp] at hst
    simp at hst
  · rintro ⟨hnf, hnr⟩
    obtain ⟨intent, hlatest, hdetail, hfence⟩ : ∃ intent, g'.db.latest .open .intent = some intent ∧
        intent.detail = proof.intentDetail ∧
        intent.fence = some (candidateFence n proof row.transitionSeq) := by
      rw [hcut.db, announced, latest_cons rfl]
      exact ⟨_, if_pos ⟨rfl, rfl⟩, rfl, hcut.generation ▸ rfl⟩
    have hm := not_candidateMismatch h.toInv hr hcut
    rw [← hfence, ← hcut.generation] at hm
    have hclear : (g'.resumed clock ticks).start.FaultFree := ⟨hfree.gate, hfree.adapter⟩
    have hend := @reconcile_open _ (g'.resumed clock ticks).start (openingRow g.db row proof) intent
      proof hs.toInv hr' hclear ⟨hnf, hrc, hnr⟩ rfl hlatest
      (hdetail ▸ ofDetail_intentDetail) hcut.lease hl hm
    refine ⟨_, _, ⟨hend.right.left, rfl⟩, ?_⟩
    rw [hend.right.right, hout]
    simp [resumed, start, openingRow, hcut.route, hcut.generation, candidateRoute]

end Open

-- An operation whose interruption is reproduced: an open or a rollback as long as no other intent is
-- in the way, and a rollback only where the row has the predecessor's route already.
def Op.Reproducible (g : Gate DeterministicTrafficAdapter) (row : GateRow) : Op → Prop
  | .open _ _     => g.db.pending .failClose = none ∧ g.db.pending .rollback = none
  | .rollback _ _ => g.db.pending .failClose = none ∧
    row.routeGeneration = some row.predecessorGeneration ∧
    row.routeFence = predecessorFence row.predecessorGeneration
  | _             => True

-- A recovery reproduces the outcome of the operation that was interrupted behind its effect exactly
-- where the operation is reproducible.
theorem reproduces_iff {op : Op} {p : FaultPoint} {clock : Nat → Int} {ticks : Nat}
    {env : DeterministicTrafficAdapter → DeterministicTrafficAdapter → Prop}
    (h : Reachable Initial (Next Always env) g) (hr : g.db.row = some row) (hf : g.FaultFree)
    (ht : Restores g.traffic) (hp : p ∈ op.later) (hi : Interrupted op p g g')
    (hc : Returned op.run () g g₂)
    (hl : TrafficAdapter.leaseValid row.lease (clock ticks) g'.traffic) :
    (g'.resumed clock ticks).Reproduces g₂ ↔ op.Reproducible g row := by
  have hs := reachable_sound h fun _ h => h
  cases op
  case «open» n proof      => exact open_reproduces_iff hs hr hf hp hi hc hl
  case rollback n oracle   => exact rollback_reproduces_iff hs hr hf ht hp hi hc
  case failClose n reason  => exact iff_of_true (failClose_reproduces hs hr hf hp hi hc) trivial
  all_goals exact absurd hp List.not_mem_nil

end Gate

namespace Gate.Sample

-- The process of a rollback dies behind the effect.
def dyingRollback : Gate DeterministicTrafficAdapter :=
  (Op.rollback 2 none).after (opened.armed (.gate "rollback.after_effect"))

def rolledBackWhole : Gate DeterministicTrafficAdapter :=
  (Op.rollback 2 none).after opened

-- The process of an open dies behind the effect.
def dyingOpen : Gate DeterministicTrafficAdapter :=
  (Op.open 2 proof).after (closed.armed (.gate "open.after_side_effect"))

def crash? : Except Exc Unit → Option String
  | .error (.injectedCrash point) => some point
  | _                             => none

theorem value_of_crash? {v : Except Exc Unit} {point : String} (h : crash? v = some point) :
    v = .error (.injectedCrash point) := by
  unfold crash? at h
  split at h <;> cases h
  rfl

-- No fault point is left, and the adapter restores what it is told to.
def calm (g : Gate DeterministicTrafficAdapter) : Bool :=
  g.faults = [] ∧ g.traffic.faults = [] ∧ g.traffic.rollbackFails = false ∧
    g.traffic.behavioralRestore = false

theorem free_of_calm {g : Gate DeterministicTrafficAdapter} (h : calm g) :
    g.FaultFree ∧ Restores g.traffic := by
  simp only [calm, Bool.decide_and, Bool.and_eq_true, decide_eq_true_eq] at h
  exact ⟨⟨h.1, h.2.1⟩, ⟨h.2.2.1, h.2.2.2⟩⟩

theorem reproduces_of_open : Interrupted (.open 2 proof) (.gate "open.after_side_effect") closed
    dyingOpen ∧ (dyingOpen.resumed (fun _ => 200) 0).Reproduces opened := by
  have ⟨⟨hcalm, hlease, hpending⟩, hcrash, hvalue, hvalid⟩ :
      (calm closed ∧ closed.db.row.map (·.lease) = some grant ∧
        closed.db.pending .failClose = none ∧ closed.db.pending .rollback = none) ∧
      crash? ((Op.open 2 proof).run (closed.armed (.gate "open.after_side_effect")).start).value =
        some "open.after_side_effect" ∧
      ((Op.open 2 proof).run closed.start).value.toOption = some () ∧
      TrafficAdapter.leaseValid grant 200 dyingOpen.traffic := by
    decide +kernel
  have ⟨row, hr, hl⟩ := Option.map_eq_some_iff.mp hlease
  have hi : Interrupted (.open 2 proof) (.gate "open.after_side_effect") closed dyingOpen :=
    ⟨value_of_crash? hcrash, by rw [dyingOpen, Op.after]⟩
  have hret : Returned (Op.open 2 proof).run () closed opened :=
    ⟨Fallible.ok_of_toOption hvalue, by rw [opened, Op.after]⟩
  have ⟨hfree, hrestores⟩ := free_of_calm hcalm
  refine ⟨hi, (reproduces_iff (@reachable_closed Anything) hr hfree hrestores ?_ hi hret ?_).mpr hpending⟩
  · simp [Op.later]
  · rw [hl]
    exact hvalid

-- A rollback of an open candidate that dies behind its effect: the row keeps the candidate's route.
theorem not_reproduces_of_rollback : Reachable Initial (Next Always Anything) opened ∧
    opened.FaultFree ∧ Restores opened.traffic ∧
    Interrupted (.rollback 2 none) (.gate "rollback.after_effect") opened dyingRollback ∧
    Returned (Op.rollback 2 none).run () opened rolledBackWhole ∧
    ¬dyingRollback.Reproduces rolledBackWhole := by
  have ⟨hcalm, hcrash, hvalue, hs⟩ : calm opened ∧
      crash? ((Op.rollback 2 none).run (opened.armed (.gate "rollback.after_effect")).start).value =
        some "rollback.after_effect" ∧
      ((Op.rollback 2 none).run opened.start).value.toOption = some () ∧
      (reconcile dyingRollback.start).state.outcome? ≠ rolledBackWhole.outcome? := by
    decide +kernel
  have hi : Interrupted (.rollback 2 none) (.gate "rollback.after_effect") opened dyingRollback :=
    ⟨value_of_crash? hcrash, by rw [dyingRollback, Op.after]⟩
  have hret : Returned (Op.rollback 2 none).run () opened rolledBackWhole :=
    ⟨Fallible.ok_of_toOption hvalue, by rw [rolledBackWhole, Op.after]⟩
  have ⟨hfree, hrestores⟩ := free_of_calm hcalm
  refine ⟨reachable_opened, hfree, hrestores, hi, hret, fun ⟨s, g, hrec, hsame⟩ => ?_⟩
  exact hs (hrec.right ▸ hsame)

end Gate.Sample
