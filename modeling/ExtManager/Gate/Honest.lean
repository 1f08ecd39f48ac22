import ExtManager.Gate.Admission
import ExtManager.Gate.Calls
import ExtManager.Gate.FaultFree
import ExtManager.Gate.OracleSpec
import Mathlib.Data.List.Sort

open Crash Prog Relation GateDb Oracle

-- The texts that the gate writes into its tables.

def GateKind.value : GateKind → String
  | intent  => "intent"
  | receipt => "receipt"

def GateOperation.value : GateOperation → String
  | stage                 => "stage"
  | close                 => "close"
  | «open»                => "open"
  | openReconcile         => "open.reconcile"
  | openReconcileCloseAll => "open.reconcile.close_all"
  | drain                 => "drain"
  | rollback              => "rollback"
  | failClose             => "fail_close"

def GateScope.value : GateScope → String
  | stage              => "stage"
  | close              => "close"
  | «open»             => "open"
  | openReconcileClose => "open-reconcile-close"
  | drain              => "drain"
  | rollback           => "rollback"
  | failClose          => "fail_close"

def OperationId.value (id : OperationId) : String :=
  id.scope.value ++ ":" ++ toString id.generation

def Json.entries : Json → List (String × Json)
  | .obj fields => fields
  | _           => []

def GateTransition.row (t : GateTransition) : TransitionRow where
  seq         := t.seq
  generation  := t.generation
  kind        := t.kind.value
  operation   := t.operation.value
  operationId := t.operationId.value
  fromState   := t.fromState.map (·.value)
  toState     := t.toState.map (·.value)
  fence       := t.fence
  detail      := t.detail.entries

def Admission.row (a : Admission) : AdmissionRow where
  requestId        := a.requestId
  routeEpoch       := a.routeEpoch
  chosenGeneration := a.chosenGeneration
  transitionSeq    := a.transitionSeq

def AdmissionEvent.row (e : AdmissionEvent) : AdmissionEventRow where
  requestId        := e.requestId
  chosenGeneration := e.chosenGeneration

def GateRow.stateRow (row : GateRow) : StateRow where
  state                   := row.state.value
  predecessorGeneration   := row.predecessorGeneration
  candidateGeneration     := some row.candidateGeneration
  routeGeneration         := row.routeGeneration
  routeFence              := row.routeFence
  candidateDigest         := row.candidateDigest
  observedCandidateDigest := row.observedCandidateDigest
  predecessorDigest       := row.predecessorDigest

namespace GateDb

-- `ORDER BY seq` over rows that are kept with the newest first.
def transitionRows (ts : List GateTransition) : List TransitionRow :=
  ts.reverse.map (·.row)

-- What `evaluate_trace` reads from the gate's database.
def trace (db : GateDb) : Trace where
  transitions     := transitionRows db.transitions
  admissions      := (db.admissions.reverse.insertionSort (·.admittedAt ≤ ·.admittedAt)).map (·.row)
  admissionEvents := db.admissionEvents.reverse.map (·.row)
  state           := db.row.map (·.stateRow)

end GateDb

namespace Oracle

variable {s s' : String} {row : TransitionRow} {rows : List TransitionRow}

-- A replay goes on at its end.
theorem Replays.snoc (h : Replays s rows s') (hf : row.fromState = some s')
    (ht : ∀ target, row.toState = some target → target = s' ∨ target ∈ allowedFrom s') :
    Replays s (rows ++ [row]) (row.toState.getD s') := by
  induction h
  case nil               => exact .cons hf ht .nil
  case cons hf' ht' _ ih => exact .cons hf' ht' (ih hf ht)

theorem marks_snoc {id : String} : marks id (rows ++ [row]) =
    marks id rows ++ if row.operationId = id then (mark? row).toList else [] := by
  induction rows
  case nil =>
    rw [List.nil_append, marks_cons]
    exact List.append_nil _
  case cons ih =>
    rw [List.cons_append, marks_cons, ih, marks_cons, List.append_assoc]

theorem Paired.append {ms ms' : List Mark} (h : Paired ms) (h' : Paired ms') :
    Paired (ms ++ ms') := by
  induction h
  case nil     => exact h'
  case cons ih => exact .cons ih

end Oracle

namespace Gate

section Trace

variable {row row' : GateRow} {ts : List GateTransition} {s s' : GateState}
variable {t : GateTransition} {pending : Option OperationId}

-- The rows so far replay to `s` with one intent at most still open.
structure TraceOk (row : GateRow) (ts : List GateTransition) (s : GateState)
    (pending : Option OperationId) : Prop where
  sequence   : (transitionRows ts).map (·.seq) =
    (List.range ts.length).map fun i : Nat => 1 + (i : Int)
  replay     : Replays GateState.predecessorOpen.value (transitionRows ts) s.value
  paired     : ∀ id, Paired (marks id (transitionRows ts) ++
    if pending.map (·.value) = some id then [.receipt] else [])
  generation : ∀ t ∈ ts, t.generation = row.candidateGeneration
  operation  : ∀ t ∈ ts, t.operation ≠ .openReconcileCloseAll
  opened     : ∀ t ∈ ts, t.isOpenReceipt → t.fence ≠ some "" ∧
    t.detail.entries.lookup "observed_candidate_digest" = some (.str row.candidateDigest)
  closed     : ∀ t ∈ ts, t.operation = .close → t.kind = .receipt →
    t.detail.entries.lookup "observed_predecessor_digest" = some (.str row.predecessorDigest)

-- A row that takes the replay from `s` to `s'`.
structure Fresh (row : GateRow) (ts : List GateTransition) (s s' : GateState)
    (t : GateTransition) : Prop where
  seq        : t.seq = ts.length + 1
  generation : t.generation = row.candidateGeneration
  operation  : t.operation ≠ .openReconcileCloseAll
  fromState  : t.fromState = some s
  toState    : t.toState.getD s = s'
  allowed    : s' = s ∨ s'.value ∈ allowedFrom s.value
  opened     : t.isOpenReceipt → t.fence ≠ some "" ∧
    t.detail.entries.lookup "observed_candidate_digest" = some (.str row.candidateDigest)
  closed     : t.operation = .close → t.kind = .receipt →
    t.detail.entries.lookup "observed_predecessor_digest" = some (.str row.predecessorDigest)

theorem transitionRows_cons : transitionRows (t :: ts) = transitionRows ts ++ [t.row] := by
  simp [transitionRows]

theorem TraceOk.same (h : TraceOk row ts s pending) (same : Same row row') :
    TraceOk row' ts s pending where
  sequence   := h.sequence
  replay     := h.replay
  paired     := h.paired
  generation := same.candidateGeneration ▸ h.generation
  operation  := h.operation
  opened     := same.candidateDigest ▸ h.opened
  closed     := same.predecessorDigest ▸ h.closed

-- All that a row adds but its pairing.
theorem TraceOk.grow {pending' : Option OperationId} (h : TraceOk row ts s pending)
    (hf : Fresh row ts s s' t)
    (hp : ∀ id, Paired (marks id (transitionRows ts ++ [t.row]) ++
      if pending'.map (·.value) = some id then [.receipt] else [])) :
    TraceOk row (t :: ts) s' pending' where
  sequence := by
    have hs : t.row.seq = 1 + (ts.length : Int) := by
      simp [GateTransition.row, hf.seq, Int.add_comm]
    rw [transitionRows_cons, List.map_append, h.sequence, List.length_cons, List.range_succ,
      List.map_append, List.map_singleton, List.map_singleton, hs]
  replay := by
    have hfrom : t.row.fromState = some s.value := by simp [GateTransition.row, hf.fromState]
    have hto : t.row.toState.getD s.value = s'.value := by
      rw [← hf.toState]
      simp only [GateTransition.row]
      cases t.toState
      all_goals rfl
    rw [transitionRows_cons, ← hto]
    refine h.replay.snoc hfrom fun target ht => ?_
    rw [ht, Option.getD_some] at hto
    exact hf.allowed.imp (fun he => hto.trans (congrArg _ he)) fun ha => hto ▸ ha
  paired := transitionRows_cons ▸ hp
  generation := List.forall_mem_cons.mpr ⟨hf.generation, h.generation⟩
  operation  := List.forall_mem_cons.mpr ⟨hf.operation, h.operation⟩
  opened     := List.forall_mem_cons.mpr ⟨hf.opened, h.opened⟩
  closed     := List.forall_mem_cons.mpr ⟨hf.closed, h.closed⟩

theorem TraceOk.intent (h : TraceOk row ts s none) (hf : Fresh row ts s s' t)
    (hk : t.kind = .intent) : TraceOk row (t :: ts) s' (some t.operationId) := by
  refine h.grow hf fun id => ?_
  have hm : mark? t.row = some .intent := by simp [mark?, GateTransition.row, hk, GateKind.value]
  have hp := h.paired id
  simp only [Option.map_none, reduceCtorEq, if_false, List.append_nil] at hp
  rw [marks_snoc, hm]
  by_cases hid : t.operationId.value = id
  case pos =>
    have hid' : t.row.operationId = id := hid
    simpa [hid, hid'] using hp.append (.cons .nil)
  case neg =>
    have hid' : t.row.operationId ≠ id := hid
    simpa [hid, hid'] using hp

theorem TraceOk.receipt (h : TraceOk row ts s (some t.operationId)) (hf : Fresh row ts s s' t)
    (hk : t.kind = .receipt) (ho : t.operation ≠ .stage) : TraceOk row (t :: ts) s' none := by
  refine h.grow hf fun id => ?_
  have hm : mark? t.row = some .receipt := by
    have hne : t.operation.value ≠ "stage" := by
      cases h : t.operation
      case stage => exact absurd h ho
      all_goals decide
    simp [mark?, TransitionRow.isPairedReceipt, GateTransition.row, hk, GateKind.value, hne]
  have hp := h.paired id
  rw [marks_snoc, hm]
  by_cases hid : t.operationId.value = id
  case pos =>
    have hid' : t.row.operationId = id := hid
    simpa [hid, hid'] using hp
  case neg =>
    have hid' : t.row.operationId ≠ id := hid
    simpa [hid, hid'] using hp

theorem TraceOk.nil : TraceOk row [] .predecessorOpen none where
  sequence   := rfl
  replay     := .nil
  paired _   := .nil
  generation := by simp
  operation  := by simp
  opened     := by simp
  closed     := by simp

theorem TraceOk.stage (h : TraceOk row ts s none) (hf : Fresh row ts s s' t)
    (hk : t.kind = .receipt) (ho : t.operation = .stage) : TraceOk row (t :: ts) s' none := by
  refine h.grow hf fun id => ?_
  have hm : mark? t.row = none := by
    simp [mark?, TransitionRow.isPairedReceipt, GateTransition.row, hk, ho, GateKind.value,
      GateOperation.value]
  rw [marks_snoc, hm]
  simpa using h.paired id

theorem TraceOk.pair {m : GateState} {t' : GateTransition} (h : TraceOk row ts s none)
    (hi : Fresh row ts s m t) (hr : Fresh row (t :: ts) m s' t') (hk : t.kind = .intent)
    (hk' : t'.kind = .receipt) (hid : t'.operationId = t.operationId) (ho : t'.operation ≠ .stage) :
    TraceOk row (t' :: t :: ts) s' none :=
  (hid ▸ h.intent hi hk : TraceOk row (t :: ts) m (some t'.operationId)).receipt hr hk' ho

-- The gate's table goes no further than the oracle's, but for what leaves a drain.
theorem allowed_of_accepts (h : s.accepts s') (hd : s = .draining → s' = .candidateOpen) :
    s' = s ∨ s'.value ∈ allowedFrom s.value := by
  cases s
  case draining => exact .inr (hd rfl ▸ by decide)
  all_goals
    cases s'
    all_goals first
      | exact .inl rfl
      | exact .inr (by decide)
      | simp [GateState.accepts, GateState.allowed] at h

end Trace

section Idle

variable {db db' : GateDb} {t t' : GateTransition}

theorem idle_cons (h : db.Idle) (ht : db'.transitions = t :: db.transitions)
    (ho : t.operation = .drain) : db'.Idle where
  failClose := (pending_cons_of_ne ht (by simp [ho])).trans h.failClose
  recovery  := pendingRecoveryClose_cons h.recovery ht (by simp [ho])
  rollback  := (pending_cons_of_ne ht (by simp [ho])).trans h.rollback

-- An intent that gets its receipt at once is not waited for.
theorem idle_pair (h : db.Idle) (hseq : ∀ t ∈ db.transitions, t.seq ≤ db.transitions.length)
    (ht : db'.transitions = t' :: t :: db.transitions) (hs : t.seq = db.transitions.length + 1)
    (hs' : t'.seq = db.transitions.length + 2) (ho : t'.operation = t.operation)
    (hk : t'.kind = .receipt) (hne : t.operation ≠ .openReconcileCloseAll) : db'.Idle := by
  let db₁ : GateDb := { db with transitions := t :: db.transitions }
  have hseq₁ : ∀ t ∈ db₁.transitions, t.seq ≤ db₁.transitions.length := by
    intro t₁ hm
    rcases List.mem_cons.mp hm with he | hm
    · exact he ▸ hs.le
    · exact (hseq t₁ hm).trans (Nat.le_succ _)
  have hpending (operation) (hp : db.pending operation = none) : db'.pending operation = none := by
    by_cases h : t.operation = operation
    case pos =>
      exact pending_cons_receipt hseq₁ ht hs' (ho.trans h) hk
    case neg =>
      have h₁ : db₁.pending operation = none := (pending_cons_of_ne rfl h).trans hp
      have h' : db'.pending operation = db₁.pending operation := pending_cons_of_ne ht (ho ▸ h)
      exact h'.trans h₁
  have hrecovery : db₁.pendingRecoveryClose = none :=
    pendingRecoveryClose_cons h.recovery rfl fun he => absurd he hne
  exact ⟨hpending _ h.failClose, pendingRecoveryClose_cons hrecovery ht fun he => absurd (ho ▸ he) hne,
    hpending _ h.rollback⟩

end Idle

section Inv

variable {db db' : GateDb} {row row' : GateRow}

-- A drain is the only intent that outlives its call.
def openIntent (row : GateRow) : Option OperationId :=
  if row.state = .draining then some ⟨.drain, row.candidateGeneration⟩ else none

-- What holds after calls that all returned.
structure TraceInv (db : GateDb) (row : GateRow) : Prop where
  ok      : TraceOk row db.transitions row.state (openIntent row)
  opening : row.state ≠ .opening
  staged  : row.state = .candidateStaged → ∀ t ∈ db.transitions, t.kind = .receipt
  idle    : db.Idle

theorem TraceInv.congr (h : TraceInv db row) (hd : SameTransitions db db') :
    TraceInv db' row := by
  have hlatest {operation kind} : db'.latest operation kind = db.latest operation kind := by
    simp [latest, hd.right]
  have hpending {operation} : db'.pending operation = db.pending operation := by
    simp only [pending, hlatest]
  have hrecovery : db'.pendingRecoveryClose = db.pendingRecoveryClose := by
    simp [pendingRecoveryClose, hasReceipt, hd.right]
  refine ⟨hd.right ▸ h.ok, h.opening, hd.right ▸ h.staged, ?_, ?_, ?_⟩
  · exact hpending.trans h.idle.failClose
  · exact hrecovery.trans h.idle.recovery
  · exact hpending.trans h.idle.rollback

theorem TraceInv.pair {m : GateState} {t t' : GateTransition} (h : TraceInv db row)
    (hseq : ∀ t ∈ db.transitions, t.seq ≤ db.transitions.length) (hs : row.state ≠ .draining)
    (ht : db'.transitions = t' :: t :: db.transitions) (same : Same row row')
    (hi : Fresh row db.transitions row.state m t)
    (hr : Fresh row (t :: db.transitions) m row'.state t') (hk : t.kind = .intent)
    (hk' : t'.kind = .receipt) (hid : t'.operationId = t.operationId)
    (ho : t'.operation = t.operation) (hne : t.operation ≠ .stage)
    (hs' : row'.state ≠ .opening ∧ row'.state ≠ .draining ∧ row'.state ≠ .candidateStaged) :
    TraceInv db' row' := by
  have hok := h.ok
  rw [openIntent, if_neg hs] at hok
  refine ⟨?_, hs'.left, fun he => absurd he hs'.right.right, ?_⟩
  · rw [openIntent, if_neg hs'.right.left, ht]
    exact (hok.pair hi hr hk hk' hid (ho ▸ hne)).same same
  · exact idle_pair h.idle hseq ht hi.seq hr.seq ho hk' hi.operation

end Inv

section Step

variable [Sha256] {τ : Type} [TrafficAdapter τ] {g g' : Gate τ} {row row' : GateRow} {n : Int}
variable {db : GateDb} {target : GateState} {detail detail' : Json} {fence fence' : Option String}
variable {id : Option OperationId} {operation : GateOperation} {update : Nat → GateRow → GateRow}

-- The intent of an operation whose receipt decides.
omit [Sha256] in
theorem fresh_append (ho : operation ≠ .openReconcileCloseAll) :
    Fresh row db.transitions row.state row.state
      ⟨db.nextSeq, row.candidateGeneration, .intent, operation,
        id.getD ⟨operation.scope, row.candidateGeneration⟩, some row.state, none, fence, detail⟩ where
  seq        := rfl
  generation := rfl
  operation  := ho
  fromState  := rfl
  toState    := rfl
  allowed    := .inl rfl
  opened h   := by simp [GateTransition.isOpenReceipt] at h
  closed _ h := nomatch h

-- The update keeps the state and what `stage` has written.
def Plain (update : Nat → GateRow → GateRow) : Prop :=
  ∀ seq row, Same row (update seq row) ∧ (update seq row).state = row.state

omit [Sha256] in
theorem OnlyRoute.plain (h : OnlyRoute update) : Plain update := by
  intro seq row
  have ⟨_, _, he⟩ := h seq row
  rw [he]
  exact ⟨⟨rfl, rfl, rfl, rfl, rfl, rfl, rfl, rfl⟩, rfl⟩

omit [Sha256] in
theorem Plain.moved (h : Plain update) : Same row (movedRow db row target update) ∧
    (movedRow db row target update).state = target := by
  have ⟨same, hs⟩ := h db.nextSeq
    { row with state := target, transitionSeq := db.nextSeq, revision := row.revision + 1 }
  have hrow : Same row
      { row with state := target, transitionSeq := db.nextSeq, revision := row.revision + 1 } :=
    ⟨rfl, rfl, rfl, rfl, rfl, rfl, rfl, rfl⟩
  exact ⟨hrow.trans same, hs⟩

-- Every row of the database, if there is one, keeps the invariant.
def Traced (db : GateDb) : Prop :=
  ∀ row, db.row = some row → TraceInv db row

-- An intent and its receipt, written by one call in one state.
omit [TrafficAdapter τ] in
theorem traced_concluded (h : TraceInv g.db row) (hinv : g.db.Inv) (hs : row.state ≠ .draining)
    (ha : row.state.accepts target) (hn : row.candidateGeneration = n)
    (ht : target ≠ .opening ∧ target ≠ .draining ∧ target ≠ .candidateStaged)
    (ho : operation = .close ∨ operation = .rollback ∨ operation = .failClose)
    (hc : operation = .close →
      detail'.entries.lookup "observed_predecessor_digest" = some (.str row.predecessorDigest))
    (hd : g'.db = (g.db.append n .intent operation (some row.state) none fence detail id).moved row n
      target operation .receipt detail' fence' id update) (hu : Plain update) : Traced g'.db := by
  subst hn
  have hop : operation ≠ .openReconcileCloseAll ∧ operation ≠ .stage ∧ operation ≠ .open ∧
      operation ≠ .openReconcile := by
    rcases ho with ho | ho | ho
    all_goals simp [ho]
  intro row' hr'
  have hrow : movedRow _ row target update = row' :=
    Option.some.inj ((congrArg GateDb.row hd).symm.trans hr')
  have ⟨same, hstate⟩ : Same row row' ∧ row'.state = target := hrow ▸ hu.moved
  subst hstate
  refine h.pair hinv.seq hs (congrArg GateDb.transitions hd) same (fresh_append hop.left) ?_ rfl rfl
    rfl rfl hop.right.left ht
  exact {
    seq        := rfl
    generation := rfl
    operation  := hop.left
    fromState  := rfl
    toState    := rfl
    allowed    := allowed_of_accepts ha fun he => absurd he hs
    opened     := fun h => by simp [GateTransition.isOpenReceipt, hop] at h
    closed     := fun ho _ => hc ho
  }

-- The gate is not taken out of a drain.
def Undrained (op : Op) (g : Gate τ) : Prop :=
  ∀ row, g.db.row = some row → row.state = .draining →
    (∀ n oracle, op ≠ .rollback n oracle) ∧ ∀ n reason, op ≠ .failClose n reason

omit [Sha256] in
theorem target_ended {c : RollbackClass} :
    c.target ≠ .opening ∧ c.target ≠ .draining ∧ c.target ≠ .candidateStaged := by
  cases c
  all_goals simp [RollbackClass.target]

theorem failClose_traced {reason : String} {res : FailCloseResult} (h : Traced g.db)
    (hinv : g.db.Inv) (hu : Undrained (.failClose n reason) g)
    (hret : Returns (failClose n reason) res g g') : Traced g'.db := by
  have ⟨row, actual, _, _, hr, hn, ha, hd⟩ := failClose_returns hret
  have hr := hinv.getRow.mp hr
  have hs : row.state ≠ .draining := fun hs => (hu row hr hs).right _ _ rfl
  exact traced_concluded (h row hr) hinv hs ha hn target_ended (.inr (.inr rfl)) (by simp) hd
    onlyRoute_recordRoute.plain

theorem rollback_traced {oracle : Option BehavioralOracleResult} {c : RollbackClass}
    (h : Traced g.db) (hinv : g.db.Inv) (hu : Undrained (.rollback n oracle) g)
    (hret : Returns (rollback n oracle) c g g') : Traced g'.db := by
  have ⟨row, _, _, _, _, hr, hn, ha, hup, hd⟩ := rollback_returns hret
  have hr := hinv.getRow.mp hr
  have hs : row.state ≠ .draining := fun hs => (hu row hr hs).left _ _ rfl
  exact traced_concluded (h row hr) hinv hs ha hn target_ended (.inr (.inl rfl)) (by simp) hd
    hup.plain

-- `close` returns where the candidate is staged, and no intent of another `close` is left there.
theorem close_traced {u : Unit} (h : Traced g.db) (hinv : g.db.Inv)
    (hret : Returns (Gate.close n) u g g') : Traced g'.db := by
  rcases close_returns hret with ⟨he, _⟩ | ⟨row, r, hr, hn, hne, ha, hm, hd⟩
  · exact he ▸ h
  · have hr := hinv.getRow.mp hr
    have hs : row.state = .candidateStaged := by
      cases hst : row.state
      all_goals simp_all [GateState.accepts, GateState.allowed]
    have hpending : g.db.pendingClose ⟨.close, n⟩ = false := by
      have hk := (h row hr).staged hs
      simp only [pendingClose, Bool.and_eq_false_iff, List.any_eq_false]
      refine .inl fun t ht => ?_
      simp [hk t ht]
    rw [closing, if_neg (by simp [hpending])] at hd
    have hdigest : digestOf r.snapshot = row.predecessorDigest :=
      not_not.mp (not_or.mp (not_or.mp hm).right).right
    refine traced_concluded (h row hr) hinv (by simp [hs]) ha hn (by simp) (.inl rfl)
      (fun _ => ?_) hd fun _ _ => ⟨⟨rfl, rfl, rfl, rfl, rfl, rfl, rfl, rfl⟩, rfl⟩
    simp [Json.entries, List.lookup_cons, hdigest]

theorem open_traced {proof : OpenProof} {fence : String} (h : Traced g.db) (hinv : g.db.Inv)
    (hret : Returns (Gate.open n proof) fence g g') : Traced g'.db := by
  have ⟨row, hr, hp, hcases⟩ := open_returns hret
  have hr := hinv.getRow.mp hr
  have hn := hp.generation
  subst hn
  rcases hcases with ⟨he, _⟩ | ⟨r, detail, ha, hne, hfence, hm, hdetail, hd⟩
  · exact he ▸ h
  · have hs : row.state ≠ .draining := fun hs => by
      simp [hs, GateState.accepts, GateState.allowed] at ha
    have hdigest : digestOf r.snapshot = row.candidateDigest :=
      (not_not.mp (not_or.mp (not_or.mp hm).right).right).trans hp.candidateDigest
    intro row' hr'
    have hrow := Option.some.inj ((congrArg GateDb.row hd).symm.trans hr')
    subst hrow
    refine (h row hr).pair hinv.seq hs (congrArg GateDb.transitions hd)
      ⟨rfl, rfl, rfl, rfl, rfl, rfl, rfl, rfl⟩ (m := .opening) ?intent ?receipt rfl rfl rfl rfl
      (by simp) (by simp [recordOpen])
    case intent => exact {
      seq        := rfl
      generation := rfl
      operation  := by simp
      fromState  := rfl
      toState    := rfl
      allowed    := allowed_of_accepts ha fun he => absurd he hs
      opened     := fun h => by simp [GateTransition.isOpenReceipt] at h
      closed     := fun h => by simp at h
    }
    case receipt => exact {
      seq        := rfl
      generation := rfl
      operation  := by simp
      fromState  := rfl
      toState    := rfl
      allowed    := .inr (show GateState.candidateOpen.value ∈ allowedFrom GateState.opening.value by
        decide)
      opened     := fun _ => by
        simp [hdetail, Json.entries, List.lookup_cons, hdigest, hfence, candidateFence]
      closed     := fun h => by simp at h
    }

omit [Sha256] in
theorem draining_traced (h : TraceInv db row) (hs : row.state ≠ .draining)
    (ha : row.state.accepts .draining) : TraceInv (draining db row) (drainingRow db row) := by
  have hok := h.ok
  rw [openIntent, if_neg hs] at hok
  have hfresh : Fresh row db.transitions row.state .draining
      ⟨db.nextSeq, row.candidateGeneration, .intent, .drain, ⟨.drain, row.candidateGeneration⟩,
        some row.state, some .draining, none, .obj []⟩ := {
    seq        := rfl
    generation := rfl
    operation  := by simp
    fromState  := rfl
    toState    := rfl
    allowed    := allowed_of_accepts ha fun he => absurd he hs
    opened     := fun h => by simp [GateTransition.isOpenReceipt] at h
    closed     := fun h => by simp at h
  }
  exact ⟨(hok.intent hfresh rfl).same ⟨rfl, rfl, rfl, rfl, rfl, rfl, rfl, rfl⟩,
    by simp [drainingRow], by simp [drainingRow], idle_cons h.idle rfl rfl⟩

omit [Sha256] in
theorem drained_traced (h : TraceInv db row) (hs : row.state = .draining) :
    Traced (db.moved row row.candidateGeneration .candidateOpen .drain .receipt detail none none
      fun _ row => row) := by
  have hok := h.ok
  rw [openIntent, if_pos hs] at hok
  have hfresh : Fresh row db.transitions row.state .candidateOpen
      ⟨db.nextSeq, row.candidateGeneration, .receipt, .drain, ⟨.drain, row.candidateGeneration⟩,
        some row.state, some .candidateOpen, none, detail⟩ := {
    seq        := rfl
    generation := rfl
    operation  := by simp
    fromState  := rfl
    toState    := rfl
    allowed    := .inr (hs ▸ by decide)
    opened     := fun h => by simp [GateTransition.isOpenReceipt] at h
    closed     := fun h => by simp at h
  }
  intro row' hr'
  have hrow := Option.some.inj hr'
  subst hrow
  exact ⟨(hok.receipt hfresh rfl (by simp)).same ⟨rfl, rfl, rfl, rfl, rfl, rfl, rfl, rfl⟩,
    by simp, by simp, idle_cons h.idle rfl rfl⟩

omit [TrafficAdapter τ] in
theorem drain_traced {done : Bool} (h : Traced g.db) (hinv : g.db.Inv)
    (hret : Returns (Gate.drain n) done g g') : Traced g'.db := by
  have ⟨row, db₁, row₁, hr, hn, hdr, hcases⟩ := drain_returns hret
  have hrow := h row (hinv.getRow.mp hr)
  subst hn
  have ⟨h₁, hs₁, hr₁, hgen⟩ : TraceInv db₁ row₁ ∧ row₁.state = .draining ∧ db₁.row = some row₁ ∧
      row₁.candidateGeneration = row.candidateGeneration := by
    cases hdr
    case already hs => exact ⟨hrow, hs, hinv.getRow.mp hr, rfl⟩
    case now hs ha  => exact ⟨draining_traced hrow hs ha, rfl, rfl, rfl⟩
  rcases hcases with ⟨_, hd⟩ | ⟨_, _, hd⟩
  · rw [hd]
    intro row' hr'
    exact Option.some.inj (hr₁.symm.trans hr') ▸ h₁
  · rw [hd, ← hgen]
    exact drained_traced h₁ hs₁

theorem stage_traced {candidate predecessor : Json} (h : Traced g.db) (hinv : g.db.Inv)
    (hret : Returns (Gate.stage candidate predecessor) n g g') : Traced g'.db := by
  have ⟨m, _, _, hcases⟩ := stage_returns hret
  rcases hcases with ⟨he, _⟩ | ⟨r, grant, detail, hr, hd⟩
  · exact he ▸ h
  · have hempty := hinv.empty hr
    have hfresh : Fresh (stagedRow candidate predecessor m r grant) [] .predecessorOpen
        .candidateStaged ⟨1, m + 1, .receipt, .stage, ⟨.stage, m + 1⟩, some .predecessorOpen,
          some .candidateStaged, none, detail⟩ := {
      seq        := rfl
      generation := rfl
      operation  := by simp
      fromState  := rfl
      toState    := rfl
      allowed    := .inr (by decide)
      opened     := fun h => by simp [GateTransition.isOpenReceipt] at h
      closed     := fun h => by simp at h
    }
    have hok := TraceOk.nil.stage hfresh rfl rfl
    intro row' hr'
    have hrow := Option.some.inj ((congrArg GateDb.row hd).symm.trans hr')
    subst hrow
    have hts : g'.db.transitions = [⟨1, m + 1, .receipt, .stage, ⟨.stage, m + 1⟩,
        some .predecessorOpen, some .candidateStaged, none, detail⟩] := by
      simp [hd, GateDb.moved, GateDb.append, nextSeq, hempty, stagedRow, GateOperation.scope]
    refine ⟨hts ▸ hok.same ⟨rfl, rfl, rfl, rfl, rfl, rfl, rfl, rfl⟩, by simp, fun _ => by simp [hts], ?_⟩
    exact ⟨by simp [pending, latest, hts], by simp [pendingRecoveryClose, hts],
      by simp [pending, latest, hts]⟩

theorem observe_traced {request : AdmissionRequest} {result : Option AdmissionResult}
    (h : Traced g.db) (hret : Returns (Gate.observe request result) n g g') : Traced g'.db := by
  have hsame := observe_returns hret
  intro row hr
  exact (h row (hsame.left ▸ hr)).congr hsame

-- There is nothing to reconcile.
theorem reconcile_traced {s : GateState} (h : Traced g.db) (hinv : g.db.Inv)
    (hret : Returns Gate.reconcile s g g') : Traced g'.db := by
  unfold Gate.reconcile at hret
  have ⟨row, _, h₁, hret⟩ := returns_bind.mp hret
  obtain ⟨hr, rfl⟩ := returns_lift.mp h₁
  have ⟨db, _, h₂, hret⟩ := returns_bind.mp hret
  obtain ⟨rfl, rfl⟩ := returns_read.mp h₂
  have hrow := h row (hinv.getRow.mp hr)
  simp only [hrow.idle.failClose, hrow.idle.recovery, hrow.idle.rollback] at hret
  rw [if_pos hrow.opening] at hret
  obtain ⟨-, rfl⟩ := returns_pure.mp hret
  exact h

theorem Op.traced {op : Op} (h : Traced g.db) (hinv : g.db.Inv) (hu : Undrained op g)
    (hret : (op.run g.start).value = .ok ()) : Traced (op.after g).db := by
  have hret : Returns op.run () g.start (op.after g) := ⟨hret, rfl⟩
  change Traced g.start.db at h
  change g.start.db.Inv at hinv
  change Undrained op g.start at hu
  cases op
  case close => exact close_traced h hinv hret
  all_goals
    have ⟨_, hret⟩ := returns_void.mp hret
  case stage     => exact stage_traced h hinv hret
  case «open»    => exact open_traced h hinv hret
  case drain     => exact drain_traced h hinv hret
  case observe   => exact observe_traced h hret
  case rollback  => exact rollback_traced h hinv hu hret
  case failClose => exact failClose_traced h hinv hu hret
  case reconcile => exact reconcile_traced h hinv hret

end Step

section Accepted

variable [Sha256] {db : GateDb} {row : GateRow} {t : GateTransition}

-- Every event is about a request on record.
def EventInv (db : GateDb) : Prop :=
  ∀ e ∈ db.admissionEvents, ∃ a ∈ db.admissions,
    a.requestId = e.requestId ∧ a.chosenGeneration = e.chosenGeneration

omit [Sha256] in
theorem value_candidateOpen {s : GateState} :
    s.value = GateState.candidateOpen.value ↔ s = .candidateOpen := by
  cases s
  all_goals decide

-- The oracle takes every operation whose name starts with `open` for an open.
omit [Sha256] in
theorem isOpenReceipt_row (h : t.operation ≠ .openReconcileCloseAll) :
    t.row.isOpenReceipt = t.isOpenReceipt := by
  have hkind : t.kind.value = "receipt" ↔ t.kind = .receipt := by
    cases t.kind
    all_goals decide
  have hto : t.toState.map (·.value) = some GateState.candidateOpen.value ↔
      t.toState = some .candidateOpen := by
    cases t.toState
    case none   => simp
    case some s => simp [value_candidateOpen]
  have hopen : "open".toList.isPrefixOf t.operation.value.toList =
      decide (t.operation = .open ∨ t.operation = .openReconcile) := by
    cases ho : t.operation
    case openReconcileCloseAll => exact absurd ho h
    all_goals decide
  simp only [TransitionRow.isOpenReceipt, GateTransition.isOpenReceipt, GateTransition.row, hkind,
    hto, hopen, Bool.decide_and, Bool.and_assoc]

omit [Sha256] in
theorem openReceipts_trace (h : ∀ t ∈ db.transitions, t.operation ≠ .openReconcileCloseAll) :
    db.trace.openReceipts = db.openReceipts.reverse.map (·.row) := by
  have hfilter : db.transitions.filter (·.row.isOpenReceipt) = db.openReceipts :=
    List.filter_congr fun t ht => isOpenReceipt_row (h t ht)
  simp only [Trace.openReceipts, trace, transitionRows, List.filter_map, List.filter_reverse,
    Function.comp_def, hfilter]

omit [Sha256] in
theorem opened_of_traced (h : TraceInv db row) {t : TransitionRow}
    (ht : t ∈ db.trace.openReceipts) : ∃ t' ∈ db.openReceipts, t = t'.row ∧
      t'.generation = row.candidateGeneration ∧ t'.fence ≠ some "" ∧
      t.detail.lookup "observed_candidate_digest" = some (.str row.candidateDigest) := by
  rw [openReceipts_trace h.ok.operation] at ht
  have ⟨t', ht', he⟩ := List.mem_map.mp ht
  have ht' := List.mem_reverse.mp ht'
  have ⟨hmem, hreceipt⟩ := List.mem_filter.mp ht'
  have ⟨hfence, hdigest⟩ := h.ok.opened t' hmem hreceipt
  exact ⟨t', ht', he.symm, h.ok.generation t' hmem, hfence, he ▸ hdigest⟩

omit [Sha256] in
theorem closed_of_traced (h : TraceInv db row) {t : TransitionRow}
    (ht : t ∈ db.trace.closeReceipts) :
    t.detail.lookup "observed_predecessor_digest" = some (.str row.predecessorDigest) := by
  have ⟨hmem, hclose⟩ := List.mem_filter.mp ht
  have ⟨t', ht', he⟩ := List.mem_map.mp hmem
  subst he
  have hop : t'.operation.value = "close" ↔ t'.operation = .close := by
    cases t'.operation
    all_goals decide
  have hkind : t'.kind.value = "receipt" ↔ t'.kind = .receipt := by
    cases t'.kind
    all_goals decide
  simp only [TransitionRow.isCloseReceipt, GateTransition.row, Bool.and_eq_true, decide_eq_true_eq,
    hop, hkind] at hclose
  exact h.ok.closed t' (List.mem_reverse.mp ht') hclose.left hclose.right

-- There is no more than one open.
theorem firstOpen_trace (h : TraceInv db row) (hinv : db.Inv) (hr : db.row = some row)
    (ht : t ∈ db.openReceipts) : db.trace.firstOpen = some ⟨t.seq, t.fence⟩ := by
  have hle := (hinv.row row hr).phase.length_le.right
  have hone : db.openReceipts = [t] := by
    match hs : db.openReceipts with
    | []          => simp [hs] at ht
    | [t']        => simp_all
    | _ :: _ :: _ => simp [hs] at hle
  simp [Trace.firstOpen, openReceipts_trace h.ok.operation, hone, GateTransition.row]

theorem admissible_of_traced (h : TraceInv db row) (hinv : db.Inv) (hr : db.row = some row)
    {a : Admission} (ha : Admitted row db.openReceipts a) :
    Admissible row.stateRow db.trace.firstOpen a.row := by
  have hgen := (hinv.row row hr).generation
  have hcand (hc : row.stateRow.candidateGeneration = some a.row.chosenGeneration) :
      row.candidateGeneration = a.chosenGeneration := Option.some.inj hc
  cases ha
  case predecessor hg hf hs =>
    refine ⟨?_, .inr hg.symm, fun hc => ?_, fun _ => ⟨?_, fun o ho => ?_⟩⟩
    · simp [Admission.row, hf, predecessorFence]
    · have := hcand hc
      omega
    · simp [Admission.row, hf, hg]
    · have ⟨t, ht, hto⟩ := Option.map_eq_some_iff.mp ho
      have ⟨t', ht', he, _⟩ := opened_of_traced h (List.mem_of_mem_head? ht)
      rw [← hto, he]
      exact Int.ofNat_lt.mpr (hs t' ht')
  case candidate t hg ht hf hs =>
    have hfirst := firstOpen_trace h hinv hr ht
    have hne := (h.ok.opened t (List.mem_of_mem_filter ht) (List.mem_filter.mp ht).right).left
    refine ⟨fun he => ?_, .inl (congrArg some hg.symm), fun _ => ⟨_, hfirst, ?_, hf⟩, fun hp => ?_⟩
    · exact hne (hf.trans (congrArg some he))
    · exact Int.ofNat_le.mpr hs
    · have hp : row.predecessorGeneration = a.chosenGeneration := hp
      omega

-- A gate that has its row has left `PREDECESSOR_OPEN`.
theorem transitions_ne_nil (h : TraceInv db row) (hinv : db.Inv) (hr : db.row = some row) :
    db.transitions ≠ [] := by
  intro hnil
  have hreplay := h.ok.replay
  rw [hnil] at hreplay
  have hs : row.state = .predecessorOpen := by
    generalize hv : row.state.value = v at hreplay
    cases hreplay
    revert hv
    cases row.state
    all_goals decide
  have hphase := (hinv.row row hr).phase
  generalize db.openIntents = intents, db.openReceipts = receipts at hphase
  cases hphase
  all_goals simp_all

theorem route_of_traced (h : TraceInv db row) (hinv : db.Inv) (hr : db.row = some row)
    (hs : row.state = .candidateOpen) : row.routeGeneration = some row.candidateGeneration ∧
      some row.routeFence = db.trace.firstOpen.bind (·.fence) ∧
      row.observedCandidateDigest = some row.candidateDigest := by
  have ⟨_, _, receipt, _, hreceipts, _, _, hf, _, hg, ho⟩ :=
    (hinv.row row hr).phase.of_open (.inl hs)
  have hfirst := firstOpen_trace h hinv hr (hreceipts ▸ List.mem_singleton.mpr rfl)
  exact ⟨hg, by rw [hfirst, Option.bind_some, hf], ho⟩

omit [Sha256] in
theorem requests_of_events (hadm : AdmissionInv db) (hev : EventInv db) {e e' : AdmissionEvent}
    (he : e ∈ db.admissionEvents) (he' : e' ∈ db.admissionEvents)
    (hid : e.requestId = e'.requestId) : e.chosenGeneration = e'.chosenGeneration := by
  have ⟨a, ha, haid, hag⟩ := hev e he
  have ⟨a', ha', haid', hag'⟩ := hev e' he'
  have heq := eq_of_requestId hadm ha ha' (haid.trans (hid.trans haid'.symm))
  rw [← hag, ← hag', heq]

theorem accepted_of_traced (h : TraceInv db row) (hinv : db.Inv) (hadm : AdmissionInv db)
    (hev : EventInv db) (hr : db.row = some row) (hs : row.state ≠ .draining) :
    Accepted db.trace row.stateRow := by
  have hok := h.ok
  rw [openIntent, if_neg hs] at hok
  refine ⟨?_, ?_, hok.replay, fun id => ?_, fun n hn t ht => ?_, fun t ht t' ht' => ?_,
    fun t ht => ?_, fun t ht _ observed hobs => ?_, fun hst => ?_, fun e he e' he' hid => ?_,
    fun a ha => ?_⟩
  · simpa [trace, transitionRows] using transitions_ne_nil h hinv hr
  · simpa [trace, transitionRows] using hok.sequence
  · simpa [trace] using hok.paired id
  · have ⟨t', ht', he⟩ := List.mem_map.mp ht
    rw [← he, ← Option.some.inj hn]
    exact hok.generation t' (List.mem_reverse.mp ht')
  · have ⟨u, _, he, hg, _⟩ := opened_of_traced h ht
    have ⟨u', _, he', hg', _⟩ := opened_of_traced h ht'
    rw [he, he']
    exact hg.trans hg'.symm
  · have ⟨_, _, _, _, _, hdigest⟩ := opened_of_traced h ht
    exact hdigest
  · rw [observedPredecessor, closed_of_traced h ht] at hobs
    simpa [Option.filter, GateRow.stateRow] using hobs.symm
  · exact route_of_traced h hinv hr (value_candidateOpen.mp hst)
  · have ⟨u, hu, he⟩ := List.mem_map.mp he
    have ⟨u', hu', he'⟩ := List.mem_map.mp he'
    subst he he'
    exact requests_of_events hadm hev (List.mem_reverse.mp hu) (List.mem_reverse.mp hu') hid
  · have ⟨u, hu, he⟩ := List.mem_map.mp ha
    have hu : u ∈ db.admissions := by simpa using hu
    have ⟨row', hr', had⟩ := hadm.row u hu
    have hrow := Option.some.inj (hr.symm.trans hr')
    exact he ▸ admissible_of_traced h hinv hr (hrow ▸ had)

end Accepted

section Runs

variable [Sha256] {τ : Type} [TrafficAdapter τ] {op : Op} {g₀ g : Gate τ} {db : GateDb}

theorem Commit.eventInv (hc : Commit op g₀ g db) (h : EventInv g.db) : EventInv db := by
  cases hc
  case admission =>
    intro e he
    rcases List.mem_cons.mp he with he | he
    · exact ⟨_, List.mem_cons_self, he ▸ ⟨rfl, rfl⟩⟩
    · have ⟨a, ha, hae⟩ := h e he
      exact ⟨a, List.mem_cons_of_mem _ ha, hae⟩
  case finish existing result hex _ =>
    have hmap {a} (ha : a ∈ g.db.admissions) :
        finishRow existing.requestId result a ∈ (insertFinish existing result g.db).admissions :=
      List.mem_map_of_mem ha
    have hc {a : Admission} : Continues a (finishRow existing.requestId result a) :=
      continues_finishRow
    intro e he
    rcases List.mem_cons.mp he with he | he
    · exact ⟨_, hmap (List.mem_of_find?_eq_some hex), he ▸ ⟨hc.requestId, hc.chosenGeneration⟩⟩
    · have ⟨a, ha, hid, hg⟩ := h e he
      exact ⟨_, hmap ha, hc.requestId.trans hid, hc.chosenGeneration.trans hg⟩
  all_goals exact h

theorem reachable_eventInv {env : τ → τ → Prop} (h : Reachable Initial (Next Always env) g) :
    EventInv g.db := by
  refine h.invariant (I := fun g : Gate τ => EventInv g.db) (fun g h => ?_) fun g g' h hi hn => ?_
  · rw [Initial] at h
    simp [EventInv, h]
  · exact (run_db_invariant (.single hn) (reachable_inv h fun _ h => h) hi
      fun _ _ _ _ _ hi hc => hc.eventInv hi).right

-- The call returns, and it is not a rollback or a fail-close of a gate that drains.
def Honest (op : Op) (g : Gate τ) : Prop :=
  (op.run g.start).value = .ok () ∧ Undrained op g

theorem reachable_traced (h : Reachable Initial (Calls Honest Anything) g) : Traced g.db := by
  refine h.invariant (I := fun g : Gate τ => Traced g.db) (fun g h => ?_) fun g g' h hi hn => ?_
  · rw [Initial] at h
    simp [Traced, h]
  · cases hn
    case op op hm => exact Op.traced hi (reachable_inv (reachable_calls h) fun _ h => h) hm.right hm.left
    case time     => exact hi
    case env      => exact hi

-- The oracle accepts what the gate has written if nothing but the end of a drain ends a drain.
theorem evaluate_of_honest {s : GateState} (h : Reachable Initial (Calls Honest Anything) g)
    (hs : g.state? = some s) (hd : s ≠ .draining) :
    ∃ r, g.db.trace.evaluate = .ok r ∧ r.verdict = .pass := by
  have ⟨row, hr, hst⟩ := Option.map_eq_some_iff.mp hs
  have hinv := reachable_inv (reachable_calls h) fun _ h => h
  have hadm := reachable_admissionInv (reachable_calls h)
  have hev := reachable_eventInv (reachable_calls h)
  have hstate : g.db.trace.state = some row.stateRow := by simp [trace, hr]
  exact pass_of_accepted hstate <|
    accepted_of_traced (reachable_traced h row hr) hinv hadm hev hr (hst ▸ hd)

end Runs

end Gate

namespace Gate.Sample

-- The gate after one call after the other, and whether a test holds of each of them.
def afterAll : List Op → Gate DeterministicTrafficAdapter → Gate DeterministicTrafficAdapter
  | [], g        => g
  | op :: ops, g => afterAll ops (op.after g)

def eachCall (test : Op → Gate DeterministicTrafficAdapter → Bool) :
    List Op → Gate DeterministicTrafficAdapter → Bool
  | [], _        => true
  | op :: ops, g => test op g && eachCall test ops (op.after g)

theorem reachable_afterAll {test : Op → Gate DeterministicTrafficAdapter → Bool}
    {may : Op → Gate DeterministicTrafficAdapter → Prop}
    {env : DeterministicTrafficAdapter → DeterministicTrafficAdapter → Prop} {ops : List Op}
    {init : Gate DeterministicTrafficAdapter → Prop} {g : Gate DeterministicTrafficAdapter}
    (ht : ∀ op g, test op g → may op g) (hg : Reachable init (Calls may env) g)
    (h : eachCall test ops g) : Reachable init (Calls may env) (afterAll ops g) := by
  induction ops generalizing g
  case nil            => exact hg
  case cons op ops ih =>
    have ⟨hop, hops⟩ := Bool.and_eq_true_iff.mp h
    exact ih (.step hg (.op op (ht op g hop))) hops

def returns (op : Op) (g : Gate DeterministicTrafficAdapter) : Bool :=
  (op.run g.start).value.toOption = some ()

theorem ok_of_returns {op : Op} {g : Gate DeterministicTrafficAdapter} (h : returns op g) :
    (op.run g.start).value = .ok () := by
  have h := of_decide_eq_true h
  generalize (op.run g.start).value = v at h
  cases v
  case error => cases h
  case ok    => rfl

theorem honest_of_returns {op : Op} {g : Gate DeterministicTrafficAdapter}
    (h : returns op g && g.state? ≠ some .draining) : Honest op g := by
  have ⟨hret, hs⟩ := Bool.and_eq_true_iff.mp h
  refine ⟨ok_of_returns hret, fun row hr hst => absurd ?_ (of_decide_eq_true hs)⟩
  simp [state?, hr, hst]

def undone : List Op :=
  [.stage candidate predecessor, .close 2, .open 2 proof, .drain 2, .rollback 2 none]

theorem undone_computed :
    eachCall (fun op g => returns op g && g.state? ≠ some .draining) undone created ∧
      (afterAll undone created).state? = some .rolledBack := by
  decide +kernel

theorem reachable_undone : Reachable Initial (Calls Honest Anything) (afterAll undone created) :=
  reachable_afterAll (fun _ _ => honest_of_returns) (.init initial_created) undone_computed.1

theorem passed_of_undone : (afterAll undone created).state? = some .rolledBack ∧
    ∃ r, (afterAll undone created).db.trace.evaluate = .ok r ∧ r.verdict = .pass :=
  ⟨undone_computed.2, evaluate_of_honest reachable_undone undone_computed.2 (by simp)⟩

-- The first request is not finished when the drain begins, so that the gate is still draining when
-- it is rolled back.
def abandoned : List Op :=
  [.stage candidate predecessor, .observe ⟨"first", 3⟩ none, .close 2, .open 2 proof, .drain 2,
    .rollback 2 none]

-- Every call returns and nothing but the gate changes the adapter, and still the oracle objects.
theorem not_passed_of_abandoned :
    Reachable (· = created) (Calls (fun op g => (op.run g.start).value = .ok ()) fun _ _ => False)
      (afterAll abandoned created) ∧
    created.traffic.faults = [] ∧ (afterAll abandoned created).state? = some .rolledBack ∧
    (afterAll abandoned created).db.trace.evaluate.toOption.map (·.verdict) = some .fail := by
  have ⟨hcalls, hstate, hverdict⟩ : eachCall returns abandoned created ∧
      (afterAll abandoned created).state? = some .rolledBack ∧
      (afterAll abandoned created).db.trace.evaluate.toOption.map (·.verdict) = some .fail := by
    decide +kernel
  exact ⟨reachable_afterAll (fun _ _ => ok_of_returns) (.init rfl) hcalls, rfl, hstate, hverdict⟩

end Gate.Sample
