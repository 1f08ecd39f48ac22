import ExtManager.Coordinator.Basic
import Mathlib.Data.List.Sort

open Crash Prog

namespace Coordinator

variable [Sha256] {τ π : Type} [TrafficAdapter τ] [TrafficGate π]

abbrev M (τ π α : Type) :=
  Prog (World τ π) Exc α

def row (planId : String) : M τ π Activation :=
  lift fun w => w.store.row planId

-- `with self.store.connection as db`: one transaction, undone as a whole where the body raises.
def transaction (body : Store → Except Exc Store) : M τ π Unit :=
  act fun w => match body w.store with
    | .ok s    => (.ok (), w.setStore s)
    | .error e => (.error e, w)

def hit (point : String) : M τ π Unit :=
  silent fun w =>
    if point ∈ w.faults then
      (.error (.runtime ("injected fault: " ++ point)), w.setFaults (w.faults.filter (· ≠ point)))
    else
      (.ok (), w)

-- `self._exposure_gate() is not None`.
def isExposure : M τ π Bool :=
  read fun w => match w.traffic with
    | .exposure _ => true
    | .plain _    => false

-- A call of the exposure gate. The coordinator makes none without one.
def onGate {α : Type} (m : Gate.M τ α) : M τ π α :=
  fun w => match w.traffic with
    | .exposure g => zoom (fun _ => g.start) (fun g w => w.setTraffic (.exposure g)) m w
    | .plain _    => raise (.other "no exposure gate") w

-- A call of a gate that is no exposure gate.
def onPlain (f : π → Except Exc Unit × π) : M τ π Unit :=
  act fun w => match w.traffic with
    | .exposure _ => (.error (.other "no traffic gate"), w)
    | .plain t    => ((f t).1, w.setTraffic (.plain (f t).2))

def plan (plan : Plan) : M τ π String := do
  raiseIf (plan.obligations = [] ∨ plan.obligations.any fun o => o.requiredOrdinals = [])
    (.contract .missingProcessEvidence
      "activation Plan requires non-empty evidence obligations and targets")
  transaction fun s => s.insert plan
  let exposed ← isExposure
  if exposed then do
    attempt (void (onGate (Gate.stage (.str plan.planId) plan.predecessor.asdict))) fun e => do
      transaction fun s => .ok (s.delete plan.planId)
      raise e
    pure plan.planId
  else do
    onPlain (TrafficGate.holdPredecessor plan.predecessor)
    pure plan.planId

def prepare (c : Call) (planId : String) : M τ π Unit := do
  let a ← row planId
  transaction fun s => do
    let s ← s.transition planId .preparing
    pure (s.log planId .wal "prepare" (.obj []))
  hit "prepare.after_wal"
  let receipt ← lift fun _ => c.prepare a.plan
  hit "prepare.after_side_effect"
  transaction fun s => (s.log planId .receipt "prepare" (.obj receipt)).transition planId .prepared
  let exposed ← isExposure
  when exposed <| onGate (Gate.close (a.plan.predecessor.generation + 1))

-- The write-ahead transaction of `launch`.
def launchWal (planId launchId : String) (s : Store) : Except Exc Store := do
  let s ← s.transition planId .launching
  let a ← s.row planId
  pure ((s.setActivation planId (some { a with launchId := some launchId })).log planId .wal
    "launch" (.obj [("launch_id", .str launchId)]))

def launch (c : Call) (planId launchId : String) : M τ π Unit := do
  let a ← row planId
  transaction (launchWal planId launchId)
  hit "launch.after_wal"
  let inventory ← lift fun _ => c.launch a.plan launchId
  hit "launch.after_side_effect"
  transaction fun s => do
    let s ← s.setInventory planId inventory
    (s.log planId .receipt "launch" (.obj [("count", .int inventory.length)])).transition planId
      .observing

-- The attestation is not one of a process that the plan has launched.
def stale (s : Store) (a : Activation) (planId : String) (item : Attestation) : Prop :=
  item.planId ≠ planId ∨ some item.launchId ≠ a.launchId ∨
    item.artifactId ∉ a.plan.plugins.map (·.id) ∨
    ¬(s.process? planId item.process.role item.process.ordinal).any fun p =>
      p.startId = item.process.startId ∧ p.epoch = item.process.epoch

instance (s : Store) (a : Activation) (planId : String) (item : Attestation) :
    Decidable (stale s a planId item) :=
  inferInstanceAs (Decidable (_ ∨ _ ∨ _ ∨ _))

def observe (c : Call) (planId : String) (item : Attestation) (now : Option Int) :
    M τ π Unit := do
  let a ← row planId
  raiseIf (¬a.state.observable)
    (.contract .invalidTransition ("observe from " ++ a.state.value))
  lift fun _ => c.verify item (now.getD c.now) a.plan
  let s ← read (·.store)
  raiseIf (stale s a planId item) (.contract .staleEvidence item.nonce)
  transaction fun s => s.insertEvidence planId c.managerEpoch item

def refreshInventory (planId : String) (inventory : List ProcessIdentity) : M τ π Unit := do
  let a ← row planId
  raiseIf (¬a.state.observable)
    (.contract .invalidTransition ("refresh inventory from " ++ a.state.value))
  transaction fun s => do
    let s ← s.setInventory planId inventory
    pure ((s.invalidate planId).log planId .inventory "refresh"
      (.obj [("processes", .arr (inventory.map (·.asdict)))]))

def canonicalDigest (value : Json) : String :=
  "sha256:" ++ Sha256.canonical value

-- One row of what the proof's evidence digest covers.
def evidenceJson (e : EvidenceRow) : Json :=
  .obj [("event", .str e.event), ("evidence_digest", .str e.evidenceDigest), ("nonce", .str e.nonce),
    ("obligation_id", .str e.obligationId), ("process_key", .str e.processKey)]

-- `_open_proof`.
def openProof (c : Call) (plan : Plan) (generation : Int) (s : Store) (g : Gate τ) :
    Except Exc OpenProof :=
  let evidence := (s.validEvidence plan.planId c.managerEpoch).insertionSort fun e e' =>
    e.nonce ≤ e'.nonce
  match g.db.getRow with
  | .error e => .error e
  | .ok row  => .ok {
      planId          := plan.planId
      generation      := generation
      evidenceCount   := evidence.length
      evidenceDigest  := canonicalDigest (.arr (evidence.map evidenceJson))
      coverageDigest  := canonicalDigest (.arr (plan.obligations.map (·.asdict)))
      lease           := g.grant
      candidateDigest := row.candidateDigest
    }

-- The outcome of a rollback from what the host and the gate have done.
def rollbackTarget (hostFailed : Bool) (gateOutcome : RollbackClass) : State :=
  if gateOutcome = .safetyUnknown then .safetyUnknown
  else if hostFailed ∨ gateOutcome = .failedSafe then .failedSafe
  else .rolledBack

-- The gate's part of `rollback`, with what it raised.
def rollbackOnGate (plan : Plan) (hostFailed : Bool) :
    M τ π (RollbackClass × Option String) :=
  attempt
    (if hostFailed then do
      let res ← onGate (Gate.failClose (plan.predecessor.generation + 1) "host rollback failed")
      pure (res.classification, none)
    else do
      let outcome ← onGate (Gate.rollback (plan.predecessor.generation + 1) none)
      pure (outcome, none))
    fun e => attempt
      (do
        let res ← onGate
          (Gate.failClose (plan.predecessor.generation + 1) "traffic rollback failed")
        pure (res.classification, some e.str))
      fun e' => pure (.safetyUnknown, some (e.str ++ "; fail-close: " ++ e'.str))

-- `rollback` through an exposure gate, once the host's receipt is written.
def rollbackExposure (planId : String) (plan : Plan) (hostOutcome : Json)
    (hostError : Option String) : M τ π State := do
  let (gateOutcome, gateError) ← rollbackOnGate plan hostError.isSome
  hit "rollback.after_traffic_side_effect"
  transaction fun s => .ok (s.log planId .receipt "rollback.traffic"
    (.obj [("error", .ofOption .str gateError), ("outcome", .str gateOutcome.value)]))
  let target := rollbackTarget hostError.isSome gateOutcome
  transaction fun s => (s.insertOutcome planId (target = .rolledBack)
    (.obj [("host_error", .ofOption .str hostError), ("host_outcome", hostOutcome),
      ("traffic_error", .ofOption .str gateError),
      ("traffic_outcome", .str gateOutcome.value)])).transition planId target
  pure target

-- `rollback` through any other gate.
def rollbackPlain (planId : String) (plan : Plan) (hostOutcome : Json)
    (hostError : Option String) : M τ π State := do
  let error ← attempt
    (do
      match hostError with
      | some e => raise (.runtime e)
      | none   => onPlain (TrafficGate.restore plan.predecessor)
      pure none)
    fun e => pure (some e.str)
  match error with
  | some e => do
    transaction fun s =>
      (s.insertOutcome planId false (.obj [("error", .str e)])).transition planId .failedSafe
    raise (.contract .rollbackFailed e)
  | none => do
    transaction fun s => ((s.insertOutcome planId true hostOutcome).log planId .receipt "rollback"
      hostOutcome).transition planId .rolledBack
    pure .rolledBack

def rollback (c : Call) (planId reason : String) : M τ π State := do
  let a ← row planId
  transaction fun s => do
    let s ← s.transition planId .rollback
    pure (s.log planId .wal "rollback" (.obj [("reason", .str reason)]))
  let host ← read fun _ => c.hostRollback a.plan.predecessor
  let hostOutcome := match host with
    | .ok outcome => Json.obj outcome
    | .error _    => .null
  let hostError := match host with
    | .ok _    => none
    | .error e => some e.str
  transaction fun s => .ok (s.log planId .receipt "rollback.host"
    (.obj [("error", .ofOption .str hostError), ("outcome", hostOutcome)]))
  let exposed ← isExposure
  if exposed then rollbackExposure planId a.plan hostOutcome hostError
  else rollbackPlain planId a.plan hostOutcome hostError

def externalLeaseLost (c : Call) (planId : String) : M τ π State := do
  let a ← row planId
  transaction fun s => s.transition planId .degraded
  if a.plan.fallbackProven then do
    transaction fun s => s.transition planId .reconcile
    pure .reconcile
  else
    rollback c planId "external lease invalid"

-- The write-ahead transaction of `commit`.
def commitWal (planId : String) (plan : Plan) (expected : Int) (s : Store) : Except Exc Store := do
  let s ← s.transition planId .commitReady
  (s.log planId .wal "commit" (.obj [("from", .int expected)])).bump plan expected

-- The traffic effect of `commit`.
def commitTraffic (c : Call) (plan : Plan) (expected : Int) : M τ π Unit := do
  let exposed ← isExposure
  if exposed then do
    raiseIf (¬c.signed) (.contract .missingProcessEvidence
      "ExposureGate requires signed receipt verification")
    let proof ← lift fun w => match w.traffic with
      | .exposure g => openProof c plan (expected + 1) w.store g
      | .plain _    => .error (.other "no exposure gate")
    void (onGate (Gate.open (expected + 1) proof))
  else
    onPlain (TrafficGate.activate plan)

def commit (c : Call) (planId : String) (expected : Int) : M τ π Int := do
  let a ← row planId
  if ¬c.leaseValid a.plan then do
    let _ ← externalLeaseLost c planId
    raise (.contract .externalLeaseInvalid planId)
  else do
    let s ← read (·.store)
    raiseIf (¬s.evidenceComplete c.managerEpoch a.plan c.now)
      (.contract .missingProcessEvidence planId)
    transaction (commitWal planId a.plan expected)
    hit "commit.after_wal"
    commitTraffic c a.plan expected
    hit "commit.after_side_effect"
    transaction fun s => (s.log planId .receipt "commit"
      (.obj [("generation", .int s.generation)])).transition planId .effective
    read (·.store.generation)

-- The receipt of the host says that its rollback failed, or says nothing.
def hostFailed (detail : Json) : Bool :=
  (detail.get? "error").getD .null ≠ .null || (detail.get? "outcome").getD .null = .null

-- What `recover` makes of an interrupted rollback: the gate's state on record and the plan's
-- target.
def recoverTarget (plan : Plan) (host : Option Json) (gateState : GateState) :
    M τ π (GateState × State) :=
  match host with
  | none => do
    let res ← onGate (Gate.failClose (plan.predecessor.generation + 1)
      "host rollback outcome missing during recovery")
    let gateState := if res.classification = .failedSafe then .failedSafe else .safetyUnknown
    pure (gateState, if gateState = .safetyUnknown then .safetyUnknown else .failedSafe)
  | some detail =>
    if gateState = .safetyUnknown then
      pure (gateState, .safetyUnknown)
    else if gateState = .failedSafe ∨ hostFailed detail then
      pure (gateState, .failedSafe)
    else if gateState = .rolledBack then
      pure (gateState, .rolledBack)
    else do
      let res ← onGate (Gate.failClose (plan.predecessor.generation + 1)
        ("unexpected gate recovery state " ++ gateState.value))
      pure (gateState,
        if res.classification = .failedSafe then .failedSafe else .safetyUnknown)

-- `recover` in `Rollback` with an exposure gate.
def recoverRollback (planId : String) (plan : Plan) : M τ π State := do
  let host ← read (·.store.latestDetail planId "rollback.host")
  let gateState ← onGate Gate.reconcile
  let (gateState, target) ← recoverTarget plan host gateState
  let hostDetail := host.getD (.obj [("error", .str "missing host receipt"), ("outcome", .null)])
  let detail := Json.obj [("gate_state", .str gateState.value), ("host", hostDetail),
    ("recovered", .bool true)]
  transaction fun s => ((s.insertOutcome planId (target = .rolledBack) detail).log planId .receipt
    "rollback.recover" detail).transition planId target
  pure target

-- `recover` in `CommitReady` with an exposure gate.
def recoverCommit (planId : String) (plan : Plan) : M τ π State := do
  let gateState ← onGate Gate.reconcile
  if gateState = .candidateOpen then do
    transaction fun s => (s.log planId .receipt "commit.reconcile"
      (.obj [("queried", .bool true)])).transition planId .effective
    pure .effective
  else do
    when (gateState = .candidateClosed) <|
      void (onGate (Gate.rollback (plan.predecessor.generation + 1) none))
    transaction fun s => do
      let s ← s.transition planId .reconcile
      pure (s.log planId .recovery "gate-not-open" (.obj [("gate_state", .str gateState.value)]))
    let a ← row planId
    pure a.state

-- `recover` before the open with an exposure gate.
def recoverPreOpen (planId : String) (plan : Plan) (state : State) : M τ π State := do
  let _ ← onGate (Gate.rollback (plan.predecessor.generation + 1) none)
  transaction fun s => do
    let s ← s.transition planId .reconcile
    pure (s.log planId .recovery "pre-open-rollback" (.obj [("state", .str state.value)]))
  let a ← row planId
  pure a.state

def recover (planId : String) : M τ π State := do
  let a ← row planId
  let exposed ← isExposure
  match a.state, exposed with
  | .rollback, false => do
    transaction fun s => s.transition planId .failedSafe
    pure .failedSafe
  | .rollback, true => recoverRollback planId a.plan
  | .commitReady, true => recoverCommit planId a.plan
  | .preparing, true | .launching, true | .observing, true =>
    recoverPreOpen planId a.plan a.state
  | .preparing, false | .launching, false | .commitReady, false => do
    onPlain (TrafficGate.restore a.plan.predecessor)
    transaction fun s => do
      let s ← s.transition planId .reconcile
      pure (s.log planId .recovery "reobserve" (.obj []))
    let a ← row planId
    pure a.state
  | .observing, false => do
    onPlain (TrafficGate.restore a.plan.predecessor)
    transaction fun s => s.transition planId .reconcile
    let a ← row planId
    pure a.state
  | _, _ => do
    let a ← row planId
    pure a.state

def resumeObserving (planId : String) : M τ π Unit :=
  transaction fun s => s.transition planId .observing

end Coordinator
