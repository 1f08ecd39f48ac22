import ExtManager.Gate.Basic

open Crash Prog

section Values

variable [Sha256]

-- `_digest`.
def digestOf (value : Json) : String :=
  "sha256:" ++ Sha256.ascii value

def OpenProof.digest (p : OpenProof) : String :=
  digestOf (.obj p.fields)

-- `sha256:[0-9a-f]{64}\Z` as a full match.
def isSha256 (s : String) : Bool :=
  s.toList.take 7 = "sha256:".toList && (s.toList.drop 7).length = 64 &&
    (s.toList.drop 7).all fun c => c.isDigit || ('a' ≤ c && c ≤ 'f')

def predecessorFence (generation : Int) : String :=
  "fence-" ++ toString generation

-- `int(value["generation"])`.
def generationOf (value : Json) : Except Exc Int :=
  match value.get? "generation" with
  | some (.int n)  => .ok n
  | some (.bool b) => .ok b.toInt
  | _              => .error (.other "generation")

-- `candidate if isinstance(candidate, str) else candidate["plan_id"]`.
def expectedPlan (candidate : Json) : Except Exc Json :=
  match candidate with
  | .str s => .ok (.str s)
  | _      => match candidate.get? "plan_id" with
    | some v => .ok v
    | none   => .error (.other "plan_id")

-- The detail of an open intent, `{**asdict(proof), "proof_digest": proof.digest}`.
def OpenProof.intentDetail (p : OpenProof) : Json :=
  .obj (p.fields ++ [("proof_digest", .str p.digest)])

-- The proof and the proof digest that `reconcile` loads from the detail of an open intent.
def OpenProof.ofDetail (detail : Json) : Except Exc (OpenProof × String) :=
  match detail.get? "plan_id", detail.get? "generation", detail.get? "evidence_count",
    detail.get? "evidence_digest", detail.get? "coverage_digest", detail.get? "lease",
    detail.get? "candidate_digest", detail.get? "proof_digest" with
  | some (.str planId), some (.int generation), some (.int evidenceCount),
    some (.str evidenceDigest), some (.str coverageDigest), some lease,
    some (.str candidateDigest), some (.str proofDigest) =>
    match lease.get? "holder", lease.get? "fencing_token", lease.get? "expires_at" with
    | some (.str holder), some (.int fencingToken), some (.int expiresAt) =>
      .ok (⟨planId, generation, evidenceCount, evidenceDigest, coverageDigest,
        ⟨holder, fencingToken, expiresAt⟩, candidateDigest⟩, proofDigest)
    | _, _, _ => .error (.other "lease")
  | _, _, _, _, _, _, _, _ => .error (.other "detail")

-- The fence of an open: generation, fencing token, digest and sequence number.
def candidateFence (generation : Int) (proof : OpenProof) (transitionSeq : Nat) : String :=
  "gate-" ++ toString generation ++ "-lease-" ++ toString proof.lease.fencingToken ++ "-" ++
    String.ofList ((proof.candidateDigest.toList.drop 7).take 12) ++ "-" ++
    toString (transitionSeq + 1)

end Values

namespace GateDb

-- `_row`.
def getRow (db : GateDb) : Except Exc GateRow :=
  match db.row with
  | none     => .error (.gate "gate is not initialized")
  | some row =>
    if row.schemaVersion ≠ 2 then .error (.gate "unknown gate schema version") else .ok row

def updateRow (db : GateDb) (f : GateRow → GateRow) : GateDb :=
  { db with row := db.row.map f }

-- `AUTOINCREMENT` over a table from which nothing is deleted.
def nextSeq (db : GateDb) : Nat :=
  db.transitions.length + 1

-- `_append`. Without an operation id the row is correlated by the operation and the generation.
def append (db : GateDb) (generation : Int) (kind : GateKind) (operation : GateOperation)
    (fromState toState : Option GateState) (fence : Option String) (detail : Json)
    (operationId : Option OperationId) : GateDb :=
  { db with
    transitions := {
      seq         := db.nextSeq
      generation  := generation
      kind        := kind
      operation   := operation
      operationId := operationId.getD ⟨operation.scope, generation⟩
      fromState   := fromState
      toState     := toState
      fence       := fence
      detail      := detail
    } :: db.transitions }

-- `_transition`. The compare-and-swap on the revision cannot miss: the row is read in the same
-- transaction.
def transition (db : GateDb) (generation : Int) (target : GateState) (operation : GateOperation)
    (kind : GateKind) (detail : Json) (fence : Option String) (operationId : Option OperationId) :
    Except Exc (Nat × GateDb) :=
  match db.getRow with
  | .error e => .error e
  | .ok row  =>
    if row.state.accepts target then
      .ok (db.nextSeq,
        (db.append generation kind operation (some row.state) (some target) fence detail
          operationId).updateRow fun row =>
            { row with state := target, transitionSeq := db.nextSeq, revision := row.revision + 1 })
    else
      .error (.gate ("invalid gate transition " ++ row.state.value ++ "->" ++ target.value))

-- The newest row of one operation and kind, `ORDER BY seq DESC LIMIT 1`.
def latest (db : GateDb) (operation : GateOperation) (kind : GateKind) : Option GateTransition :=
  db.transitions.find? fun t => t.operation = operation ∧ t.kind = kind

-- The newest intent of an operation, where no receipt of the operation is newer.
def pending (db : GateDb) (operation : GateOperation) : Option GateTransition :=
  match db.latest operation .intent, db.latest operation .receipt with
  | some intent, some receipt => if receipt.seq < intent.seq then some intent else none
  | some intent, none         => some intent
  | none, _                   => none

def hasReceipt (db : GateDb) (operationId : OperationId) : Bool :=
  db.transitions.any fun t => t.operationId = operationId ∧ t.kind = .receipt

-- The newest intent of a recovery close whose operation id has no receipt.
def pendingRecoveryClose (db : GateDb) : Option GateTransition :=
  db.transitions.find? fun t =>
    t.operation = .openReconcileCloseAll ∧ t.kind = .intent ∧ ¬db.hasReceipt t.operationId

-- Whether `close` finds an intent of its own to continue.
def pendingClose (db : GateDb) (operationId : OperationId) : Bool :=
  (db.transitions.any fun t => t.operationId = operationId ∧ t.kind = .intent) &&
    !db.hasReceipt operationId

def admission? (db : GateDb) (requestId : String) : Option Admission :=
  db.admissions.find? (·.requestId = requestId)

def unfinished (db : GateDb) (generation : Int) : Nat :=
  db.admissions.countP fun a => a.chosenGeneration = generation ∧ a.finishedAt = none

end GateDb

namespace Gate

variable [Sha256] {τ : Type} [TrafficAdapter τ]

abbrev M (τ α : Type) :=
  Prog (Gate τ) Exc α

def row : M τ GateRow :=
  lift fun g => g.db.getRow

-- `with self.connection as db`: one transaction, undone as a whole where the body raises.
def transaction (body : GateDb → Except Exc GateDb) : M τ Unit :=
  act fun g => match body g.db with
    | .ok db   => (.ok (), g.setDb db)
    | .error e => (.error e, g)

-- A transaction that only appends a row.
def append (generation : Int) (kind : GateKind) (operation : GateOperation)
    (fromState : GateState) (fence : Option String) (detail : Json)
    (operationId : Option OperationId) : M τ Unit :=
  transaction fun db =>
    .ok (db.append generation kind operation (some fromState) none fence detail operationId)

-- A transaction that makes a transition and then updates the gate's row, given the new sequence
-- number.
def transition (generation : Int) (target : GateState) (operation : GateOperation)
    (kind : GateKind) (detail : Json) (fence : Option String) (operationId : Option OperationId)
    (update : Nat → GateRow → GateRow) : M τ Unit :=
  transaction fun db =>
    match db.transition generation target operation kind detail fence operationId with
    | .ok (seq, db) => .ok (db.updateRow (update seq))
    | .error e      => .error e

-- A transaction that writes rows by `before` and then makes a transition.
def transitionAfter (before : GateDb → GateDb) (generation : Int) (target : GateState)
    (operation : GateOperation) (kind : GateKind) (detail : Json)
    (operationId : Option OperationId) : M τ Unit :=
  transaction fun db =>
    match (before db).transition generation target operation kind detail none operationId with
    | .ok (_, db) => .ok db
    | .error e    => .error e

def hit (point : String) : M τ Unit :=
  silent fun g =>
    if point ∈ g.faults then
      (.error (.injectedCrash point), g.setFaults (g.faults.filter (· ≠ point)))
    else
      (.ok (), g)

def now : M τ Int :=
  silent fun g => (.ok (g.clock g.ticks), g.tick)

def call {α : Type} (f : τ → Except Exc α × τ) : M τ α :=
  act fun g => ((f g.traffic).1, g.setTraffic (f g.traffic).2)

def queryRoute : M τ RouteState :=
  act fun g => match TrafficAdapter.queryRoute g.traffic with
    | (.ok r, t)    => (.ok r, (g.setTraffic t).addRead r)
    | (.error e, t) => (.error e, g.setTraffic t)

-- `self.traffic.route`.
def readRoute : M τ RouteState :=
  silent fun g =>
    (.ok (TrafficAdapter.route g.traffic), g.addRead (TrafficAdapter.route g.traffic))

-- `self.authority.current()`: the gate's own authority, or else that of the adapter.
def grant (g : Gate τ) : LeaseGrant :=
  g.authority.getD (TrafficAdapter.authority g.traffic)

-- `try: actual = self.traffic.query_route()`, with the exception's text where there is none.
def tryQueryRoute : M τ (Except String RouteState) :=
  attempt (do let r ← queryRoute; pure (.ok r)) (fun e => pure (.error e.str))

-- `try: self.traffic.close_all()`, with the exception's text if there is one.
def tryCloseAll : M τ (Option String) :=
  attempt (do call TrafficAdapter.closeAll; pure none) (fun e => pure (some e.str))

-- The error that is recorded for a close and the query after it.
def joinErrors (sep : String) (closeError : Option String) : Except String RouteState → Option String
  | .ok _    => closeError
  | .error e => match closeError with
    | some c => some (if c = "" then e else c ++ sep ++ e)
    | none   => some e

-- The columns that record the queried route, `unknown` where the query failed.
def recordRoute (actual : Except String RouteState) (_seq : Nat) (row : GateRow) : GateRow :=
  match actual with
  | .ok r    => { row with routeGeneration := r.generation, routeFence := r.fence }
  | .error _ => { row with routeGeneration := none, routeFence := "unknown" }

def asdict (actual : Except String RouteState) : Json :=
  match actual with
  | .ok r    => r.asdict
  | .error _ => .null

-- `actual is not None and actual.generation is None and actual.fence == "closed"`.
def isClosed (actual : Except String RouteState) : Bool :=
  match actual with
  | .ok r    => r.isClosed
  | .error _ => false

def closeClass (actual : Except String RouteState) : RollbackClass :=
  if isClosed actual then .failedSafe else .safetyUnknown

def failClose (generation : Int) (reason : String) : M τ FailCloseResult := do
  let row ← row
  raiseIf (row.candidateGeneration ≠ generation) (.gate "stale generation fail-close")
  append generation .intent .failClose row.state (some "closed")
    (.obj [("reason", .str reason)]) none
  hit "fail_close.before_effect"
  let closeError ← tryCloseAll
  hit "fail_close.after_effect"
  let actual ← tryQueryRoute
  let error := joinErrors "; route query: " closeError actual
  transition generation (closeClass actual).target .failClose .receipt
    (.obj [("actual_route", asdict actual), ("classification", .str (closeClass actual).value),
      ("error", .ofOption .str error)]) none none (recordRoute actual)
  pure ⟨closeClass actual, actual.toOption, error⟩

-- The row that `stage` inserts.
def stagedRow (candidate predecessor : Json) (generation : Int) (route : RouteState)
    (grant : LeaseGrant) : GateRow where
  state                     := .predecessorOpen
  predecessorGeneration     := generation
  candidateGeneration       := generation + 1
  predecessor               := predecessor
  candidate                 := candidate
  routeGeneration           := route.generation
  routeFence                := route.fence
  lease                     := grant
  transitionSeq             := 0
  revision                  := 0
  schemaVersion             := 2
  proofDigest               := none
  candidateDigest           := digestOf candidate
  observedCandidateDigest   := none
  predecessorDigest         := digestOf predecessor
  observedPredecessorDigest := some (digestOf predecessor)

def stage (candidate predecessor : Json) : M τ Int := do
  let generation ← lift fun _ => generationOf predecessor
  let existing ← read (·.db.row)
  match existing with
  | some existing => do
    raiseIf (¬(existing.candidateGeneration = generation + 1 ∧ existing.candidate = candidate ∧
        existing.predecessor = predecessor ∧ existing.routeFence = predecessorFence generation))
      (.gate "another candidate is already staged")
    pure (generation + 1)
  | none => do
    let route ← readRoute
    raiseIf (route.generation ≠ some generation ∨ route.fence ≠ predecessorFence generation ∨
        route.snapshot ≠ predecessor)
      (.gate "actual predecessor generation/fence/snapshot mismatch")
    let grant ← read Gate.grant
    transitionAfter
      (fun db => { db with row := some (stagedRow candidate predecessor generation route grant) })
      (generation + 1) .candidateStaged .stage .receipt
      (.obj [("candidate", candidate), ("candidate_digest", .str (digestOf candidate)),
        ("predecessor_digest", .str (digestOf predecessor))]) none
    pure (generation + 1)

-- The predecessor's route is no longer the one that was staged.
def predecessorMismatch (row : GateRow) (actual : RouteState) : Prop :=
  actual.generation ≠ some row.predecessorGeneration ∨ actual.fence ≠ row.routeFence ∨
    digestOf actual.snapshot ≠ row.predecessorDigest

instance (row : GateRow) (actual : RouteState) : Decidable (predecessorMismatch row actual) :=
  inferInstanceAs (Decidable (_ ∨ _ ∨ _))

-- What follows the intent of `close`.
def closeEffect (row : GateRow) (generation : Int) : M τ Unit := do
  hit "close.before_effect"
  call (TrafficAdapter.close generation)
  hit "close.after_effect"
  let actual ← queryRoute
  hit "close.after_query"
  if predecessorMismatch row actual then do
    append generation .receipt .close row.state (some actual.fence)
      (.obj [("cancelled", .str "predecessor continuity mismatch"),
        ("observed_predecessor_digest", .str (digestOf actual.snapshot))])
      (some ⟨.close, generation⟩)
    let _ ← failClose generation "predecessor continuity mismatch"
    raise (.gate "close changed predecessor route identity")
  else do
    transition generation .candidateClosed .close .receipt
      (.obj [("actual_route", actual.asdict),
        ("observed_predecessor_digest", .str (digestOf actual.snapshot))]) none
      (some ⟨.close, generation⟩) fun _ row =>
        { row with observedPredecessorDigest := some (digestOf actual.snapshot) }
    pure ()

-- The body of `close` once the generation matches and the candidate is not closed already.
def closeCandidate (row : GateRow) (generation : Int) : M τ Unit := do
  let pending ← read (·.db.pendingClose ⟨.close, generation⟩)
  when (¬pending) <|
    append generation .intent .close row.state none (.obj []) (some ⟨.close, generation⟩)
  closeEffect row generation

def close (generation : Int) : M τ Unit := do
  let row ← row
  raiseIf (row.candidateGeneration ≠ generation) (.gate "stale generation close")
  if row.state = .candidateClosed then
    pure ()
  else
    closeCandidate row generation

-- The route is not the candidate's under the fence of its open.
def candidateMismatch (generation : Int) (fence : Option String) (digest : String)
    (actual : RouteState) : Prop :=
  actual.generation ≠ some generation ∨ some actual.fence ≠ fence ∨
    digestOf actual.snapshot ≠ digest

instance (generation : Int) (fence : Option String) (digest : String) (actual : RouteState) :
    Decidable (candidateMismatch generation fence digest actual) :=
  inferInstanceAs (Decidable (_ ∨ _ ∨ _))

-- The columns that record an open candidate.
def recordOpen (generation : Int) (actual : RouteState) (seq : Nat) (row : GateRow) : GateRow :=
  { row with
    routeGeneration         := some generation
    routeFence              := actual.fence
    transitionSeq           := seq
    observedCandidateDigest := some (digestOf actual.snapshot) }

-- What follows the intent of `open`.
def openEffect (row : GateRow) (generation : Int) (proof : OpenProof) (fence : String) :
    M τ String := do
  hit "open.after_intent"
  let now ← now
  call (TrafficAdapter.open generation fence row.candidate proof.lease now)
  hit "open.after_side_effect"
  let actual ← queryRoute
  hit "open.after_query"
  if candidateMismatch generation (some fence) proof.candidateDigest actual then do
    append generation .receipt .open .opening (some fence)
      (.obj [("cancelled", .str "actual candidate route mismatch")])
      (some ⟨.open, generation⟩)
    let _ ← failClose generation "actual candidate route mismatch"
    raise (.gate "actual candidate route mismatch")
  else do
    transition generation .candidateOpen .open .receipt
      (.obj [("actual_route", .int generation),
        ("lease_fencing_token", .int proof.lease.fencingToken),
        ("observed_candidate_digest", .str (digestOf actual.snapshot)),
        ("proof_digest", .str proof.digest)])
      (some fence) none (recordOpen generation actual)
    pure fence

-- The body of `open` once the proof is checked and the candidate is neither open nor opening.
def openCandidate (row : GateRow) (generation : Int) (proof : OpenProof) : M τ String := do
  let fence := candidateFence generation proof row.transitionSeq
  hit "open.before_intent"
  transition generation .opening .open .intent proof.intentDetail (some fence) none
    fun _ row => { row with proofDigest := some proof.digest }
  openEffect row generation proof fence

def «open» (generation : Int) (proof : OpenProof) : M τ String := do
  let row ← row
  raiseIf (proof.generation ≠ generation ∨ row.candidateGeneration ≠ generation)
    (.gate "stale generation open")
  let expected ← lift fun _ => expectedPlan row.candidate
  raiseIf (.str proof.planId ≠ expected) (.gate "open proof plan mismatch")
  raiseIf (proof.candidateDigest ≠ row.candidateDigest)
    (.gate "open proof candidate snapshot mismatch")
  raiseIf (proof.evidenceCount < 1 ∨ ¬isSha256 proof.evidenceDigest ∨
      ¬isSha256 proof.coverageDigest)
    (.gate "open proof has no durable evidence coverage")
  let now ← now
  let valid ← read fun g => TrafficAdapter.leaseValid proof.lease now g.traffic
  raiseIf (proof.lease ≠ row.lease ∨ ¬valid) (.gate "lease lost")
  if row.state = .candidateOpen then do
    raiseIf (row.proofDigest ≠ some proof.digest) (.gate "idempotent open proof mismatch")
    pure row.routeFence
  else if row.state = .opening then
    raise (.gate "opening outcome requires reconcile")
  else
    openCandidate row generation proof

-- What follows once the gate is draining.
def finishDrain (row : GateRow) (generation : Int) : M τ Bool := do
  let unfinished ← read (·.db.unfinished row.predecessorGeneration)
  if unfinished ≠ 0 then
    pure false
  else do
    transition generation .candidateOpen .drain .receipt
      (.obj [("unfinished_predecessor", .int 0)]) none none fun _ row => row
    pure true

def drain (generation : Int) : M τ Bool := do
  let row ← row
  raiseIf (row.candidateGeneration ≠ generation) (.gate "stale generation drain")
  when (row.state ≠ .draining) <|
    transition generation .draining .drain .intent (.obj []) none none fun _ row => row
  finishDrain row generation

-- The predecessor's route differs from what `observe` expects of it before the open.
def continuityMismatch (row : GateRow) (actual : RouteState) : Prop :=
  row.state.beforeOpen ∧ (actual.generation ≠ some row.predecessorGeneration ∨
    actual.fence ≠ predecessorFence row.predecessorGeneration ∨
    digestOf actual.snapshot ≠ row.predecessorDigest)

instance (row : GateRow) (actual : RouteState) : Decidable (continuityMismatch row actual) :=
  inferInstanceAs (Decidable (_ ∧ _))

-- The route is not the one that the gate has recorded.
def unknownRoute (row : GateRow) (actual : RouteState) : Prop :=
  actual.generation ≠ row.routeGeneration ∨ actual.fence ≠ row.routeFence ∨
    (actual.generation = some row.candidateGeneration ∧
      some (digestOf actual.snapshot) ≠ row.observedCandidateDigest)

instance (row : GateRow) (actual : RouteState) : Decidable (unknownRoute row actual) :=
  inferInstanceAs (Decidable (_ ∨ _ ∨ _))

def newAdmission (request : AdmissionRequest) (row : GateRow) (fence : String) (generation : Int) :
    Admission where
  requestId        := request.requestId
  routeEpoch       := fence
  chosenGeneration := generation
  admittedAt       := request.admittedAt
  finishedAt       := none
  result           := none
  abort            := none
  transitionSeq    := row.transitionSeq

-- Both tables get their row in one transaction.
def insertAdmission (a : Admission) (db : GateDb) : GateDb :=
  { db with
    admissions      := a :: db.admissions
    admissionEvents := {
      requestId        := a.requestId
      kind             := .admission
      chosenGeneration := a.chosenGeneration
      routeEpoch       := a.routeEpoch
      time             := a.admittedAt
      transitionSeq    := a.transitionSeq
      detail           := .obj []
    } :: db.admissionEvents }

-- What `observe` does for a request without an admission.
def grantAdmission (request : AdmissionRequest) : M τ Admission := do
  let row ← row
  raiseIf row.state.blocked (.gate ("admission blocked in " ++ row.state.value))
  let actual ← readRoute
  match actual.generation with
  | none            => raise (.gate "traffic is failed safe")
  | some generation => do
    raiseIf (actual.fence = "closed") (.gate "traffic is failed safe")
    if continuityMismatch row actual then do
      let _ ← failClose row.candidateGeneration "pre-open predecessor continuity mismatch"
      raise (.gate "predecessor route identity changed")
    else do
      raiseIf (unknownRoute row actual) (.gate "unknown route state")
      transaction fun db =>
        .ok (insertAdmission (newAdmission request row actual.fence generation) db)
      pure (newAdmission request row actual.fence generation)

-- The first half of `observe`: a request without an admission gets one.
def admitted (request : AdmissionRequest) : M τ Admission := do
  let existing ← read (·.db.admission? request.requestId)
  match existing with
  | some existing => pure existing
  | none          => grantAdmission request

-- `UPDATE admission SET ... WHERE request_id=? AND finished_at IS NULL`.
def finishRow (requestId : String) (result : AdmissionResult) (a : Admission) : Admission :=
  if a.requestId = requestId ∧ a.finishedAt = none then
    { a with
      finishedAt := some result.finishedAt
      result     := result.result
      abort      := result.abort }
  else
    a

def insertFinish (existing : Admission) (result : AdmissionResult) (db : GateDb) : GateDb :=
  { db with
    admissions      := db.admissions.map (finishRow existing.requestId result)
    admissionEvents := {
      requestId        := existing.requestId
      kind             := .finish
      chosenGeneration := existing.chosenGeneration
      routeEpoch       := existing.routeEpoch
      time             := result.finishedAt
      transitionSeq    := existing.transitionSeq
      detail           := .obj [("abort", .ofOption .str result.abort),
        ("result", .ofOption .str result.result)]
    } :: db.admissionEvents }

-- The second half of `observe`: an admitted request finishes, once.
def finishAdmission (existing : Admission) (result : AdmissionResult) : M τ Unit := do
  raiseIf (result.result.isNone = result.abort.isNone)
    (.gate "finish requires exactly one of result or abort")
  raiseIf (result.finishedAt < existing.admittedAt) (.gate "finish precedes admission")
  raiseIf existing.finishedAt.isSome (.gate "request finish is immutable")
  transaction fun db => .ok (insertFinish existing result db)

def observe (request : AdmissionRequest) (result : Option AdmissionResult) : M τ Int := do
  let existing ← admitted request
  match result with
  | some result => do
    finishAdmission existing result
    pure existing.chosenGeneration
  | none => pure existing.chosenGeneration

-- `reconcile` with a `fail_close` intent that has no receipt: the route decides.
def reconcileFailClose (row : GateRow) (intent : GateTransition) : M τ GateState := do
  let actual ← tryQueryRoute
  transition row.candidateGeneration (closeClass actual).target .failClose .receipt
    (.obj [("actual_route", asdict actual), ("classification", .str (closeClass actual).value),
      ("error", .ofOption .str (joinErrors "" none actual)), ("reconciled", .bool true)]) none
    (some intent.operationId) (recordRoute actual)
  pure (closeClass actual).target

-- Both the recovery close and the open that it recovers get their receipt.
def recordRecoveryClose (row : GateRow) (intent : GateTransition)
    (actual : Except String RouteState) : M τ GateState := do
  let generation := row.candidateGeneration
  let openIntent ← lift fun g => match g.db.latest .open .intent with
    | some intent => .ok intent
    | none        => .error (.other "no open intent")
  transitionAfter
    (fun db => db.append generation .receipt .openReconcileCloseAll (some .opening) none
      (some "closed") (.obj [("actual_route", asdict actual)]) (some intent.operationId))
    generation (closeClass actual).target .open .receipt
    (.obj [("cancelled", .str "recovery close"), ("closed", .bool (isClosed actual))])
    (some openIntent.operationId)
  pure (closeClass actual).target

-- `reconcile` with a recovery close that has no receipt: the close is made again.
def reconcileRecoveryClose (row : GateRow) (intent : GateTransition) : M τ GateState := do
  hit "open_recovery_close.before_effect"
  let _ ← tryCloseAll
  hit "open_recovery_close.after_effect"
  let actual ← tryQueryRoute
  hit "open_recovery_close.after_query"
  recordRecoveryClose row intent actual

-- The route is the predecessor's in generation, fence and snapshot.
def isPredecessor (row : GateRow) (r : RouteState) : Bool :=
  r.generation = some row.predecessorGeneration &&
    r.fence = predecessorFence row.predecessorGeneration && r.snapshot = row.predecessor

def rollbackClass (row : GateRow) : Except String RouteState → RollbackClass
  | .ok r    =>
    if isPredecessor row r then .restoredStrong
    else if r.isClosed then .failedSafe
    else .safetyUnknown
  | .error _ => .safetyUnknown

-- `reconcile` with a `rollback` intent that has no receipt: the route decides.
def reconcileRollback (row : GateRow) (intent : GateTransition) : M τ GateState := do
  let actual ← tryQueryRoute
  transition row.candidateGeneration (rollbackClass row actual).target .rollback .receipt
    (.obj [("actual_route", asdict actual),
      ("classification", .str (rollbackClass row actual).value), ("reconciled", .bool true)]) none
    (some intent.operationId) fun _ row => row
  pure (rollbackClass row actual).target

-- The open is given up: its intent gets a receipt that says why, and the gate fails closed.
def cancelOpen (intent : GateTransition) (generation : Int) (reason : String) :
    M τ GateState := do
  append generation .receipt .open .opening intent.fence (.obj [("cancelled", .str reason)])
    (some intent.operationId)
  let outcome ← failClose generation reason
  pure (if outcome.classification = .failedSafe then .failedSafe else .safetyUnknown)

-- `reconcile` of an open whose route is not the candidate's: both routes are closed.
def reconcileClose (intent : GateTransition) (generation : Int) (actual : RouteState) :
    M τ GateState := do
  append generation .intent .openReconcileCloseAll .opening (some "closed")
    (.obj [("queried_actual_generation", .ofOption .int actual.generation)])
    (some ⟨.openReconcileClose, generation⟩)
  hit "open_recovery_close.before_effect"
  let closeError ← tryCloseAll
  hit "open_recovery_close.after_effect"
  let closedRoute ← tryQueryRoute
  hit "open_recovery_close.after_query"
  let closeError := joinErrors "; " closeError closedRoute
  append generation .receipt .openReconcileCloseAll .opening (some "closed")
    (.obj [("actual_generation", .ofOption .int actual.generation),
      ("actual_route", asdict closedRoute), ("error", .ofOption .str closeError)])
    (some ⟨.openReconcileClose, generation⟩)
  if closeError.isSome then
    cancelOpen intent generation "open recovery close failed"
  else do
    -- the route that was queried after the close is recorded, but it decides nothing here
    transition generation .failedSafe .open .receipt
      (.obj [("action", .str "close_all"),
        ("actual_generation", .ofOption .int actual.generation)]) none (some intent.operationId)
      fun _ row => { row with routeGeneration := none, routeFence := "closed" }
    pure .failedSafe

-- `reconcile` in `OPENING` once no intent of another operation is pending.
def reconcileOpening (row : GateRow) : M τ GateState := do
  let generation := row.candidateGeneration
  let intent ← lift fun g => match g.db.latest .open .intent with
    | some intent => .ok intent
    | none        => .error (.other "no open intent")
  let proof ← lift fun _ => OpenProof.ofDetail intent.detail
  let now ← now
  let valid ← read fun g => TrafficAdapter.leaseValid proof.1.lease now g.traffic
  if proof.1.digest ≠ proof.2 ∨ proof.1.lease ≠ row.lease ∨ ¬valid then
    cancelOpen intent generation "persisted open lease is stale"
  else do
    let actual ← tryQueryRoute
    match actual with
    | .error _   => cancelOpen intent generation "open recovery route query failed"
    | .ok actual =>
      if candidateMismatch generation intent.fence proof.1.candidateDigest actual then
        reconcileClose intent generation actual
      else do
        transition generation .candidateOpen .openReconcile .receipt
          (.obj [("observed_candidate_digest", .str (digestOf actual.snapshot)),
            ("queried_actual_route", .int generation)]) (some actual.fence)
          (some intent.operationId) (recordOpen generation actual)
        pure .candidateOpen

def reconcile : M τ GateState := do
  let row ← row
  let db ← read (·.db)
  match db.pending .failClose with
  | some intent => reconcileFailClose row intent
  | none        => match db.pendingRecoveryClose with
    | some intent => reconcileRecoveryClose row intent
    | none        => match db.pending .rollback with
      | some intent => reconcileRollback row intent
      | none        => if row.state ≠ .opening then pure row.state else reconcileOpening row

-- What `rollback` falls back to when the predecessor is not restored.
def closeAfterRestore : M τ RollbackClass := do
  let _ ← tryCloseAll
  let actual ← readRoute
  pure (if actual.isClosed then .failedSafe else .safetyUnknown)

-- The outcome of `rollback` from what `restore` returned or raised.
def restoreOutcome (row : GateRow) (behavioralOracle : Option BehavioralOracleResult)
    (restored : Option RouteState) : M τ RollbackClass := do
  let behavioral ← read fun g => TrafficAdapter.behavioralRestore g.traffic
  match restored with
  | none        => closeAfterRestore
  | some actual =>
    if isPredecessor row actual then
      pure .restoredStrong
    else if BehavioralOracleResult.accepts behavioralOracle ∧ behavioral then
      pure .behavioral
    else
      closeAfterRestore

-- The call of `restore` that a rollback makes.
def restoreCall (row : GateRow) (t : τ) : Except Exc RouteState × τ :=
  TrafficAdapter.restore row.predecessorGeneration (predecessorFence row.predecessorGeneration)
    row.predecessor t

-- `try: actual = self.traffic.restore(...)`.
def tryRestore (row : GateRow) : M τ (Option RouteState) :=
  attempt (do let r ← call (restoreCall row); pure (some r)) (fun _ => pure none)

def rollback (generation : Int) (behavioralOracle : Option BehavioralOracleResult) :
    M τ RollbackClass := do
  let row ← row
  raiseIf (row.candidateGeneration ≠ generation) (.gate "stale generation rollback")
  let oracle := Json.ofOption BehavioralOracleResult.asdict behavioralOracle
  append generation .intent .rollback row.state
    (some (predecessorFence row.predecessorGeneration)) (.obj [("behavioral_oracle", oracle)]) none
  hit "rollback.after_intent"
  let restored ← tryRestore row
  let outcome ← restoreOutcome row behavioralOracle restored
  hit "rollback.after_effect"
  let route ← readRoute
  transition generation outcome.target .rollback .receipt
    (.obj [("actual_route", route.asdict), ("behavioral_oracle", oracle),
      ("classification", .str outcome.value)]) none none
    fun _ row => { row with routeGeneration := route.generation, routeFence := route.fence }
  pure outcome

end Gate
