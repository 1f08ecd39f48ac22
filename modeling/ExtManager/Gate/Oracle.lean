import ExtManager.Gate.Operations
import Mathlib.Data.List.Dedup

-- A row of `gate_transition` as SQLite returns it, with `detail_json` decoded: the oracle takes any
-- text for a kind, an operation or a state.
structure TransitionRow where
  seq         : Int
  generation  : Int
  kind        : String
  operation   : String
  operationId : String
  fromState   : Option String
  toState     : Option String
  fence       : Option String
  detail      : List (String × Json)
  deriving DecidableEq

structure AdmissionRow where
  requestId        : String
  routeEpoch       : String
  chosenGeneration : Int
  transitionSeq    : Int
  deriving DecidableEq

structure AdmissionEventRow where
  requestId        : String
  chosenGeneration : Int
  deriving DecidableEq

-- The columns of `gate_state` that the oracle reads. The table lets `candidate_generation` be null.
structure StateRow where
  state                   : String
  predecessorGeneration   : Int
  candidateGeneration     : Option Int
  routeGeneration         : Option Int
  routeFence              : String
  candidateDigest         : String
  observedCandidateDigest : Option String
  predecessorDigest       : String
  deriving DecidableEq

-- What the oracle's four queries return, in their order.
structure Trace where
  transitions     : List TransitionRow
  admissions      : List AdmissionRow
  admissionEvents : List AdmissionEventRow
  state           : Option StateRow
  deriving DecidableEq

-- An error carries what its text shows.
inductive OracleError
  | missing
  | sequenceGap (expected : Int)
  | sourceMismatch (seq : Int) (fromState : Option String) (replayState : String)
  | duplicateIntent (operationId : String)
  | receiptWithoutIntent (operationId : String)
  | unknownTransition (replayState target : String)
  | generationMismatch (seq : Int)
  | unpairedIntents (operationIds : List String)
  | finalState
  | multipleOpens
  | finalRoute
  | openSnapshot
  | closeSnapshot
  | crossedGeneration (requestId : String)
  | candidateBeforeOpen (requestId : String)
  | predecessorAfterOpen (requestId : String)
  | unknownGeneration (requestId : String)
  | missingFence (requestId : String)
  | candidateFence (requestId : String)
  | predecessorFence (requestId : String)
  deriving DecidableEq, Repr

inductive OracleVerdict
  | pass
  | fail
  deriving DecidableEq, Repr

structure OracleResult where
  verdict               : OracleVerdict
  errors                : List OracleError
  transitionCount       : Option Nat
  admissionCount        : Option Nat
  candidateGeneration   : Option Int
  predecessorGeneration : Option Int
  firstCandidateOpenSeq : Option Int
  deriving DecidableEq

namespace Oracle

-- `if c: errors.append(e)`.
def errorIf (c : Prop) [Decidable c] (e : OracleError) : List OracleError :=
  if c then [e] else []

-- The oracle's own table. It has no row for the terminal states.
def allowed : List (GateState × List GateState) :=
  [(.predecessorOpen, [.candidateStaged, .failedSafe, .safetyUnknown]),
    (.candidateStaged, [.candidateClosed, .rolledBack, .failedSafe, .safetyUnknown]),
    (.candidateClosed, [.opening, .rolledBack, .failedSafe, .safetyUnknown]),
    (.opening, [.candidateOpen, .failedSafe, .safetyUnknown]),
    (.candidateOpen, [.draining, .rolledBack, .failedSafe, .safetyUnknown]),
    (.draining, [.candidateOpen])]

-- `allowed.get(replay_state, set())`.
def allowedFrom (state : String) : List String :=
  ((allowed.map fun (s, targets) => (s.value, targets.map (·.value))).lookup state).getD []

end Oracle

namespace TransitionRow

def isOpenReceipt (row : TransitionRow) : Bool :=
  row.kind = "receipt" && row.toState = some GateState.candidateOpen.value &&
    "open".toList.isPrefixOf row.operation.toList

def isCloseReceipt (row : TransitionRow) : Bool :=
  row.operation = "close" && row.kind = "receipt"

-- A receipt that the oracle pairs with an intent.
def isPairedReceipt (row : TransitionRow) : Bool :=
  row.kind = "receipt" && row.operation ≠ "stage"

end TransitionRow

namespace Oracle

-- What the loop over the transitions keeps. The keys of `pending` are in the order of a Python
-- dictionary.
structure Scan where
  expectedSeq : Int
  replayState : String
  pending     : List String
  deriving DecidableEq

namespace Scan

def start : Scan where
  expectedSeq := 1
  replayState := GateState.predecessorOpen.value
  pending     := []

def pairErrors (s : Scan) (row : TransitionRow) : List OracleError :=
  if row.kind = "intent" then
    errorIf (row.operationId ∈ s.pending) (.duplicateIntent row.operationId)
  else if row.isPairedReceipt then
    errorIf (row.operationId ∉ s.pending) (.receiptWithoutIntent row.operationId)
  else
    []

def targetErrors (s : Scan) (row : TransitionRow) : List OracleError :=
  match row.toState with
  | none        => []
  | some target => errorIf (target ≠ s.replayState ∧ target ∉ allowedFrom s.replayState)
    (.unknownTransition s.replayState target)

-- The errors of one row.
def errors (candidate : Option Int) (s : Scan) (row : TransitionRow) : List OracleError :=
  errorIf (row.seq ≠ s.expectedSeq) (.sequenceGap s.expectedSeq) ++
    errorIf (row.fromState ≠ some s.replayState)
      (.sourceMismatch row.seq row.fromState s.replayState) ++
    s.pairErrors row ++ s.targetErrors row ++
    errorIf (candidate.any (· ≠ row.generation)) (.generationMismatch row.seq)

def nextPending (s : Scan) (row : TransitionRow) : List String :=
  if row.kind = "intent" then
    if row.operationId ∈ s.pending then s.pending else s.pending ++ [row.operationId]
  else if row.isPairedReceipt then
    s.pending.filter (· ≠ row.operationId)
  else
    s.pending

def next (s : Scan) (row : TransitionRow) : Scan where
  expectedSeq := (if row.seq ≠ s.expectedSeq then row.seq else s.expectedSeq) + 1
  replayState := row.toState.getD s.replayState
  pending     := s.nextPending row

end Scan

-- The loop over the transitions.
def scan (candidate : Option Int) : Scan → List TransitionRow → List OracleError × Scan
  | s, []          => ([], s)
  | s, row :: rows =>
    let (errors, s') := scan candidate (s.next row) rows
    (s.errors candidate row ++ errors, s')

-- `state[...]` where there is no row.
def noState : Exc :=
  .other "'NoneType' object is not subscriptable"

def openReceiptErrors (state : Option StateRow) (receipt : TransitionRow) :
    Except Exc (List OracleError) :=
  match state with
  | none       => .error noState
  | some state => .ok (errorIf
      (receipt.detail.lookup "observed_candidate_digest" ≠ some (.str state.candidateDigest))
      .openSnapshot)

-- `detail.get("observed_predecessor_digest")`, where a null is as good as none.
def observedPredecessor (receipt : TransitionRow) : Option Json :=
  (receipt.detail.lookup "observed_predecessor_digest").filter (· ≠ .null)

def closeReceiptErrors (state : Option StateRow) (receipt : TransitionRow) :
    Except Exc (List OracleError) :=
  if (receipt.detail.lookup "cancelled").isSome then .ok []
  else match observedPredecessor receipt, state with
    | none, _                   => .ok []
    | some _, none              => .error noState
    | some observed, some state =>
      .ok (errorIf (observed ≠ .str state.predecessorDigest) .closeSnapshot)

-- The loop over the admission events: `seen` has the first generation of every request.
def crossedErrors : List (String × Int) → List AdmissionEventRow → List OracleError
  | _, []              => []
  | seen, event :: events => match seen.lookup event.requestId with
    | none       => crossedErrors ((event.requestId, event.chosenGeneration) :: seen) events
    | some prior => errorIf (prior ≠ event.chosenGeneration) (.crossedGeneration event.requestId) ++
      crossedErrors seen events

-- The first open of a trace: its sequence number and its fence.
structure FirstOpen where
  seq   : Int
  fence : Option String
  deriving DecidableEq

def admissionErrors (candidate predecessor : Option Int) (first : Option FirstOpen)
    (row : AdmissionRow) : List OracleError :=
  errorIf (candidate = some row.chosenGeneration ∧ first.all fun o => row.transitionSeq < o.seq)
      (.candidateBeforeOpen row.requestId) ++
    errorIf (predecessor = some row.chosenGeneration ∧ first.any fun o => row.transitionSeq ≥ o.seq)
      (.predecessorAfterOpen row.requestId) ++
    errorIf (candidate ≠ some row.chosenGeneration ∧ predecessor ≠ some row.chosenGeneration)
      (.unknownGeneration row.requestId) ++
    errorIf (row.routeEpoch = "") (.missingFence row.requestId) ++
    errorIf (candidate = some row.chosenGeneration ∧ first.bind (·.fence) ≠ some row.routeEpoch)
      (.candidateFence row.requestId) ++
    errorIf (predecessor = some row.chosenGeneration ∧
        row.routeEpoch ≠ predecessorFence row.chosenGeneration)
      (.predecessorFence row.requestId)

-- The durable route is not the one that the first open has observed.
def routeMismatch (state : StateRow) (first : Option FirstOpen) : Prop :=
  state.routeGeneration ≠ state.candidateGeneration ∨
    some state.routeFence ≠ first.bind (·.fence) ∨
    state.observedCandidateDigest ≠ some state.candidateDigest

instance (state : StateRow) (first : Option FirstOpen) : Decidable (routeMismatch state first) :=
  inferInstanceAs (Decidable (_ ∨ _ ∨ _))

-- The errors that are found between the transitions and the receipts.
def stateErrors (state : Option StateRow) (openReceipts : List TransitionRow)
    (first : Option FirstOpen) (s : Scan) : List OracleError :=
  errorIf (s.pending ≠ []) (.unpairedIntents (s.pending.mergeSort (· ≤ ·))) ++
    errorIf (state.any fun state => s.replayState ≠ state.state) .finalState ++
    errorIf ((openReceipts.map (·.generation)).dedup.length > 1) .multipleOpens ++
    errorIf (state.any fun state => state.state = GateState.candidateOpen.value ∧
      routeMismatch state first) .finalRoute

end Oracle

namespace Trace

open Oracle

def openReceipts (t : Trace) : List TransitionRow :=
  t.transitions.filter (·.isOpenReceipt)

def closeReceipts (t : Trace) : List TransitionRow :=
  t.transitions.filter (·.isCloseReceipt)

def firstOpen (t : Trace) : Option FirstOpen :=
  t.openReceipts.head?.map fun row => ⟨row.seq, row.fence⟩

def candidate (t : Trace) : Option Int :=
  t.state.bind (·.candidateGeneration)

def predecessor (t : Trace) : Option Int :=
  t.state.map (·.predecessorGeneration)

def evaluate (t : Trace) : Except Exc OracleResult := do
  let (transitionErrors, s) := scan t.candidate .start t.transitions
  let openErrors ← t.openReceipts.mapM (openReceiptErrors t.state)
  let closeErrors ← t.closeReceipts.mapM (closeReceiptErrors t.state)
  let errors :=
    errorIf (t.state = none ∨ t.transitions = []) .missing ++ transitionErrors ++
      stateErrors t.state t.openReceipts t.firstOpen s ++ openErrors.flatten ++
      closeErrors.flatten ++ crossedErrors [] t.admissionEvents ++
      t.admissions.flatMap (admissionErrors t.candidate t.predecessor t.firstOpen)
  return {
    verdict               := if errors = [] then .pass else .fail
    errors                := errors
    transitionCount       := if t.transitions = [] then none else some t.transitions.length
    admissionCount        := if t.admissions = [] then none else some t.admissions.length
    candidateGeneration   := t.candidate
    predecessorGeneration := t.predecessor
    firstCandidateOpenSeq := t.firstOpen.map (·.seq)
  }

end Trace
