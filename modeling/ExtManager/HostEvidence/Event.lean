import ExtManager.Attestation.Profile
import ExtManager.Codec.Dumps
import ExtManager.Codec.Python

-- `hashlib.sha256(text.encode()).hexdigest()`.
class Hashlib where
  sha256 : Text → Text

namespace HostEvidence

-- An `AttestationError` or `ValueError`, the `TypeError` of a set for a list or an object, or the
-- `RecursionError` of the interpreter.
inductive Failure
  | profile (f : Profile.Failure)
  | unhashable
  | recursion
  deriving DecidableEq

def invalid {α : Type} : Except Failure α :=
  .error <| .profile <| .attestation .invalidStatement

def require (p : Prop) [Decidable p] : Except Failure Unit :=
  if p then .ok () else invalid

def HOST_SCHEMA : Text :=
  "vllm-hust-plugin-evidence/0.1".points

def EVENTS : List Text :=
  ["discovered", "resolved", "invoked", "failed", "skipped"].map (·.points)

inductive ObservationKind
  | loaderLifecycle
  | schedulerResolution
  | schedulerDispatch
  deriving DecidableEq

def ObservationKind.value : ObservationKind → Text
  | loaderLifecycle     => "loader_lifecycle".points
  | schedulerResolution => "scheduler_resolution".points
  | schedulerDispatch   => "scheduler_dispatch".points

@[ext]
structure EntryPoint where
  group : Text
  name  : Text
  value : Text
  deriving DecidableEq

@[ext]
structure Process where
  host             : Text
  role             : Text
  ordinal          : Int
  pid              : Int
  startIdentity    : Text
  processEpoch     : Int
  assignmentSource : Option Text
  deriving DecidableEq

inductive Occurrence
  | number (n : Int)
  | text (t : Text)
  deriving DecidableEq

-- An event without the fields that are the same in all of them.
structure HostEvent where
  eventId              : Text
  event                : Text
  observationKind      : ObservationKind
  entryPoint           : EntryPoint
  process              : Process
  observedAtNs         : Int
  deliveryAttempt      : Int
  planId               : Option Text
  launchId             : Option Text
  bindingStatus        : Text
  occurrenceId         : Option Occurrence
  controllerInstanceId : Option Text
  invocationSeq        : Option Int
  dispatchId           : Option Text
  identityStatus       : Text
  detail               : Option Text
  deriving DecidableEq

section Fields

-- `value in names` for a set of texts.
def oneOf (names : List Text) : Option Value → Except Failure Text
  | some (.str t)               => if t ∈ names then .ok t else invalid
  | some (.arr _) | some (.obj _) => .error .unhashable
  | _                           => invalid

def kind : Option Value → Except Failure ObservationKind
  | some (.str t)               =>
    if t = ObservationKind.loaderLifecycle.value then .ok .loaderLifecycle
    else if t = ObservationKind.schedulerResolution.value then .ok .schedulerResolution
    else if t = ObservationKind.schedulerDispatch.value then .ok .schedulerDispatch
    else invalid
  | some (.arr _) | some (.obj _) => .error .unhashable
  | _                           => invalid

def object (fieldSets : List (List String)) : Option Value → Except Failure Fields
  | some (.obj fields) =>
    if fieldSets.any fun names => Profile.sameKeys fields (names.map (·.points)) then .ok fields
    else invalid
  | _                  => invalid

def nonEmpty : Option Value → Except Failure Text
  | some (.str t) => if t ≠ [] then .ok t else invalid
  | _             => invalid

def nonNegative : Option Value → Except Failure Int
  | some (.int n) => if 0 ≤ n then .ok n else invalid
  | _             => invalid

def nullable : Option Value → Except Failure (Option Text)
  | some .null    => .ok none
  | some (.str t) => if t ≠ [] then .ok (some t) else invalid
  | _             => invalid

def occurrence : Option Value → Except Failure (Option Occurrence)
  | some .null    => .ok none
  | some (.int n) => if 1 ≤ n then .ok (some (.number n)) else invalid
  | some (.str t) => if t ≠ [] then .ok (some (.text t)) else invalid
  | _             => invalid

def sequence : Option Value → Except Failure (Option Int)
  | some .null    => .ok none
  | some (.int n) => if 1 ≤ n then .ok (some n) else invalid
  | _             => invalid

def isHex (p : Nat) : Bool :=
  ('0'.toNat ≤ p && p ≤ '9'.toNat) || ('a'.toNat ≤ p && p ≤ 'f'.toNat)

def digest : Option Value → Except Failure (Option Text)
  | some .null    => .ok none
  | some (.str t) => if t.length = 64 ∧ t.all isHex then .ok (some t) else invalid
  | _             => invalid

-- The process of an event may come with its source, which then is one of two.
def assignment : Option Value → Except Failure (Option Text)
  | none => .ok none
  | v    => some <$> oneOf ["host".points, "environment".points] v

end Fields

-- `_validate_unicode`.
mutual

def hasEncoding : Value → Bool
  | .str t      => Unicode.scalar t
  | .obj fields => fieldsHaveEncoding fields
  | .arr items  => itemsHaveEncoding items
  | _           => true

def itemsHaveEncoding : List Value → Bool
  | []      => true
  | v :: vs => hasEncoding v && itemsHaveEncoding vs

def fieldsHaveEncoding : List (Text × Value) → Bool
  | []               => true
  | (key, v) :: rest => Unicode.scalar key && hasEncoding v && fieldsHaveEncoding rest

end

def validateUnicode (value : Fields) : Except Failure Unit :=
  if fieldsHaveEncoding value then .ok () else .error <| .profile <| .attestation .unsupportedValue

section Identity

-- `json.dumps(items, separators=(",", ":"))` of a list without floats.
def dumps (items : List Value) : Text :=
  Dumps.value (Dumps.ascii id) (.arr items)

def ofText : Option Text → Value
  | none   => .null
  | some t => .str t

def ofOccurrence : Option Occurrence → Value
  | none             => .null
  | some (.number n) => .int n
  | some (.text t)   => .str t

def dispatchMaterial (e : HostEvent) : List Value :=
  [.str e.process.host, .str e.process.startIdentity, .int e.process.processEpoch, ofText e.planId,
    ofText e.launchId, ofText e.controllerInstanceId, ofOccurrence e.occurrenceId]

def eventMaterial (e : HostEvent) : List Value :=
  [.str e.process.host, .int e.process.pid, .str e.process.startIdentity,
    .int e.process.processEpoch, .str e.process.role, .int e.process.ordinal,
    .str e.entryPoint.group, .str e.entryPoint.name, .str e.entryPoint.value, .str e.event,
    ofText e.detail, ofOccurrence e.occurrenceId, ofText e.planId, ofText e.launchId,
    .str e.observationKind.value, ofText e.controllerInstanceId, .int e.deliveryAttempt,
    .int e.observedAtNs] ++ e.process.assignmentSource.toList.map .str

variable [Hashlib]

-- The fields of the scheduler are as the kind of the observation says.
def checkKind (e : HostEvent) : Except Failure Unit :=
  match e.observationKind with
  | .loaderLifecycle     =>
    require (e.occurrenceId = none ∧ e.controllerInstanceId = none ∧ e.invocationSeq = none ∧
      e.dispatchId = none)
  | .schedulerResolution => match e.controllerInstanceId with
    | some controller =>
      require (e.event = "resolved".points ∧
        e.occurrenceId = some (.text ("controller:".points ++ controller)) ∧
        e.invocationSeq = none ∧ e.dispatchId = none)
    | none            => invalid
  | .schedulerDispatch   => match e.controllerInstanceId, e.occurrenceId with
    | some _, some (.number n) => do
      require (e.event = "invoked".points ∧ e.invocationSeq = some n)
      require (e.dispatchId = some (Hashlib.sha256 (dumps (dispatchMaterial e))))
    | _, _                     => invalid

end Identity

def requiredFields : List Text :=
  ["schema", "event_id", "event", "observation_kind", "entry_point", "process", "observed_at_ns",
    "delivery_attempt", "plan_id", "launch_id", "binding_status", "occurrence_id",
    "controller_instance_id", "invocation_seq", "dispatch_id", "plugin_id", "artifact_digest",
    "identity_status", "detail"].map (·.points)

def processFields : List String :=
  ["host", "role", "ordinal", "pid", "start_identity", "process_epoch"]

-- `f"pid:{pid}:start_ticks:"`.
def startPrefix (pid : Int) : Text :=
  "pid:".points ++ Dumps.decimal pid ++ ":start_ticks:".points

variable [Hashlib] [Decimal]

def parseProcess (process : Fields) : Except Failure Process := do
  let host ← nonEmpty (process.get? "host".points)
  let role ← nonEmpty (process.get? "role".points)
  let startIdentity ← nonEmpty (process.get? "start_identity".points)
  let assignmentSource ← assignment (process.get? "assignment_source".points)
  let ordinal ← nonNegative (process.get? "ordinal".points)
  let pid ← nonNegative (process.get? "pid".points)
  let processEpoch ← nonNegative (process.get? "process_epoch".points)
  require ((startPrefix pid).isPrefixOf startIdentity)
  require (∃ n ∈ Text.int? (startIdentity.drop (startPrefix pid).length), 0 ≤ n)
  return { host, role, ordinal, pid, startIdentity, processEpoch, assignmentSource }

def parseEntryPoint (entry : Fields) : Except Failure EntryPoint := do
  let group ← nonEmpty (entry.get? "group".points)
  let name ← nonEmpty (entry.get? "name".points)
  let value ← nonEmpty (entry.get? "value".points)
  return { group, name, value }

def parseHostEvent (raw : Bytes) : Except Failure HostEvent := do
  let value ← (Profile.parseStrict raw).mapError .profile
  require (Profile.sameKeys value requiredFields)
  require (value.get? "schema".points = some (.str HOST_SCHEMA))
  let event ← oneOf EVENTS (value.get? "event".points)
  let observationKind ← kind (value.get? "observation_kind".points)
  validateUnicode value
  let entry ← object [["group", "name", "value"]] (value.get? "entry_point".points)
  let process ← object [processFields, processFields ++ ["assignment_source"]]
    (value.get? "process".points)
  let eventId ← nonEmpty (value.get? "event_id".points)
  let identityStatus ← nonEmpty (value.get? "identity_status".points)
  let entryPoint ← parseEntryPoint entry
  let process ← parseProcess process
  let observedAtNs ← nonNegative (value.get? "observed_at_ns".points)
  let deliveryAttempt ← nonNegative (value.get? "delivery_attempt".points)
  require (1 ≤ deliveryAttempt)
  let planId ← nullable (value.get? "plan_id".points)
  let launchId ← nullable (value.get? "launch_id".points)
  let detail ← nullable (value.get? "detail".points)
  let controllerInstanceId ← nullable (value.get? "controller_instance_id".points)
  let bindingStatus ← oneOf ["bound".points, "unbound".points] (value.get? "binding_status".points)
  require (planId = none ↔ launchId = none)
  require (planId ≠ none ∧ launchId ≠ none ↔ bindingStatus = "bound".points)
  let occurrenceId ← occurrence (value.get? "occurrence_id".points)
  let invocationSeq ← sequence (value.get? "invocation_seq".points)
  let dispatchId ← digest (value.get? "dispatch_id".points)
  let e : HostEvent := {
    eventId, event, observationKind, entryPoint, process, observedAtNs, deliveryAttempt, planId,
    launchId, bindingStatus, occurrenceId, controllerInstanceId, invocationSeq, dispatchId,
    identityStatus, detail
  }
  checkKind e
  require (eventId = Hashlib.sha256 (dumps (eventMaterial e)))
  require (value.get? "plugin_id".points = some .null ∧
    value.get? "artifact_digest".points = some .null)
  return e

end HostEvidence
