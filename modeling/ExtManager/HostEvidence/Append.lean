import ExtManager.Codec.Canonical
import ExtManager.Codec.Nested
import ExtManager.HostEvidence.Journal

namespace HostEvidence

section Event

def EntryPoint.fields (p : EntryPoint) : Fields :=
  [("group".points, .str p.group), ("name".points, .str p.name), ("value".points, .str p.value)]

def Process.fields (p : Process) : Fields :=
  (p.assignmentSource.toList.map fun source => ("assignment_source".points, .str source)) ++
    [("host".points, .str p.host), ("ordinal".points, .int p.ordinal), ("pid".points, .int p.pid),
      ("process_epoch".points, .int p.processEpoch), ("role".points, .str p.role),
      ("start_identity".points, .str p.startIdentity)]

def ofNumber : Option Int → Value
  | none   => .null
  | some n => .int n

-- The event with all of its fields, in the order of their names.
def HostEvent.fields (e : HostEvent) : Fields := [
  ("artifact_digest".points, .null),
  ("binding_status".points, .str e.bindingStatus),
  ("controller_instance_id".points, ofText e.controllerInstanceId),
  ("delivery_attempt".points, .int e.deliveryAttempt),
  ("detail".points, ofText e.detail),
  ("dispatch_id".points, ofText e.dispatchId),
  ("entry_point".points, .obj e.entryPoint.fields),
  ("event".points, .str e.event),
  ("event_id".points, .str e.eventId),
  ("identity_status".points, .str e.identityStatus),
  ("invocation_seq".points, ofNumber e.invocationSeq),
  ("launch_id".points, ofText e.launchId),
  ("observation_kind".points, .str e.observationKind.value),
  ("observed_at_ns".points, .int e.observedAtNs),
  ("occurrence_id".points, ofOccurrence e.occurrenceId),
  ("plan_id".points, ofText e.planId),
  ("plugin_id".points, .null),
  ("process".points, .obj e.process.fields),
  ("schema".points, .str HOST_SCHEMA)
]

end Event

inductive SinkFailure
  | notCanonical
  | event (f : Failure)

variable [Hashlib] [Decimal]

-- `canonical_event`. An event without floats has a text, and the text is read before it is used.
def canonicalEvent (e : HostEvent) : Except SinkFailure Bytes :=
  match Unicode.encode (Dumps.value (Dumps.ascii id) (.obj e.fields)) with
  | none     => .error .notCanonical
  | some raw => do
    let _ ← (parseHostEvent raw).mapError .event
    .ok raw

-- `_journal_name`.
def journalName (e : HostEvent) : Text :=
  Hashlib.sha256 (dumps [ofText e.planId, ofText e.launchId, .str e.process.host,
    .str e.process.role, .int e.process.ordinal, .int e.process.pid, .str e.process.startIdentity,
    .int e.process.processEpoch]) ++ ".jsonl".points

-- A call that does not return raises something, or its process is killed.
inductive Stop
  | raised
  | killed
  deriving DecidableEq

-- What `os.write` does: it writes some of the bytes, or it does not return and has written some.
inductive Write
  | wrote (n : Nat)
  | stopped (n : Nat) (stop : Stop)

-- `while view`. The bytes that get to the journal, and how the loop ends. Where nothing is said of a
-- write, it writes everything.
def writeAll : Bytes → List Write → Bytes × Option Stop
  | view, []                   => (view, none)
  | view, .stopped n stop :: _ =>
    if view = [] then ([], none) else (view.take n, some stop)
  | view, .wrote n :: writes   =>
    if view = [] then ([], none)
    else if n = 0 then ([], some .raised)
    else
      let (written, stop) := writeAll (view.drop n) writes
      (view.take n ++ written, stop)

def Entry.extend (bytes : Bytes) : Entry → Entry
  | .file b => .file (b ++ bytes)
  | .other  => .other

namespace Directory

def lookup (d : Directory) (name : Text) : Option Entry :=
  (d.entries.find? (·.1 = name)).map (·.2)

-- The journal is created unless it is there.
def openJournal (d : Directory) (name : Text) : Option Directory :=
  match d.lookup name with
  | none           => some { d with entries := d.entries ++ [(name, .file [])] }
  | some (.file _) => some d
  | some .other    => none

-- `O_APPEND`.
def extend (d : Directory) (name : Text) (bytes : Bytes) : Directory :=
  { d with entries := d.entries.map fun j => if j.1 = name then (j.1, j.2.extend bytes) else j }

end Directory

-- One call of `append_event`, with what stops it before the journal is opened, what its writes do,
-- and what stops it behind them.
structure Attempt where
  event  : HostEvent
  before : Option Stop
  writes : List Write
  after  : Option Stop

namespace Attempt

-- The journal and the record that a call is about to write, if it gets there.
def record? (a : Attempt) : Option (Text × Bytes) :=
  match canonicalEvent a.event, a.before with
  | .ok raw, none => some (journalName a.event, raw)
  | _, _          => none

-- `append_event`: the directory behind the call, and what has stopped it.
def append (a : Attempt) (d : Directory) : Directory × Option Stop :=
  match a.record? with
  | none                => (d, some (a.before.getD .raised))
  | some (journal, raw) => match d.openJournal journal with
    | none   => (d, some .raised)
    | some d =>
      let (written, stop) := writeAll (raw ++ [0x0A]) a.writes
      (d.extend journal written, stop <|> a.after)

-- What a call writes to its journal.
def written (a : Attempt) : Bytes :=
  match a.record? with
  | none          => []
  | some (_, raw) => (writeAll (raw ++ [0x0A]) a.writes).1

-- The record of a call that has written all of it.
def recorded? (a : Attempt) : Option (Text × Bytes) :=
  a.record?.filter fun (_, raw) => a.written = raw ++ [0x0A]

-- A call has been cut inside of its record.
def torn (a : Attempt) : Bool :=
  a.record?.isSome && a.written ≠ [] && a.recorded? = none

end Attempt

-- The calls of all processes, one after the other.
def appendAll (d : Directory) (as : List Attempt) : Directory :=
  as.foldl (fun d a => (a.append d).1) d

end HostEvidence
