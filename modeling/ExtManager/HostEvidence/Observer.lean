import Mathlib.Data.Prod.Lex
import ExtManager.Codec.Base64
import ExtManager.Codec.Dict
import ExtManager.Contract.Basic
import ExtManager.HostEvidence.Journal

-- `hashlib.sha256(raw).hexdigest()`.
class RawDigest where
  hexdigest : Bytes → Text

namespace Unicode

-- The first character of the bytes, and what follows it.
def first? (b : Bytes) : Option (Nat × Bytes) :=
  [1, 2, 3, 4].findSome? fun n => match utf8 false (b.take n) with
    | some [p] => some (p, b.drop n)
    | _        => none

-- `bytes.decode(errors="surrogateescape")`, for so many bytes.
def escaped : Nat → Bytes → Text
  | 0, _ | _, []  => []
  | n + 1, b :: r => match first? (b :: r) with
    | some (p, rest) => p :: escaped n rest
    | none           => (0xDC00 + b.toNat) :: escaped n r

end Unicode

namespace HostEvidence

inductive ObserverFailure
  -- A `HostObservationError`.
  | observation (message : String)
  | sink (f : ReadFailure)
  | keyError
  | zeroDivisionError

def reject (p : Prop) [Decidable p] (message : String) : Except ObserverFailure Unit :=
  if p then .error (.observation message) else .ok ()

section

variable {α : Type} {p : Prop} [Decidable p] {message : String}

theorem reject_ok : reject p message = .ok () ↔ ¬p := by
  unfold reject
  split
  case isTrue h  => exact ⟨nofun, fun hp => absurd h hp⟩
  case isFalse h => exact ⟨fun _ => h, fun _ => rfl⟩

theorem reject_seq {k : Unit → Except ObserverFailure α} {a : α} :
    (reject p message >>= k) = .ok a ↔ ¬p ∧ k () = .ok a := by
  rw [Fallible.bind_ok]
  exact ⟨fun ⟨_, h, hk⟩ => ⟨reject_ok.mp h, hk⟩, fun ⟨h, hk⟩ => ⟨(), reject_ok.mpr h, hk⟩⟩

end

-- `set(a) == set(b)`.
def SameElements {κ : Type} (a b : List κ) : Prop :=
  (∀ k ∈ a, k ∈ b) ∧ ∀ k ∈ b, k ∈ a

instance {κ : Type} [DecidableEq κ] (a b : List κ) : Decidable (SameElements a b) :=
  inferInstanceAs (Decidable (_ ∧ _))

section Identity

-- `bytes.split(sep)` without the empty parts.
def parts (isSep : UInt8 → Bool) (raw : Bytes) : List Bytes :=
  (raw.splitOnP isSep).filter (· ≠ [])

def isBlank (b : UInt8) : Bool :=
  b = 0x20 || (0x09 ≤ b && b ≤ 0x0D)

-- `int(raw)` of bytes without blanks, whose digits are the ones of ASCII.
def int? (raw : Bytes) : Option Int :=
  let text : Text := raw.map (·.toNat)
  if text.strip ≠ text then none
  else @Text.int? ⟨fun c => if Scanner.isDigit c then some (c - '0'.toNat) else none⟩ text

def parseLinuxStartTicks (raw : Bytes) : Except ObserverFailure Int := do
  let rest := (raw.reverse.takeWhile (· ≠ 0x29)).reverse
  let close : Int := raw.length - rest.length - 1
  reject (close < 2 ∨ raw.length ≤ close + 2 ∨ rest.head? ≠ some 0x20)
    "process stat has no complete comm field"
  match (parts isBlank rest.tail)[19]? with
  | none       => .error <| .observation "process stat is missing start ticks"
  | some field => match int? field with
    | none       => .error <| .observation "process start ticks are not an integer"
    | some ticks => do
      reject (ticks ≤ 0) "process start ticks must be positive"
      return ticks

structure LinuxProcess where
  pid           : Int
  startTicks    : Int
  startIdentity : Text
  argv          : List Text
  deriving DecidableEq

-- What is read of a process, where it can be: its `stat`, its `cmdline` and its `stat` again.
structure ProcessFiles where
  before  : Option Bytes
  cmdline : Option Bytes
  after   : Option Bytes

def read (file : Option Bytes) : Except ObserverFailure Bytes :=
  match file with
  | some raw => .ok raw
  | none     => .error <| .observation "effect process is not independently observable"

def readLinuxProcessIdentity (files : ProcessFiles) (pid : Int) (expectedStartIdentity : Text) :
    Except ObserverFailure LinuxProcess := do
  reject (pid ≤ 0) "process pid must be positive"
  let stat ← read files.before
  let before ← parseLinuxStartTicks stat
  let argvRaw ← read files.cmdline
  let stat ← read files.after
  let after ← parseLinuxStartTicks stat
  reject (before ≠ after) "effect process identity changed while reading"
  let startIdentity := startPrefix pid ++ Dumps.decimal before
  reject (expectedStartIdentity ≠ startIdentity)
    "effect process start identity differs from host event"
  let argv := (parts (· = 0x00) argvRaw).map fun part => Unicode.escaped part.length part
  reject (argv = []) "effect process argv is unavailable"
  return { pid, startTicks := before, startIdentity, argv }

end Identity

-- A logical process: its host, its role and its ordinal.
abbrev Slot :=
  Text ×ₗ Text ×ₗ Int

instance : DecidableEq Slot :=
  inferInstanceAs (DecidableEq (Text × Text × Int))

def slot (host role : Text) (ordinal : Int) : Slot :=
  toLex (host, toLex (role, ordinal))

def Process.slot (p : Process) : Slot :=
  HostEvidence.slot p.host p.role p.ordinal

section Required

structure RequiredProcess where
  host         : Text
  role         : Text
  ordinal      : Int
  processEpoch : Int
  deriving DecidableEq

def RequiredProcess.slot (r : RequiredProcess) : Slot :=
  HostEvidence.slot r.host r.role r.ordinal

def RequiredProcess.key (r : RequiredProcess) : Slot ×ₗ Int :=
  toLex (r.slot, r.processEpoch)

def requiredProcess : Value → Except ObserverFailure RequiredProcess
  | .obj fields => do
    reject (¬Value.HasFields fields ["host", "role", "ordinal", "process_epoch"])
      "required process fields do not match schema"
    match Fields.get? fields "host".points, Fields.get? fields "role".points,
      Fields.get? fields "ordinal".points, Fields.get? fields "process_epoch".points with
    | some (.str host), some (.str role), some (.int ordinal), some (.int processEpoch) => do
      reject (host = [] ∨ host.strip ≠ host ∨ role = [] ∨ role.strip ≠ role ∨ ordinal < 0 ∨
        processEpoch < 0) "required process identity is malformed"
      return { host, role, ordinal, processEpoch }
    | _, _, _, _ => .error <| .observation "required process identity is malformed"
  | _           => .error <| .observation "required process fields do not match schema"

-- `_required_processes`.
def requiredProcesses (values : List Value) : Except ObserverFailure (List RequiredProcess) := do
  let parsed ← values.mapM requiredProcess
  reject (parsed = [] ∨ parsed.insertionSort (·.key ≤ ·.key) ≠ parsed ∨ ¬parsed.Nodup)
    "required process snapshot is not canonical"
  reject (¬(parsed.map RequiredProcess.slot).Nodup) "required process snapshot repeats a logical slot"
  return parsed

end Required

structure EvidenceRecord where
  eventId    : Text
  journal    : Text
  lineNumber : Nat
  rawBase64  : Text
  rawSha256  : Text
  deriving DecidableEq

structure EntryPointBinding where
  group      : Text
  name       : Text
  value      : Text
  pluginId   : Text
  obligation : Text

def EntryPointBinding.entry (b : EntryPointBinding) : EntryPoint :=
  ⟨b.group, b.name, b.value⟩

structure Bindings where
  byEntry      : Dict EntryPoint EntryPointBinding
  byObligation : Dict Text EntryPointBinding

structure Metadata where
  isDir    : Bool
  identity : Int × Int

-- What the system tells a call: `processes n` are the files of the processes by the time that the
-- record after `n` others is observed.
structure World where
  hostname  : Text
  metadata  : Option Metadata
  directory : Directory
  processes : Nat → Int → ProcessFiles

structure Request where
  expectedDirectoryIdentity : Int × Int
  plan                      : Plan
  launchId                  : Text
  controllerInstance        : Text
  bindings                  : List EntryPointBinding
  requiredProcesses         : List Value
  localHost                 : Option Text

-- What a request asks for.
structure Scope where
  required    : List RequiredProcess
  localHost   : Text
  plugins     : Dict Text PluginIdentity
  obligations : Dict Text EvidenceObligation
  bindings    : Bindings

structure ObservedProcess where
  host             : Text
  role             : Text
  ordinal          : Int
  processEpoch     : Int
  linux            : LinuxProcess
  assignmentSource : Text := "host".points
  deriving DecidableEq

structure Tally where
  effects         : Text → Dict Slot ObservedProcess
  effectRecords   : Text → List EvidenceRecord
  staleRecords    : Text → List EvidenceRecord
  controllerBound : Text → Bool
  linuxSlots      : Dict (Text × Int × Int) Slot
  otherRecords    : List EvidenceRecord

structure ObligationResult where
  obligationId            : Text
  pluginId                : Text
  artifactDigest          : Text
  entryPoint              : EntryPoint
  controllerBinding       : Option Text
  effectRecords           : List EvidenceRecord
  staleEffectRecords      : List EvidenceRecord
  effectProcessIdentities : List ObservedProcess
  pluginInvoked           : Bool
  coverage                : Rat
  completeCoverage        : Bool

structure Snapshot where
  planId                  : Text
  launchId                : Text
  journalDirectory        : Int × Int
  auditedEventCount       : Nat
  otherRecords            : List EvidenceRecord
  obligations             : List ObligationResult
  effectProcessIdentities : List ObservedProcess
  completeCoverage        : Bool

section Scope

variable [Sha256]

def bindEntryPoint (plugins : Dict Text PluginIdentity)
    (obligations : Dict Text EvidenceObligation) (b : Bindings) (binding : EntryPointBinding) :
    Except ObserverFailure Bindings := do
  reject (binding.entry ∈ b.byEntry.keys ∨ binding.obligation ∈ b.byObligation.keys)
    "entry-point bindings are ambiguous"
  reject (binding.pluginId ∉ plugins.keys) "entry-point binding plugin is absent from Plan"
  reject (¬∃ o ∈ obligations.get? binding.obligation, o.event.points = "invoked".points)
    "entry-point binding invocation obligation is absent"
  return ⟨b.byEntry.set binding.entry binding, b.byObligation.set binding.obligation binding⟩

-- The logical processes that a plan has obligations for.
def obligated (localHost : Text) (plan : Plan) : List Slot :=
  plan.obligations.flatMap fun o => o.requiredOrdinals.map (slot localHost o.role.points ·)

def Scope.of (w : World) (q : Request) : Except ObserverFailure Scope := do
  let required ← requiredProcesses q.requiredProcesses
  let localHost := q.localHost.getD w.hostname
  reject (localHost = []) "local host identity is unavailable"
  let plugins := .ofList <| q.plan.plugins.map fun p => (p.id.points, p)
  let obligations := .ofList <| q.plan.obligations.map fun o => (o.obligationId.points, o)
  let bindings ← q.bindings.foldlM (bindEntryPoint plugins obligations) ⟨.empty, .empty⟩
  reject (¬SameElements bindings.byObligation.keys obligations.keys)
    "every Plan obligation requires one entry-point binding"
  reject (¬SameElements (required.map RequiredProcess.slot) (obligated localHost q.plan))
    "Plan obligations differ from required process snapshot"
  return { required, localHost, plugins, obligations, bindings }

def Scope.requiredBySlot (s : Scope) : Dict Slot Int :=
  .ofList <| s.required.map fun r => (r.slot, r.processEpoch)

def Scope.targets (s : Scope) (o : EvidenceObligation) : List RequiredProcess :=
  s.required.filter fun r => r.role = o.role.points ∧ r.ordinal ∈ o.requiredOrdinals

end Scope

section Records

variable [RawDigest]

def evidenceRecord (r : JournalEvent) : EvidenceRecord where
  eventId    := r.event.eventId
  journal    := r.journal
  lineNumber := r.lineNumber
  rawBase64  := Base64.encode r.raw
  rawSha256  := "sha256:".points ++ RawDigest.hexdigest r.raw

def Tally.other (t : Tally) (r : JournalEvent) : Tally :=
  { t with otherRecords := t.otherRecords ++ [evidenceRecord r] }

def Tally.stale (t : Tally) (id : Text) (r : JournalEvent) : Tally :=
  { t with staleRecords := Function.update t.staleRecords id (t.staleRecords id ++ [evidenceRecord r]) }

def Tally.effect (t : Tally) (id : Text) (r : JournalEvent) (p : ObservedProcess) (slot : Slot) :
    Tally where
  effects         := Function.update t.effects id ((t.effects id).set slot p)
  effectRecords   :=
    Function.update t.effectRecords id (t.effectRecords id ++ [evidenceRecord r])
  staleRecords    := t.staleRecords
  controllerBound :=
    if r.event.observationKind = .schedulerDispatch then Function.update t.controllerBound id true
    else t.controllerBound
  linuxSlots      := t.linuxSlots.set (p.host, p.linux.pid, p.linux.startTicks) slot
  otherRecords    := t.otherRecords

def Tally.zero : Tally where
  effects _         := .empty
  effectRecords _   := []
  staleRecords _    := []
  controllerBound _ := false
  linuxSlots        := .empty
  otherRecords      := []

def observedProcess (p : Process) (linux : LinuxProcess) : ObservedProcess where
  host         := p.host
  role         := p.role
  ordinal      := p.ordinal
  processEpoch := p.processEpoch
  linux        := linux

-- A record of a live process, in the epoch that is required.
def observeLive (files : ProcessFiles) (id : Text) (t : Tally) (record : JournalEvent) :
    Except ObserverFailure Tally := do
  let process := record.event.process
  let linux ← readLinuxProcessIdentity files process.pid process.startIdentity
  let observed := observedProcess process linux
  reject (∃ existing ∈ (t.effects id).get? process.slot, existing ≠ observed)
    "one target slot has multiple live identities"
  reject (∃ prior ∈ t.linuxSlots.get? (process.host, linux.pid, linux.startTicks),
    prior ≠ process.slot) "one Linux identity covers multiple target slots"
  return t.effect id record observed process.slot

-- A record of an entry point that is bound and was invoked.
def observeEffect (files : ProcessFiles) (s : Scope) (id : Text) (t : Tally)
    (record : JournalEvent) : Except ObserverFailure Tally :=
  let process := record.event.process
  match s.obligations.get? id, s.requiredBySlot.get? process.slot with
  | none, _                           => .error .keyError
  | some _, none                      =>
    .error <| .observation "effect evidence is outside its bound obligation target set"
  | some obligation, some expectedEpoch => do
    reject (process.role ≠ obligation.role.points ∨ process.ordinal ∉ obligation.requiredOrdinals)
      "effect evidence is outside its bound obligation target set"
    if process.processEpoch ≠ expectedEpoch then return t.stale id record
    else observeLive files id t record

variable [Sha256]

def observeRecord (w : World) (q : Request) (s : Scope) (t : Tally) (record : JournalEvent × Nat) :
    Except ObserverFailure Tally := do
  let event := record.1.event
  reject (event.bindingStatus ≠ "bound".points ∨ event.planId ≠ some q.plan.planId.points ∨
    event.launchId ≠ some q.launchId ∨ event.process.assignmentSource ≠ some "host".points)
    "journal contains unbound or cross-launch evidence"
  reject (event.observationKind ≠ .loaderLifecycle ∧
    event.controllerInstanceId ≠ some q.controllerInstance)
    "scheduler evidence has another controller identity"
  match s.bindings.byEntry.get? event.entryPoint with
  | none         => return t.other record.1
  | some binding =>
    if event.event ≠ "invoked".points then return t.other record.1
    else observeEffect (w.processes record.2 event.process.pid) s binding.obligation t record.1

end Records

section Results

def sorted (effects : Dict Slot ObservedProcess) : List ObservedProcess :=
  (effects.items.insertionSort (·.1 ≤ ·.1)).map (·.2)

variable [Sha256]

def obligationResult (q : Request) (s : Scope) (t : Tally) (item : Text × EvidenceObligation) :
    Except ObserverFailure ObligationResult :=
  let id := item.1
  match s.bindings.byObligation.get? id with
  | none         => .error .keyError
  | some binding => match s.plugins.get? binding.pluginId with
    | none        => .error .keyError
    | some plugin =>
      let observed := sorted (t.effects id)
      let targets := s.targets item.2
      if targets = [] then .error .zeroDivisionError
      else
        let coverage : Rat := observed.length / targets.length
        .ok {
          obligationId := id
          pluginId := plugin.id.points
          artifactDigest := "sha256:".points ++ plugin.artifactSha256.points
          entryPoint := binding.entry
          controllerBinding := if t.controllerBound id then some q.controllerInstance else none
          effectRecords := t.effectRecords id
          staleEffectRecords := t.staleRecords id
          effectProcessIdentities := observed
          pluginInvoked := observed ≠ []
          coverage
          completeCoverage := coverage = 1
        }

variable [Hashlib] [Decimal] [RawDigest]

-- The journals, once their directory is the one that is expected.
def readJournals (w : World) (q : Request) :
    Except ObserverFailure (Metadata × List JournalEvent) := do
  let expected := q.expectedDirectoryIdentity
  reject (expected.1 < 0 ∨ expected.2 ≤ 0) "host journal directory identity is invalid"
  match w.metadata with
  | none          => .error <| .observation "host journal directory is unavailable"
  | some metadata => do
    reject (metadata.isDir = false) "host journal path is not a directory"
    reject (metadata.identity ≠ expected) "host journal directory identity changed"
    let records ← (readEvents w.directory (some expected) none).mapError .sink
    return (metadata, records)

def observeBoundInvocations (w : World) (q : Request) : Except ObserverFailure Snapshot := do
  let s ← Scope.of w q
  let (metadata, records) ← readJournals w q
  let t ← records.zipIdx.foldlM (observeRecord w q s) .zero
  let obligations ← s.obligations.items.mapM (obligationResult q s t)
  return {
    planId := q.plan.planId.points
    launchId := q.launchId
    journalDirectory := metadata.identity
    auditedEventCount := records.length
    otherRecords := t.otherRecords
    obligations
    effectProcessIdentities :=
      sorted (s.obligations.keys.foldl (fun all id => all.update (t.effects id)) .empty)
    completeCoverage := obligations.all (·.completeCoverage)
  }

end Results

end HostEvidence
