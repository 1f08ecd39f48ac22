import ExtManager.Quarantine.Reconcile

namespace Quarantine

open Process.Prog

variable [Deployment]

-- What `_partial_coverage_fault_locked` leaves to its two closures.
structure Fact where
  tid : Tid
  intent : Record
  snapshot : QuarantinedJournal
  targetRaw : List UInt8

-- `_partial_coverage_fault_locked`, from its reconciliation on: the target's journal is that of the
-- binding, and what the events of the other processes say is left to `observe`.
def prepareLocked (binding : Binding) : Sys Fact := do
  let _ ← reconcileLocked MAX_JOURNAL_BYTES
  let targetRaw ← os (.observe binding.journal)
  let snapshot ← snapshotJournal .source binding.journal MAX_JOURNAL_BYTES
  raiseIf (snapshot.raw ≠ targetRaw) <| .lifecycle "fault target journal changed during prepare"
  let tid := Deployment.ofBinding binding
  let intent ← prepareTransaction tid binding snapshot
  return ⟨tid, intent, snapshot, targetRaw⟩

def prepareFault (binding : Binding) : Sys Fact :=
  withLease <| prepareLocked binding

-- `abort_prepare`: whether the transaction is settled before and after it.
def abortPrepare (settled : Bool) : Sys Bool := do
  if settled = true then return true else
    match ← capture (reconcileTransactions MAX_JOURNAL_BYTES) with
      | .ok _    => return true
      | .error _ => return false

-- The variables of `commit_fault` that its handler looks at.
structure Progress where
  quarantined : Option QuarantinedJournal
  applied : Option Record
  fenceInstalled : Bool

-- The `any(...)` at the start of `commit_fault`.
def refuseChanged (tid : Tid) : List Stage → Sys Unit
  | []          => return ()
  | stage :: ss => do
    let record ← readQuarantineRecord tid stage false
    raiseIf (record ≠ none) <| .lifecycle "fault transaction changed before runner commit"
    refuseChanged tid ss

-- `commit_fault` up to its fence.
def fenceTarget (fact : Fact) : Sys Unit := do
  refuseChanged fact.tid [.applied, .finalized, .restored, .blocked]
  let committed ← snapshotJournal .source fact.snapshot.journal MAX_JOURNAL_BYTES
  raiseIf (committed ≠ fact.snapshot) <|
    .lifecycle "fault target journal changed before runner commit"
  let _ ← installFence fact.tid (Deployment.ofRecord fact.intent) fact.snapshot

-- `commit_fault` from its move to its applied record.
def applyMove (fact : Fact) (quarantined : QuarantinedJournal) : Sys Record := do
  raiseIf (quarantined.raw ≠ fact.targetRaw) <|
    .lifecycle "fault target journal changed after prepare"
  markApplied fact.tid (Deployment.ofRecord fact.intent) quarantined

-- `commit_fault` from its applied record on: the events are read again and checked, and the
-- action is audited.
def auditMove (fact : Fact) : Sys Unit := do
  let _ ← os (.observe fact.snapshot.journal)
  os .audit

-- The `try` of `commit_fault` from its move on: how far it has come, and how it ends.
def commitMove (fact : Fact) : Sys (Progress × Except Error Unit) := do
  match ← capture (quarantineJournal .source fact.snapshot.journal MAX_JOURNAL_BYTES
      fact.snapshot) with
    | .error e        => return (⟨none, none, true⟩, .error e)
    | .ok quarantined => do
      match ← capture (applyMove fact quarantined) with
        | .error e    => return (⟨quarantined, none, true⟩, .error e)
        | .ok applied => do
          let v ← capture (auditMove fact)
          return (⟨quarantined, applied, true⟩, v)

def commitTry (fact : Fact) : Sys (Progress × Except Error Unit) := do
  match ← capture (fenceTarget fact) with
    | .error e => return (⟨none, none, false⟩, .error e)
    | .ok _    => commitMove fact

def restoreMoved : Option QuarantinedJournal → Sys Unit
  | some quarantined => restoreQuarantinedJournal quarantined MAX_JOURNAL_BYTES
  | none             => return ()

-- The handler of `commit_fault`.
def undoCommit (fact : Fact) (p : Progress) : Sys Unit := do
  restoreMoved p.quarantined
  when (p.fenceInstalled = true) <|
    removeSourceFence fact.tid (Deployment.ofRecord fact.intent) fact.snapshot
  when (p.quarantined ≠ none) do
    let _ ← markRestored fact.tid (Deployment.ofRecord fact.intent)
      (p.applied.map Deployment.ofRecord) .catchablePostMoveFailure

-- `commit_fault` under its lease: how it ends, and whether the transaction is settled then.
def commitLocked (fact : Fact) : Sys (Except Error Unit × Bool) := do
  match ← commitTry fact with
    | (_, .ok _)    => return (.ok (), true)
    | (p, .error e) =>
      match ← capture (undoCommit fact p) with
        | .ok _    => return (.error e, decide (p.quarantined ≠ none))
        | .error _ =>
          return (.error <| .lifecycle "partial-coverage fault failed and rollback failed", false)

def commitFault (fact : Fact) (settled : Bool) : Sys (Except Error Unit × Bool) := do
  if settled = true then
    return (.error <| .lifecycle "fault transaction is already settled", settled)
  else
    match ← capture acquireLease with
      | .error e => return (.error e, settled)
      | .ok _    => do
        let (v, settled) ← commitLocked fact
        match ← capture unlock with
          | .error e => return (.error e, settled)
          | .ok _    => return (v, settled)

inductive Closure
  | commit
  | abort

-- The closures of a prepared fact, called one after the other, whatever they raise.
def runClosures (fact : Fact) : Bool → List Closure → Sys Unit
  | _,       []            => return ()
  | settled, .commit :: cs => do
    let (_, settled) ← commitFault fact settled
    runClosures fact settled cs
  | settled, .abort :: cs  => do
    let settled ← abortPrepare settled
    runClosures fact settled cs

-- What a process is started for.
inductive Task
  | append (journal : Journal) (event : List UInt8) (fsync : Bool)
  | actuate (binding : Binding) (closures : List Closure)
  | finalize (tid : Tid) (appliedDigest factReceiptSha256 : Digest)
      (sourceProcessIdentity : ProcessIdentity)
  | recover (maxBytes : Nat)
  | plant (journal : Journal) (raw : List UInt8)

def void {α : Type} (m : Sys α) : Sys Unit := do
  let _ ← m

def Task.program : Task → Sys Unit
  | .append journal event fsync  => appendEvent journal (event ++ [10]) fsync
  | .actuate binding closures    => do
    let fact ← prepareFault binding
    runClosures fact false closures
  | .finalize tid applied fact i => void <| finalizeTransaction tid applied fact i
  | .recover maxBytes            => void <| reconcileTransactions maxBytes
  -- Not a process of the program: somebody creates a file under the name of a journal.
  | .plant journal raw           => os (.journal (.plant journal raw))

-- Whether a task is one of the program's own.
def Task.Own : Task → Prop
  | .plant _ _ => False
  | _          => True

end Quarantine
