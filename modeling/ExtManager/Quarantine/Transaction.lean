import Mathlib.Data.List.Sort
import ExtManager.Quarantine.Sink

namespace Quarantine

open Process.Prog

-- `_read_record_from_directory`.
def readRecord (s : Side) (n : Name) (required : Bool) : Sys (Option Record) := do
  match ← ask (.file s (.open n)) with
    | .error .notFound =>
      if required then raise <| .record "quarantine transaction record is missing" n else pure none
    | .error _ => raise <| .record "cannot open quarantine transaction record" n
    | .ok r    => closing (os .close) do
      os .fstat
      os .read
      return some r

-- `read_quarantine_record`.
def readQuarantineRecord (tid : Tid) (stage : Stage) (required : Bool) : Sys (Option Record) := do
  openJournalRoot .quarantine
  closing (os .close) <| readRecord .quarantine (.record tid stage) required

-- The texts in which `_write_record` and `install_quarantine_source_fence` differ.
structure Texts where
  conflict : Error
  create : Errno → Error
  persist : Errno → Error
  publish : Errno → Error
  differs : Error

def mapOs {α : Type} (f : Errno → Error) (m : Sys α) : Sys α :=
  m.attempt fun
    | .os e => raise (f e)
    | e     => raise e

-- `finally: if temporary_exists: unlink`.
def discard (s : Side) (t : Nat) : Sys Unit :=
  attempt (do
    os (.file s (.discard t))
    os .fsync)
    fun _ => pure ()

-- Writes the temporary and renames it, which yields the record that has been there before.
def publishTemporary (s : Side) (n : Name) (raw : Record) (texts : Texts) (t : Nat) :
    Sys (Option Record) := do
  mapOs texts.persist <| closing (os .close) do
    os (.file s (.write t raw))
    os .fsync
  match ← ask (.file s (.rename t n)) with
    | .ok _           => pure none
    | .error .present => do
      let existing ← readRecord s n true
      raiseIf (existing ≠ some raw) texts.conflict
      pure existing
    | .error e        => raise <| texts.publish e

-- Publishes a record under its name: a temporary is written, made durable and renamed. A record
-- that is already there has to be the same.
def publish (s : Side) (n : Name) (raw : Record) (texts : Texts) : Sys Record := do
  match ← readRecord s n false with
    | some existing => do
      raiseIf (existing ≠ raw) texts.conflict
      return existing
    | none => do
      let t ← mapOs texts.create <| os (.file s .create)
      let existing ← attempt (publishTemporary s n raw texts t) fun e => do
        discard s t
        raise e
      match existing with
        | some existing => do
          discard s t
          return existing
        | none => do
          os .fsync
          let published ← readRecord s n true
          raiseIf (published ≠ some raw) texts.differs
          return raw

def writeRecord (tid : Tid) (stage : Stage) (value : Record) : Sys Record := do
  let n := Name.record tid stage
  openJournalRoot .quarantine
  closing (os .close) <| publish .quarantine n value {
    conflict := .record "quarantine transaction record conflicts" n
    create   := fun _ => .record "cannot create quarantine transaction temporary record" n
    persist  := fun _ => .record "cannot persist quarantine transaction record" n
    publish  := fun _ => .record "cannot publish quarantine transaction record" n
    differs  := .record "published quarantine transaction record differs" n
  }

section

variable [Deployment]

def fenceValue (tid : Tid) (intentDigest : Digest) (snapshot : QuarantinedJournal) : Record :=
  .fence {
    transactionId := tid
    intentDigest  := intentDigest
    journal       := snapshot.journal
    identity      := snapshot.identity
    sha256        := Deployment.ofBytes snapshot.raw
  }

def installFence (tid : Tid) (intentDigest : Digest) (snapshot : QuarantinedJournal) :
    Sys Record := do
  openJournalRoot .source
  closing (os .close) <| wrapOs (.transaction "cannot publish source journal fence") <|
    publish .source (fenceOf snapshot.journal) (fenceValue tid intentDigest snapshot) {
      conflict := .transaction "source journal has another quarantine fence"
      create   := .os
      persist  := .os
      publish  := .os
      differs  := .transaction "published source fence differs"
    }

def readSourceFence (tid : Tid) (intentDigest : Digest) (snapshot : QuarantinedJournal)
    (required : Bool) : Sys (Option Record) := do
  let record ← readRecord .source (fenceOf snapshot.journal) required
  raiseIf (∃ r ∈ record, r ≠ fenceValue tid intentDigest snapshot) <|
    .transaction "source journal fence is inconsistent"
  return record

-- `_remove_source_fence`.
def removeFence (tid : Tid) (intentDigest : Digest) (snapshot : QuarantinedJournal) :
    Sys Unit := do
  match ← readSourceFence tid intentDigest snapshot false with
    | none   => return ()
    | some _ => wrapOs (.transaction "cannot remove restored source journal fence") do
      os (.file .source (.unlink (fenceOf snapshot.journal)))
      os .fsync

-- `remove_quarantine_source_fence`.
def removeSourceFence (tid : Tid) (intentDigest : Digest) (snapshot : QuarantinedJournal) :
    Sys Unit := do
  openJournalRoot .source
  closing (os .close) <| removeFence tid intentDigest snapshot

def intentValue (tid : Tid) (binding : Binding) (snapshot : QuarantinedJournal) : Record :=
  .intent {
    transactionId       := tid
    binding             := binding
    sourceDirectory     := Deployment.sourceIdentity
    quarantineDirectory := Deployment.quarantineIdentity
    journal             := snapshot.journal
    identity            := snapshot.identity
    bytes               := snapshot.raw.length
    raw                 := snapshot.raw
    sha256              := Deployment.ofBytes snapshot.raw
  }

def appliedValue (tid : Tid) (intentDigest : Digest) (quarantined : QuarantinedJournal) : Record :=
  .applied {
    transactionId := tid
    intentDigest  := intentDigest
    journal       := quarantined.journal
    identity      := quarantined.identity
    bytes         := quarantined.raw.length
    sha256        := Deployment.ofBytes quarantined.raw
  }

def restoredValue (tid : Tid) (intentDigest : Digest) (appliedDigest : Option Digest)
    (reason : Reason) : Record :=
  .restored {
    transactionId   := tid
    intentDigest    := intentDigest
    appliedDigest   := appliedDigest
    finalizedDigest := none
    reason          := reason
  }

def blockedValue (tid : Tid) (intentDigest : Digest) (appliedDigest finalizedDigest : Option Digest)
    (reason : Reason) : Record :=
  .blocked {
    transactionId   := tid
    intentDigest    := intentDigest
    appliedDigest   := appliedDigest
    finalizedDigest := finalizedDigest
    reason          := reason
  }

def finalizedValue (tid : Tid) (intentDigest appliedDigest factReceiptSha256 : Digest)
    (sourceProcessIdentity : ProcessIdentity) : Record :=
  .finalized {
    transactionId         := tid
    intentDigest          := intentDigest
    appliedDigest         := appliedDigest
    factReceiptSha256     := factReceiptSha256
    sourceProcessIdentity := sourceProcessIdentity
  }

-- `prepare_quarantine_transaction`.
def prepareTransaction (tid : Tid) (binding : Binding) (snapshot : QuarantinedJournal) :
    Sys Record :=
  writeRecord tid .intent <| intentValue tid binding snapshot

def markApplied (tid : Tid) (intentDigest : Digest) (quarantined : QuarantinedJournal) :
    Sys Record :=
  writeRecord tid .applied <| appliedValue tid intentDigest quarantined

def markRestored (tid : Tid) (intentDigest : Digest) (appliedDigest : Option Digest)
    (reason : Reason) : Sys Record :=
  writeRecord tid .restored <| restoredValue tid intentDigest appliedDigest reason

def markBlocked (tid : Tid) (intentDigest : Digest) (appliedDigest finalizedDigest : Option Digest)
    (reason : Reason) : Sys Record :=
  writeRecord tid .blocked <| blockedValue tid intentDigest appliedDigest finalizedDigest reason

-- `_valid_process_identity`, where the fields have their types.
def ProcessIdentity.Valid (i : ProcessIdentity) : Prop :=
  0 < i.pid ∧ 0 < i.startTicks ∧ 0 < i.executableDevice ∧ 0 < i.executableInode ∧
    i.argv ≠ [] ∧ ∀ a ∈ i.argv, a ≠ ""

instance : DecidablePred ProcessIdentity.Valid :=
  fun i => inferInstanceAs (Decidable (0 < i.pid ∧ 0 < i.startTicks ∧ 0 < i.executableDevice ∧
    0 < i.executableInode ∧ i.argv ≠ [] ∧ ∀ a ∈ i.argv, a ≠ ""))

-- `_intent_snapshot`, together with the identities of the two directories of the intent.
def intentSnapshot (tid : Tid) : Record → Except Error (Intent × QuarantinedJournal)
  | .intent v =>
    if v.transactionId ≠ tid ∨ Deployment.ofBinding v.binding ≠ tid ∨ v.bytes ≠ v.raw.length ∨
      v.sha256 ≠ Deployment.ofBytes v.raw
    then .error <| .transaction "quarantine intent snapshot is inconsistent"
    else .ok (v, ⟨v.journal, v.raw, v.identity⟩)
  | _ => .error <| .transaction "quarantine intent snapshot is malformed"

def validateApplied (tid : Tid) (intentDigest : Digest) (snapshot : QuarantinedJournal)
    (applied : Record) : Except Error Unit :=
  if applied = appliedValue tid intentDigest snapshot then .ok ()
  else .error <| .transaction "quarantine applied record is inconsistent"

-- `_validate_terminal` with the schema and the stage of a restored record.
def validateRestored (tid : Tid) (intentDigest : Digest)
    (appliedDigest finalizedDigest : Option Digest) : Record → Except Error Unit
  | .restored v =>
    if v.transactionId = tid ∧ v.intentDigest = intentDigest ∧ v.appliedDigest = appliedDigest ∧
      v.finalizedDigest = finalizedDigest ∧ v.reason.Restores
    then .ok ()
    else .error <| .transaction "restored quarantine transaction chain is invalid"
  | _ => .error <| .transaction "restored quarantine transaction chain is invalid"

-- `_validate_terminal` with the schema and the stage of a blocked record.
def validateBlocked (tid : Tid) (intentDigest : Digest)
    (appliedDigest finalizedDigest : Option Digest) : Record → Except Error Unit
  | .blocked v =>
    if v.transactionId = tid ∧ v.intentDigest = intentDigest ∧ v.appliedDigest = appliedDigest ∧
      v.finalizedDigest = finalizedDigest ∧ v.reason.Blocks ∧
      (v.reason = .sourceReplacementAfterFinalize ↔ finalizedDigest.isSome)
    then .ok ()
    else .error <| .transaction "blocked quarantine transaction chain is invalid"
  | _ => .error <| .transaction "blocked quarantine transaction chain is invalid"

def validateFinalized (tid : Tid) (intentDigest appliedDigest : Digest) :
    Record → Except Error Unit
  | .finalized v =>
    if v.transactionId = tid ∧ v.intentDigest = intentDigest ∧ v.appliedDigest = appliedDigest ∧
      v.sourceProcessIdentity.Valid
    then .ok ()
    else .error <| .transaction "finalized quarantine transaction chain is invalid"
  | _ => .error <| .transaction "finalized quarantine transaction chain is invalid"

-- `_exists` of a journal.
def journalExists (s : Side) (journal : Journal) : Sys Bool := do
  match ← ask (.journal (.stat s journal)) with
    | .ok _            => return true
    | .error .notFound => return false
    | .error _         =>
      raise <| .transaction "cannot inspect quarantine transaction artifact"

-- `acquire_quarantine_transaction_lease`. The descriptor that holds the lock is lost where one of
-- the calls after it fails.
def acquireLease : Sys Unit := do
  openJournalRoot .source
  closing (os .close) <| .acquire .exclusive fun
    | true  => os .fsync
    | false => raise <| .transaction "another quarantine transaction is active"

def withLease {α : Type} (m : Sys α) : Sys α := do
  acquireLease
  closing unlock m

-- The record that a call with `required=True` returns.
def theRecord : Option Record → Sys Record
  | some r => pure r
  | none   => raise <| .transaction "assertion failed"

def finalizeLocked (tid : Tid) (appliedDigest factReceiptSha256 : Digest)
    (sourceProcessIdentity : ProcessIdentity) : Sys Record := do
  let intent ← readQuarantineRecord tid .intent true >>= theRecord
  let applied ← readQuarantineRecord tid .applied true >>= theRecord
  let (value, snapshot) ← lift <| intentSnapshot tid intent
  let intentDigest := Deployment.ofRecord intent
  lift <| validateApplied tid intentDigest snapshot applied
  let refused := Error.transaction "quarantine transaction cannot be finalized from this state"
  raiseIf (value.sourceDirectory ≠ Deployment.sourceIdentity ∨
    value.quarantineDirectory ≠ Deployment.quarantineIdentity ∨
    Deployment.ofRecord applied ≠ appliedDigest ∨ ¬sourceProcessIdentity.Valid) refused
  let restored ← readQuarantineRecord tid .restored false
  raiseIf (restored ≠ none) refused
  let blocked ← readQuarantineRecord tid .blocked false
  raiseIf (blocked ≠ none) refused
  let retained ← onSink (snapshotJournal .quarantine snapshot.journal (max snapshot.raw.length 1)) <|
    raise <| .transaction "quarantine artifact is unavailable during finalization"
  raiseIf (retained ≠ snapshot) <|
    .transaction "quarantine artifact differs from the durable intent"
  openJournalRoot .source
  closing (os .close) do
    let _ ← readSourceFence tid intentDigest snapshot true
    let replaced ← journalExists .source snapshot.journal
    when (replaced = true) do
      let _ ← markBlocked tid intentDigest (Deployment.ofRecord applied) none
        .sourceReplacementCollision
      raise <| .transaction "source journal reappeared before transaction finalization"
  writeRecord tid .finalized <| finalizedValue tid intentDigest (Deployment.ofRecord applied)
    factReceiptSha256 sourceProcessIdentity

-- `finalize_quarantine_transaction`.
def finalizeTransaction (tid : Tid) (appliedDigest factReceiptSha256 : Digest)
    (sourceProcessIdentity : ProcessIdentity) : Sys Record :=
  withLease <| finalizeLocked tid appliedDigest factReceiptSha256 sourceProcessIdentity

end

end Quarantine
