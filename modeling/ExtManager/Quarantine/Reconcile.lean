import ExtManager.Quarantine.Transaction

namespace Quarantine

open Process.Prog

variable [Deployment]

inductive Settlement
  | restored
  | finalized
  deriving DecidableEq

structure ReconciliationResult where
  restored : List Tid
  finalized : List Tid
  deriving DecidableEq

def ReconciliationResult.add (r : ReconciliationResult) (tid : Tid) :
    Settlement → ReconciliationResult
  | .restored  => { r with restored := r.restored ++ [tid] }
  | .finalized => { r with finalized := r.finalized ++ [tid] }

-- `_is_same_append_only_journal`.
def SameAppendOnlyJournal (current snapshot : QuarantinedJournal) : Prop :=
  current.journal = snapshot.journal ∧ current.identity = snapshot.identity ∧
    snapshot.raw <+: current.raw

instance (current snapshot : QuarantinedJournal) :
    Decidable (SameAppendOnlyJournal current snapshot) :=
  inferInstanceAs (Decidable (_ ∧ _ ∧ _))

def removeTemporaries (s : Side) : List Nat → Sys Unit
  | []      => return ()
  | t :: ts => do
    wrapOs (.transaction "cannot inspect incomplete file") (os .fstat)
    wrapOs (.transaction "cannot remove incomplete file") <| os (.file s (.discard t))
    removeTemporaries s ts

-- Removes what has not been published, and lists the names that are left.
def sweep (s : Side) : Sys (List Name) := do
  let (names, temporaries) ← os (.file s .list)
  removeTemporaries s temporaries
  when (temporaries ≠ []) <| os .fsync
  return names

def Name.intent? : Name → Option Tid
  | .record tid .intent => some tid
  | _                   => none

-- A record of a transaction without an intent.
def Orphan (names : List Name) : Prop :=
  ∃ n ∈ names, match n with
    | .record tid _ => Name.record tid .intent ∉ names
    | .fence _      => False

instance (names : List Name) : Decidable (Orphan names) :=
  @List.decidableBEx _ _ (fun n => match n with
    | .record tid _ => inferInstanceAs (Decidable (Name.record tid .intent ∉ names))
    | .fence _      => inferInstanceAs (Decidable False)) names

-- The five records of a transaction as reconciliation reads them.
structure Chain where
  intent : Record
  applied : Option Record
  finalized : Option Record
  restored : Option Record
  blocked : Option Record

def Chain.intentDigest (c : Chain) : Digest :=
  Deployment.ofRecord c.intent

def Chain.appliedDigest (c : Chain) : Option Digest :=
  c.applied.map Deployment.ofRecord

-- The checks of a finalized record, where one has been read.
def Chain.checkFinalized (tid : Tid) (c : Chain) (unapplied : Error) : Except Error Unit :=
  match c.finalized, c.applied with
    | none,           _            => .ok ()
    | some _,         none         => .error unapplied
    | some finalized, some applied =>
      validateFinalized tid c.intentDigest (Deployment.ofRecord applied) finalized

-- The check of an applied record, where one has been read.
def Chain.checkApplied (tid : Tid) (c : Chain) (snapshot : QuarantinedJournal) :
    Except Error Unit :=
  match c.applied with
    | none         => .ok ()
    | some applied => validateApplied tid c.intentDigest snapshot applied

-- The iteration where a blocked record has been read. It always raises.
def refuseBlocked (tid : Tid) (c : Chain) (blocked : Record) : Sys Settlement := do
  lift <| c.checkFinalized tid <|
    .transaction "blocked finalized transaction has no applied record"
  lift <| validateBlocked tid c.intentDigest c.appliedDigest
    (c.finalized.map Deployment.ofRecord) blocked
  raise <| .transaction "quarantine transaction requires operator resolution"

-- The iteration where a finalized record has been read.
def keepFinalized (tid : Tid) (c : Chain) (snapshot : QuarantinedJournal) (finalized : Record)
    (maxBytes : Nat) : Sys Settlement := do
  lift <| c.checkFinalized tid <|
    .transaction "finalized quarantine transaction chain is invalid"
  let retained ← onSink (snapshotJournal .quarantine snapshot.journal maxBytes) <|
    raise <| .transaction "finalized quarantine artifact is missing or unsafe"
  raiseIf (retained ≠ snapshot) <|
    .transaction "finalized quarantine artifact differs from intent"
  let _ ← readSourceFence tid c.intentDigest snapshot true
  let replaced ← journalExists .source snapshot.journal
  when (replaced = true) do
    let _ ← markBlocked tid c.intentDigest c.appliedDigest (Deployment.ofRecord finalized)
      .sourceReplacementAfterFinalize
    raise <| .transaction "finalized quarantine has a replacement source journal"
  return .finalized

-- The iteration where a restored record has been read.
def keepRestored (tid : Tid) (c : Chain) (snapshot : QuarantinedJournal) (restored : Record)
    (maxBytes : Nat) : Sys Settlement := do
  lift <| validateRestored tid c.intentDigest c.appliedDigest none restored
  let fence ← readSourceFence tid c.intentDigest snapshot false
  raiseIf (fence ≠ none) <|
    .transaction "restored transaction still has a source journal fence"
  let quarantined ← journalExists .quarantine snapshot.journal
  raiseIf (quarantined = true) <|
    .transaction "restored quarantine transaction still has quarantined bytes"
  let current ← onSink (snapshotJournal .source snapshot.journal maxBytes) <|
    raise <| .transaction "restored quarantine source is missing or unsafe"
  raiseIf (¬SameAppendOnlyJournal current snapshot) <|
    .transaction "restored quarantine source is not an append-only continuation"
  return .restored

-- Blocks a transaction that is not settled.
def block {α : Type} (tid : Tid) (c : Chain) (reason : Reason) (text : String) : Sys α := do
  let _ ← markBlocked tid c.intentDigest c.appliedDigest none reason
  raise <| .transaction text

-- Where the journal of an unsettled transaction is, or is again, the reason to record.
def bringBack (tid : Tid) (c : Chain) (snapshot : QuarantinedJournal) (maxBytes : Nat) :
    Sys Reason := do
  let inSource ← journalExists .source snapshot.journal
  let inQuarantine ← journalExists .quarantine snapshot.journal
  if inSource = true ∧ inQuarantine = true then
    block tid c .sourceReplacementCollision
      "quarantine recovery refuses to overwrite replacement evidence"
  else if inQuarantine = true then do
    let _ ← readSourceFence tid c.intentDigest snapshot true
    onSink (restoreQuarantinedJournal snapshot maxBytes) <|
      block tid c .restoreVerificationFailed "quarantine crash recovery failed closed"
    return if c.applied = none then .restoredAfterMove else .restoredAfterApplied
  else if inSource = true then do
    let current ← snapshotJournal .source snapshot.journal maxBytes
    if ¬SameAppendOnlyJournal current snapshot then
      block tid c .sourceChangedBeforeRecovery "quarantine intent source changed before recovery"
    else return .noMoveObserved
  else
    block tid c .journalMissingFromBothRoots "quarantine journal is missing from both roots"

-- The iteration where no terminal record has been read.
def restoreUnfinished (tid : Tid) (c : Chain) (snapshot : QuarantinedJournal) (maxBytes : Nat) :
    Sys Settlement := do
  let reason ← bringBack tid c snapshot maxBytes
  removeFence tid c.intentDigest snapshot
  let _ ← markRestored tid c.intentDigest c.appliedDigest reason
  return .restored

-- One iteration of the loop over the intents.
def settle (maxBytes : Nat) (tid : Tid) : Sys Settlement := do
  let intent ← readRecord .quarantine (.record tid .intent) true >>= theRecord
  let (value, snapshot) ← lift <| intentSnapshot tid intent
  raiseIf (value.sourceDirectory ≠ Deployment.sourceIdentity ∨
      value.quarantineDirectory ≠ Deployment.quarantineIdentity) <|
    .transaction "quarantine transaction directory identity differs"
  let applied ← readRecord .quarantine (.record tid .applied) false
  lift <| Chain.checkApplied tid ⟨intent, applied, none, none, none⟩ snapshot
  let finalized ← readRecord .quarantine (.record tid .finalized) false
  let restored ← readRecord .quarantine (.record tid .restored) false
  let blocked ← readRecord .quarantine (.record tid .blocked) false
  let c : Chain := ⟨intent, applied, finalized, restored, blocked⟩
  raiseIf (restored ≠ none ∧ (finalized ≠ none ∨ blocked ≠ none)) <|
    .transaction "quarantine transaction has conflicting terminal records"
  match blocked, finalized, restored with
    | some blocked, _,              _             => refuseBlocked tid c blocked
    | none,         some finalized, _             => keepFinalized tid c snapshot finalized maxBytes
    | none,         none,           some restored => keepRestored tid c snapshot restored maxBytes
    | none,         none,           none          => restoreUnfinished tid c snapshot maxBytes

def settleAll (maxBytes : Nat) : List Tid → ReconciliationResult → Sys ReconciliationResult
  | [],          r => return r
  | tid :: tids, r => do
    let settlement ← settle maxBytes tid
    settleAll maxBytes tids (r.add tid settlement)

-- `_reconcile_quarantine_transactions_locked`. The intents are visited in the order of their names,
-- which is the order of the identifiers.
def reconcileLocked (maxBytes : Nat) : Sys ReconciliationResult := do
  openJournalRoot .source
  attempt (openJournalRoot .quarantine) fun e => do
    os .close
    raise e
  closing (do os .close; os .close) do
    os .fstat
    os .fstat
    raiseIf (Deployment.sourceIdentity = Deployment.quarantineIdentity) <|
      .transaction "quarantine recovery requires distinct roots on one filesystem"
    let _ ← sweep .source
    let names ← sweep .quarantine
    raiseIf (Orphan names) <|
      .transaction "quarantine transaction directory has an orphan record"
    settleAll maxBytes ((names.filterMap Name.intent?).insertionSort (· ≤ ·)) ⟨[], []⟩

-- `reconcile_quarantine_transactions`.
def reconcileTransactions (maxBytes : Nat) : Sys ReconciliationResult :=
  withLease <| reconcileLocked maxBytes

end Quarantine
