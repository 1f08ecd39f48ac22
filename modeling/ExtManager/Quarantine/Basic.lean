import Mathlib.Data.List.AList
import ExtManager.Process.Rules

namespace Quarantine

-- A sha256 digest, as the number that its 64 hexadecimal digits write.
abbrev Digest := Nat

-- A transaction is named by the digest of its binding, a journal file by the digest of the process
-- that writes it: `ecpa-<id>.<stage>.json` and `<digest>.jsonl`.
abbrev Tid := Digest

abbrev Journal := Digest

-- `(st_dev, st_ino)` of a file or a directory.
abbrev Ino := Nat

def MAX_JOURNAL_BYTES : Nat :=
  512 * 1024

structure QuarantinedJournal where
  journal : Journal
  raw : List UInt8
  identity : Ino
  deriving DecidableEq

structure Target where
  host : String
  role : String
  ordinal : Nat
  processEpoch : Nat
  deriving DecidableEq

structure EntryPoint where
  group : String
  name : String
  value : String
  deriving DecidableEq

-- `ecpa-quarantine-transaction-binding/v1`.
structure Binding where
  scenario : String
  planId : String
  launchId : String
  controllerInstance : String
  invocationId : String
  challenge : String
  target : Target
  entryPoint : EntryPoint
  journal : Journal
  descriptorSha256 : Digest
  deriving DecidableEq

inductive Reason
  | catchablePostMoveFailure
  | noMoveObserved
  | restoredAfterApplied
  | restoredAfterMove
  | journalMissingFromBothRoots
  | restoreVerificationFailed
  | sourceChangedBeforeRecovery
  | sourceReplacementCollision
  | sourceReplacementAfterFinalize
  deriving DecidableEq

namespace Reason

-- `_RESTORE_REASONS`.
def Restores : Reason → Prop
  | catchablePostMoveFailure | noMoveObserved | restoredAfterApplied | restoredAfterMove => True
  | _ => False

-- `_BLOCK_REASONS`.
def Blocks (r : Reason) : Prop :=
  ¬r.Restores

instance : DecidablePred Restores
  | catchablePostMoveFailure | noMoveObserved | restoredAfterApplied | restoredAfterMove =>
    .isTrue trivial
  | journalMissingFromBothRoots | restoreVerificationFailed | sourceChangedBeforeRecovery
  | sourceReplacementCollision | sourceReplacementAfterFinalize =>
    .isFalse not_false

instance : DecidablePred Blocks :=
  fun r => inferInstanceAs (Decidable (¬r.Restores))

end Reason

structure Intent where
  transactionId : Tid
  binding : Binding
  sourceDirectory : Ino
  quarantineDirectory : Ino
  journal : Journal
  identity : Ino
  bytes : Nat
  raw : List UInt8
  sha256 : Digest
  deriving DecidableEq

structure Applied where
  transactionId : Tid
  intentDigest : Digest
  journal : Journal
  identity : Ino
  bytes : Nat
  sha256 : Digest
  deriving DecidableEq

-- The record of a restored or of a blocked transaction.
structure Terminal where
  transactionId : Tid
  intentDigest : Digest
  appliedDigest : Option Digest
  finalizedDigest : Option Digest
  reason : Reason
  deriving DecidableEq

structure ProcessIdentity where
  pid : Nat
  startTicks : Nat
  argv : List String
  executableDevice : Nat
  executableInode : Nat
  deriving DecidableEq

structure Finalized where
  transactionId : Tid
  intentDigest : Digest
  appliedDigest : Digest
  factReceiptSha256 : Digest
  sourceProcessIdentity : ProcessIdentity
  deriving DecidableEq

structure Fence where
  transactionId : Tid
  intentDigest : Digest
  journal : Journal
  identity : Ino
  sha256 : Digest
  deriving DecidableEq

-- The value of a canonical record, by its schema. Two records are equal when their canonical bytes
-- are.
inductive Record
  | intent (v : Intent)
  | applied (v : Applied)
  | finalized (v : Finalized)
  | restored (v : Terminal)
  | blocked (v : Terminal)
  | fence (v : Fence)
  deriving DecidableEq

-- What the deployment fixes: the identities of its two roots, and sha256 of a journal's name, of
-- a journal's bytes, of a record's canonical bytes and of a binding's.
class Deployment where
  sourceIdentity : Ino
  quarantineIdentity : Ino
  distinct : sourceIdentity ≠ quarantineIdentity
  ofName : Journal → Digest
  ofBytes : List UInt8 → Digest
  ofRecord : Record → Digest
  ofBinding : Binding → Digest

inductive Side
  | source
  | quarantine
  deriving DecidableEq

def Side.other : Side → Side
  | source     => quarantine
  | quarantine => source

inductive Stage
  | intent
  | applied
  | finalized
  | restored
  | blocked
  deriving DecidableEq

-- The names of a root other than those of journals and of temporaries:
-- `.ecpa-quarantine-<digest>.fence` and `ecpa-<id>.<stage>.json`.
inductive Name
  | fence (h : Digest)
  | record (tid : Tid) (stage : Stage)
  deriving DecidableEq

-- A root without its journals: the files with such a name, and the temporaries, which get their
-- bytes with one write and a name with one rename. The number in the name of a temporary stands
-- for the process id and the 128 random bits, and is not used twice.
structure Root where
  files : AList fun _ : Name => Record
  temporaries : AList fun _ : Nat => Option Record
  tokens : Nat

-- The rename of the temporary `t` to the name `n` publishes the record `v`.
def Root.Publishes (r : Root) (t : Nat) (n : Name) (v : Record) : Prop :=
  r.temporaries.lookup t = some (some v) ∧ n ∉ r.files

def Root.empty : Root where
  files       := ∅
  temporaries := ∅
  tokens      := 0

-- Both roots, with the journals in them as entries of name and inode, and the bytes of each inode.
structure Disk where
  source : Root
  quarantine : Root
  journals : Side → Journal → Option Ino
  bytes : Ino → List UInt8
  inodes : Nat

inductive Errno
  | notFound
  | present
  | io
  deriving DecidableEq

-- The calls on the names of a root that are not journals. The bytes of a file do not change once
-- it has its name, so its descriptor stands for them.
inductive FileCall
  | open (n : Name)
  | stat (n : Name)
  | create
  | write (t : Nat) (v : Record)
  | rename (t : Nat) (n : Name)
  | discard (t : Nat)
  | unlink (n : Name)
  | list

@[reducible]
def FileCall.Value : FileCall → Type
  | .open _  => Record
  | .create  => Nat
  | .list    => List Name × List Nat
  | _        => Unit

-- The calls on journals. `rename` takes a journal from the root `s` to the other one and replaces
-- nothing; `statBack` and `renameBack` are the calls of the rollback of a move out of the root `s`.
inductive JournalCall
  | open (s : Side) (n : Journal)
  | create (n : Journal)
  | stat (s : Side) (n : Journal)
  | fstat (i : Ino)
  | read (i : Ino)
  | write (i : Ino) (view : List UInt8)
  | rename (s : Side) (n : Journal)
  | statBack (s : Side) (n : Journal)
  | renameBack (s : Side) (n : Journal)
  | plant (n : Journal) (raw : List UInt8)

@[reducible]
def JournalCall.Value : JournalCall → Type
  | .open _ _ | .create _        => Ino
  | .stat _ _ | .statBack _ _    => Ino × Nat
  | .fstat _ | .write _ _        => Nat
  | .read _                      => List UInt8
  | _                            => Unit

-- `closeRoot s n` closes a root at the end of a move of the journal `n` out of the root `s`, and
-- `observe` reads the host events and checks them: it yields the target's journal as it was parsed.
inductive Call
  | file (s : Side) (c : FileCall)
  | journal (c : JournalCall)
  | openRoot (s : Side)
  | fstat
  | read
  | fsync
  | close
  | closeRoot (s : Side) (n : Journal)
  | observe (n : Journal)
  | audit

@[reducible]
def Call.Value : Call → Type
  | .file _ c    => c.Value
  | .journal c   => c.Value
  | .observe _   => List UInt8
  | _            => Unit

abbrev Call.Answer (c : Call) : Type :=
  Except Errno c.Value

namespace FileCall

-- What a call does when it does not fail.
def perform : (c : FileCall) → Root → Except Errno c.Value × Root
  | .open n,     r => (match r.files.lookup n with | some v => .ok v | none => .error .notFound, r)
  | .stat n,     r => (if n ∈ r.files then .ok () else .error .notFound, r)
  | .create,     r => (.ok r.tokens, {
      r with temporaries := r.temporaries.insert r.tokens none, tokens := r.tokens + 1
    })
  | .write t v,  r => (.ok (), {
      r with temporaries := if t ∈ r.temporaries then r.temporaries.insert t v else r.temporaries
    })
  | .rename t n, r => match r.temporaries.lookup t with
    | some (some v) =>
      if n ∈ r.files then (.error .present, r) else
        (.ok (), { r with files := r.files.insert n v, temporaries := r.temporaries.erase t })
    | some none => (.error .io, r)
    | none      => (.error .notFound, r)
  | .discard t,  r =>
    if t ∈ r.temporaries then (.ok (), { r with temporaries := r.temporaries.erase t })
    else (.error .notFound, r)
  | .unlink n,   r =>
    if n ∈ r.files then (.ok (), { r with files := r.files.erase n }) else (.error .notFound, r)
  | .list,       r => (.ok (r.files.keys, r.temporaries.keys), r)

end FileCall

namespace Disk

def root (d : Disk) : Side → Root
  | .source     => d.source
  | .quarantine => d.quarantine

def setRoot (d : Disk) (r : Root) : Side → Disk
  | .source     => { d with source := r }
  | .quarantine => { d with quarantine := r }

-- The journal `n` of the root `s`.
def put (d : Disk) (s : Side) (n : Journal) (i : Option Ino) : Disk :=
  { d with journals := Function.update d.journals s <| Function.update (d.journals s) n i }

def extend (d : Disk) (i : Ino) (view : List UInt8) : Disk :=
  { d with bytes := Function.update d.bytes i <| d.bytes i ++ view }

-- A new file in the source root.
def plant (d : Disk) (n : Journal) (raw : List UInt8) : Disk :=
  { d.put .source n d.inodes with
    bytes  := Function.update d.bytes d.inodes raw
    inodes := d.inodes + 1 }

def stat (d : Disk) (s : Side) (n : Journal) : Except Errno (Ino × Nat) :=
  match d.journals s n with
  | some i => .ok (i, (d.bytes i).length)
  | none   => .error .notFound

-- `renameat2` with `RENAME_NOREPLACE`.
def rename (d : Disk) (s : Side) (n : Journal) : Except Errno Unit × Disk :=
  match d.journals s n, d.journals s.other n with
  | none,   _      => (.error .notFound, d)
  | some _, some _ => (.error .present, d)
  | some i, none   => (.ok (), (d.put s n none).put s.other n i)

end Disk

namespace JournalCall

def perform : (c : JournalCall) → Disk → Except Errno c.Value × Disk
  | .open s n,       d => (match d.journals s n with | some i => .ok i | none => .error .notFound, d)
  | .create n,       d => match d.journals .source n with
    | some _ => (.error .present, d)
    | none   => (.ok d.inodes, d.plant n [])
  | .stat s n,       d => (d.stat s n, d)
  | .statBack s n,   d => (d.stat s n, d)
  | .fstat i,        d => (.ok (d.bytes i).length, d)
  | .read i,         d => (.ok (d.bytes i), d)
  | .write i view,   d => (.ok view.length, d.extend i view)
  | .rename s n,     d => d.rename s n
  | .renameBack s n, d => d.rename s.other n
  | .plant n raw,    d => match d.journals .source n with
    | some _ => (.error .present, d)
    | none   => (.ok (), d.plant n raw)

end JournalCall

namespace Call

def perform : (c : Call) → Disk → c.Answer × Disk
  | .file s c,      d => match c.perform (d.root s) with | (a, r) => (a, d.setRoot r s)
  | .journal c,     d => c.perform d
  | .observe n,     d => (.ok <| (d.journals .source n).elim [] d.bytes, d)
  | .openRoot _,    d => (.ok (), d)
  | .fstat,         d => (.ok (), d)
  | .read,          d => (.ok (), d)
  | .fsync,         d => (.ok (), d)
  | .close,         d => (.ok (), d)
  | .closeRoot _ _, d => (.ok (), d)
  | .audit,         d => (.ok (), d)

-- The calls that write a part of what they are given.
inductive Short : (c : Call) → Disk → c.Answer → Disk → Prop
  | intro {i view k d} : 0 < k → k ≤ view.length →
      Short (.journal (.write i view)) d (.ok k) (d.extend i (view.take k))

-- What a call may answer and do, when `fails` says which calls may fail in which state.
inductive Does (fails : Call → Disk → Prop) (c : Call) (d : Disk) : c.Answer → Disk → Prop
  | performs : Does fails c d (c.perform d).1 (c.perform d).2
  | fails : fails c d → Does fails c d (.error .io) d
  | short {a d'} : Short c d a d' → Does fails c d a d'

end Call

-- The exceptions, by their class: what the operating system answers, and the texts of the three
-- classes of the program. `record` is a transaction error whose text ends in the name of a record.
inductive Error
  | os (e : Errno)
  | sink (text : String)
  | transaction (text : String)
  | record (text : String) (n : Name)
  | lifecycle (text : String)
  deriving DecidableEq

abbrev Sys (α : Type) : Type :=
  Process.Prog Call Call.Answer Error α

open Process.Prog

-- Makes one call and hands its answer on.
def ask (c : Call) : Sys c.Answer :=
  .call c fun a => .ret (.ok a)

-- Makes one call and raises what it fails with.
def os (c : Call) : Sys c.Value :=
  .call c fun a => .ret (a.mapError .os)

-- `try m except OSError: raise e`.
def wrapOs {α : Type} (e : Error) (m : Sys α) : Sys α :=
  m.attempt fun
    | .os _ => raise e
    | e'    => raise e'

-- `try m except HostEventSinkError: h`.
def onSink {α : Type} (m h : Sys α) : Sys α :=
  m.attempt fun
    | .sink _ => h
    | e       => raise e

-- `try m finally: f`.
def closing {α : Type} (f : Sys Unit) (m : Sys α) : Sys α :=
  m.ensure f

end Quarantine
