import ExtManager.Attestation.Profile
import ExtManager.Codec.Canonical
import ExtManager.Process.Basic

-- The file of one record of a transaction, byte by byte.
namespace RecordFile

open Process

def maxTransactionRecordBytes : Nat :=
  2 * 1024 * 1024

inductive Errno
  | notFound
  | present
  | io
  deriving DecidableEq

inductive Error
  -- A `QuarantineTransactionError`.
  | transaction (message : String)
  -- An `OSError`.
  | os (e : Errno)
  -- What `json` raises.
  | json
  deriving DecidableEq

-- What has happened outside the directory: a record is to be written, a call has returned, a reader
-- has seen a record or none.
inductive Event
  | called (value : Value)
  | returned (value : Value) (raw : Bytes)
  | saw (raw : Option Bytes)
  deriving DecidableEq

-- The directory as far as the record goes: the file with its name, and the files with the name of a
-- temporary. Files are numbered as they come up. The name of a temporary has a token in it which
-- is not used twice.
structure Dir where
  record      : Option Nat
  temporaries : List Nat
  content     : Nat → Bytes
  created     : Nat
  history     : List Event

inductive Call
  | openRoot
  | open
  | fstat (file : Nat)
  -- Reads up to so many bytes from a place on.
  | read (file offset size : Nat)
  | close
  | create
  | write (file : Nat) (raw : Bytes)
  | fsync
  -- Gives a temporary the name of the record.
  | rename (file : Nat)
  | unlink (file : Nat)
  | listdir
  | stat (file : Nat)
  | note (e : Event)

namespace Call

-- Whether a file is safe is whether it is regular, and its owner and its mode are as they should be.
abbrev Value : Call → Type
  | .open | create => Nat
  | fstat _ | stat _ => Bool
  | read ..          => Bytes
  | write ..         => Nat
  | listdir          => List Nat
  | _                => Unit

abbrev Answer (c : Call) :=
  Except Errno c.Value

end Call

namespace Dir

def append (s : Dir) (file : Nat) (raw : Bytes) : Dir :=
  { s with content := Function.update s.content file (s.content file ++ raw) }

def create (s : Dir) : Dir :=
  { s with
    temporaries := s.created :: s.temporaries
    content     := Function.update s.content s.created []
    created     := s.created + 1 }

def publish (s : Dir) (file : Nat) : Dir :=
  { s with record := some file, temporaries := s.temporaries.erase file }

def unlink (s : Dir) (file : Nat) : Dir :=
  { s with temporaries := s.temporaries.erase file }

def note (s : Dir) (e : Event) : Dir :=
  { s with history := s.history ++ [e] }

end Dir

-- What a call may answer, and what becomes of the directory. Any call may fail; a write that fails
-- may have written something.
def sys : (c : Call) → Dir → c.Answer → Dir → Prop
  | .open,         s, a, s' => s' = s ∧ match a with
    | .ok file         => s.record = some file
    | .error .notFound => s.record = none
    | .error _         => True
  | .read f o n,   s, a, s' => s' = s ∧ match a with
    | .ok raw  => raw <+: (s.content f).drop o ∧ raw.length ≤ n ∧
        (raw = [] → n = 0 ∨ (s.content f).length ≤ o)
    | .error _ => True
  | .create,       s, a, s' => match a with
    | .ok file => file = s.created ∧ s' = s.create
    | .error _ => s' = s
  | .write f raw,  s, a, s' => match a with
    | .ok n    => n ≤ raw.length ∧ s' = s.append f (raw.take n)
    | .error _ => ∃ n, s' = s.append f (raw.take n)
  | .rename f,     s, a, s' => match a with
    | .ok _           => s.record = none ∧ f ∈ s.temporaries ∧ s' = s.publish f
    | .error .present => s.record ≠ none ∧ s' = s
    | .error _        => s' = s
  | .unlink f,     s, a, s' => match a with
    | .ok _    => f ∈ s.temporaries ∧ s' = s.unlink f
    | .error _ => s' = s
  | .listdir,      s, a, s' => s' = s ∧ ∀ files, a = .ok files → files.Perm s.temporaries
  | .note e,       s, a, s' => a = .ok () ∧ s' = s.note e
  | .openRoot,     s, _, s' => s' = s
  | .fstat _,      s, _, s' => s' = s
  | .stat _,       s, _, s' => s' = s
  | .close,        s, _, s' => s' = s
  | .fsync,        s, _, s' => s' = s

abbrev Sys (α : Type) :=
  Prog Call Call.Answer Error α

open Prog

def ask (c : Call) : Sys c.Answer :=
  .call c fun a => .ret (.ok a)

def os (c : Call) : Sys c.Value :=
  .call c fun a => .ret (a.mapError .os)

-- `except OSError as exc: raise QuarantineTransactionError(message) from exc`.
def mapOs {α : Type} (message : String) (m : Sys α) : Sys α :=
  m.attempt fun
    | .os _ => raise (.transaction message)
    | e     => raise e

section

variable [PythonJson]

-- `canonical_bytes(value) + b"\n"`.
def rawOf (value : Value) : Option Bytes :=
  (Dumps.plainBytes value).map (· ++ [0x0A])

-- The checks of a reader on the bytes. `name` is the name of the record.
def check (name : String) (raw : Bytes) : Except Error Unit :=
  match Profile.decode raw with
  | none      => .error (.transaction ("quarantine transaction record is invalid JSON: " ++ name))
  | some text => match PythonJson.loads text with
    | .error .recursion => .error .json
    | .error _          =>
      .error (.transaction ("quarantine transaction record is invalid JSON: " ++ name))
    | .ok (.obj fields) => match rawOf (.obj fields) with
      | none      => .error .json
      | some raw' =>
        if raw = raw' then .ok ()
        else .error (.transaction ("quarantine transaction record is not canonical: " ++ name))
    | .ok _             =>
      .error (.transaction ("quarantine transaction record is not canonical: " ++ name))

end

-- `stream.read(size)` behind what has been read, as the number of reads that it takes at most.
def readAll (file size : Nat) : Nat → Bytes → Sys Bytes
  | 0,     raw => pure raw
  | n + 1, raw =>
    if size ≤ raw.length then pure raw
    else do
      let more ← os (.read file raw.length (size - raw.length))
      if more = [] then pure raw else readAll file size n (raw ++ more)

-- `while view`, where every round writes something.
def writeAll (name : String) (file : Nat) : Nat → Bytes → Sys Unit
  | 0,     _    => pure ()
  | n + 1, view =>
    if view = [] then pure ()
    else do
      let written ← os (.write file view)
      raiseIf (written = 0)
        (.transaction ("quarantine transaction write made no progress: " ++ name))
      writeAll name file n (view.drop written)

variable [PythonJson] (name : String)

-- `_read_record_from_directory`.
def readRecordFromDirectory (required : Bool) : Sys (Option Bytes) := do
  match ← ask .open with
    | .error .notFound =>
      if required then raise (.transaction ("quarantine transaction record is missing: " ++ name))
      else pure none
    | .error _ => raise (.transaction ("cannot open quarantine transaction record: " ++ name))
    | .ok file => do
      let raw ← ensure (do
        let safe ← os (.fstat file)
        raiseIf (¬safe) (.transaction ("quarantine transaction record is unsafe: " ++ name))
        let size := maxTransactionRecordBytes + 1
        readAll file size size []) (os .close)
      raiseIf (maxTransactionRecordBytes < raw.length)
        (.transaction ("quarantine transaction record is oversized: " ++ name))
      lift (check name raw)
      return some raw

-- `read_quarantine_record`.
def readQuarantineRecord (required : Bool) : Sys (Option Bytes) := do
  os .openRoot
  ensure (readRecordFromDirectory name required) (os .close)

-- The temporary is written and renamed, unless there is a record.
def publishTemporary (raw : Bytes) (temporary : Nat) : Sys (Option Bytes) := do
  ensure (mapOs ("cannot persist quarantine transaction record: " ++ name) do
    writeAll name temporary raw.length raw
    os .fsync) (os .close)
  match ← ask (.rename temporary) with
    | .ok _           => pure none
    | .error .present => do
      let existing ← readRecordFromDirectory name true
      raiseIf (existing ≠ some raw)
        (.transaction ("quarantine transaction record conflicts: " ++ name))
      pure existing
    | .error _        =>
      raise (.transaction ("cannot publish quarantine transaction record: " ++ name))

-- `if temporary_exists`, in the end.
def discard (temporary : Nat) : Sys Unit :=
  attempt (do
    os (.unlink temporary)
    os .fsync)
    fun _ => pure ()

-- What `_write_record` does in the directory.
def publish (raw : Bytes) : Sys Bytes := do
  match ← readRecordFromDirectory name false with
    | some existing => do
      raiseIf (existing ≠ raw)
        (.transaction ("quarantine transaction record conflicts: " ++ name))
      return existing
    | none => do
      let temporary ← mapOs ("cannot create quarantine transaction temporary record: " ++ name)
        (os .create)
      let existing ← attempt (publishTemporary name raw temporary) fun e => do
        discard temporary
        raise e
      match existing with
        | some existing => do
          discard temporary
          return existing
        | none => do
          os .fsync
          let published ← readRecordFromDirectory name true
          raiseIf (published ≠ some raw)
            (.transaction ("published quarantine transaction record differs: " ++ name))
          return raw

def writeRecord (value : Value) : Sys Bytes := do
  let raw ← lift (match rawOf value with
    | some raw => .ok raw
    | none     => .error .json)
  raiseIf (maxTransactionRecordBytes < raw.length)
    (.transaction ("quarantine transaction record is oversized: " ++ name))
  os .openRoot
  ensure (publish name raw) (os .close)

omit [PythonJson] in
-- The temporaries of a directory that are found are removed. Their names are as they should be.
def removeTemporaries : List Nat → Sys Unit
  | []            => pure ()
  | file :: files => do
    let safe ← mapOs "cannot inspect incomplete transaction record" (os (.stat file))
    raiseIf (¬safe) (.transaction "incomplete transaction record is unsafe")
    mapOs "cannot remove incomplete transaction record" (os (.unlink file))
    removeTemporaries files

-- What `_reconcile_quarantine_transactions_locked` does with them.
def reconcileTemporaries : Sys Unit := do
  let files ← os .listdir
  removeTemporaries files
  when (files ≠ []) (os .fsync)

inductive Task
  | write (value : Value)
  | read (required : Bool)
  | reconcile

def program : Task → Sys Unit
  | .write value   => do
    os (.note (.called value))
    let raw ← writeRecord name value
    os (.note (.returned value raw))
  | .read required => do
    let raw ← readQuarantineRecord name required
    os (.note (.saw raw))
  | .reconcile     => reconcileTemporaries

-- Before all calls there is no record. Temporaries may have been left behind.
def Initial (s : Dir) : Prop :=
  s.record = none ∧ s.history = [] ∧ ∀ file ∈ s.temporaries, file < s.created

end RecordFile
