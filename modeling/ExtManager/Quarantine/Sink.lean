import ExtManager.Quarantine.Basic

namespace Quarantine

open Process.Prog

def openJournalRoot (s : Side) : Sys Unit :=
  wrapOs (.sink "host event directory is unavailable") <| os (.openRoot s)

-- `os.close` of the descriptor that holds the lock gives it back, even where the call fails.
def unlock : Sys Unit :=
  .release <| os .close

-- `raw and not raw.endswith(b"\n")`.
def Partial (raw : List UInt8) : Prop :=
  raw ≠ [] ∧ raw.getLast? ≠ some 10

instance : DecidablePred Partial :=
  fun raw => inferInstanceAs (Decidable (raw ≠ [] ∧ raw.getLast? ≠ some 10))

-- The size and the first bytes of an open file, and its descriptor closed.
def readJournal (i : Ino) (maxBytes : Nat) : Sys (Nat × List UInt8) :=
  closing (os .close) do
    let size ← os (.journal (.fstat i))
    let raw ← os (.journal (.read i))
    return (size, raw.take (maxBytes + 1))

def snapshotJournal (s : Side) (journal : Journal) (maxBytes : Nat) : Sys QuarantinedJournal := do
  raiseIf (maxBytes = 0) <| .sink "journal snapshot request is invalid"
  openJournalRoot s
  closing (os .close) do
    let i ← wrapOs (.sink "cannot open journal for snapshot") <| os (.journal (.open s journal))
    let (size, raw) ← readJournal i maxBytes
    raiseIf (maxBytes < raw.length) <| .sink "journal snapshot source exceeds the limit"
    raiseIf (Partial raw) <| .sink "journal snapshot source is partial"
    let (i', size') ← wrapOs (.sink "journal snapshot source disappeared") <|
      os (.journal (.stat s journal))
    raiseIf (i' ≠ i ∨ size' ≠ size) <| .sink "journal snapshot source identity changed"
    return ⟨journal, raw, i⟩

-- `try: os.stat(name) except FileNotFoundError: pass except OSError: raise io else: raise found`.
def expectAbsent {α : Type} (io : Errno → Error) (found : Error) : Except Errno α → Sys Unit
  | .error .notFound => return ()
  | .error e         => raise (io e)
  | .ok _            => raise found

-- The part of `quarantine_journal` before its rename.
def inspectJournal (s : Side) (journal : Journal) (maxBytes : Nat)
    (expected : Option QuarantinedJournal) : Sys QuarantinedJournal := do
  os .fstat
  os .fstat
  let target ← ask (.journal (.stat s.other journal))
  expectAbsent (fun _ => .sink "cannot inspect journal quarantine target")
    (.sink "journal quarantine target already exists") target
  let i ← wrapOs (.sink "cannot open journal for quarantine") <| os (.journal (.open s journal))
  let (size, raw) ← readJournal i maxBytes
  raiseIf (maxBytes < raw.length) <| .sink "journal quarantine source exceeds the limit"
  raiseIf (Partial raw) <| .sink "journal quarantine source is partial"
  raiseIf (∃ e ∈ expected, e ≠ ⟨journal, raw, i⟩) <|
    .sink "journal quarantine source differs from the expected receipt"
  let (i', size') ← wrapOs (.sink "journal quarantine source disappeared") <|
    os (.journal (.stat s journal))
  raiseIf (i' ≠ i ∨ size' ≠ size) <| .sink "journal quarantine source identity changed"
  return ⟨journal, raw, i⟩

-- The part of `quarantine_journal` after its rename.
def confirmMove (s : Side) (moved : QuarantinedJournal) (maxBytes : Nat) : Sys Unit :=
  wrapOs (.sink "cannot atomically quarantine journal") do
    os .fsync
    os .fsync
    let (i, _) ← os (.journal (.stat s.other moved.journal))
    raiseIf (i ≠ moved.identity) <| .sink "quarantined journal identity changed"
    let i ← wrapOs (.sink "cannot open quarantined journal") <|
      os (.journal (.open s.other moved.journal))
    let retained ← closing (os .close) do
      let _ ← os (.journal (.fstat i))
      raiseIf (i ≠ moved.identity) <| .sink "quarantined journal changed before validation"
      os (.journal (.read i))
    raiseIf (retained.take (maxBytes + 1) ≠ moved.raw) <| .sink "quarantined journal bytes changed"
    let visible ← ask (.journal (.stat s moved.journal))
    expectAbsent .os (.sink "quarantined journal remains visible") visible

-- `except BaseException as original` of `quarantine_journal`, where the journal has been moved.
def rollBackMove (s : Side) (journal : Journal) (original : Error) : Sys Unit := do
  match ← ask (.journal (.statBack s journal)) with
    | .error .notFound => do
      wrapOs (.sink "journal quarantine failed and rollback failed") do
        os (.journal (.renameBack s journal))
        os .fsync
        os .fsync
      raise original
    | .error _ => raise <| .sink "journal quarantine failed and rollback target is unsafe"
    | .ok _    => raise <| .sink "journal quarantine failed and rollback target exists"

def closeRoots (s : Side) (journal : Journal) : Sys Unit := do
  os (.closeRoot s journal)
  os (.closeRoot s journal)

def quarantineJournal (s : Side) (journal : Journal) (maxBytes : Nat)
    (expected : Option QuarantinedJournal) : Sys QuarantinedJournal := do
  raiseIf (maxBytes = 0) <| .sink "journal quarantine request is invalid"
  openJournalRoot s
  attempt (openJournalRoot s.other) fun e => do
    os .close
    raise e
  closing (closeRoots s journal) do
    let moved ← inspectJournal s journal maxBytes expected
    wrapOs (.sink "cannot atomically quarantine journal") <| os (.journal (.rename s journal))
    attempt (confirmMove s moved maxBytes) (rollBackMove s journal)
    return moved

def restoreQuarantinedJournal (quarantined : QuarantinedJournal) (maxBytes : Nat) : Sys Unit := do
  let restored ← quarantineJournal .quarantine quarantined.journal maxBytes quarantined
  raiseIf (restored ≠ quarantined) <| .sink "restored journal differs from quarantine receipt"

-- `while view: written = os.write(descriptor, view); view = view[written:]`. Every round writes a
-- byte or more, so that as many rounds as there are bytes are enough.
def writeAll (i : Ino) : Nat → List UInt8 → Sys Unit
  | 0,     _    => return ()
  | n + 1, view =>
    if view = [] then return () else do
      let written ← os (.journal (.write i view))
      raiseIf (written = 0) <| .sink "host event journal append made no progress"
      writeAll i n (view.drop written)

section

variable [Deployment]

def fenceOf (journal : Journal) : Name :=
  .fence <| Deployment.ofName journal

-- The open journal, and whether it has been created.
def openForAppend (journal : Journal) : Sys (Ino × Bool) := do
  match ← ask (.journal (.create journal)) with
    | .ok i           => return (i, true)
    | .error .present => do
      let i ← wrapOs (.sink "cannot open host event journal") <| os (.journal (.open .source journal))
      return (i, false)
    | .error _        => raise <| .sink "cannot open host event journal"

-- `append_event`, from the acquired lock on. `raw` is the canonical event with its newline.
def appendLocked (journal : Journal) (raw : List UInt8) (fsync : Bool) : Sys Unit := do
  let fenced ← ask (.file .source (.stat (fenceOf journal)))
  expectAbsent (fun _ => .sink "cannot inspect journal quarantine fence")
    (.sink "host event journal is durably quarantined") fenced
  let (i, created) ← openForAppend journal
  closing (os .close) <| wrapOs (.sink "cannot write or sync host event journal") do
    let _ ← os (.journal (.fstat i))
    writeAll i raw.length raw
    when (fsync = true) (os .fsync)
  when (fsync = true ∧ created = true) <|
    wrapOs (.sink "cannot sync host event directory") (os .fsync)

def appendEvent (journal : Journal) (raw : List UInt8) (fsync : Bool) : Sys Unit := do
  openJournalRoot .source
  closing (os .close) <| .acquire .shared fun
    | true  => closing unlock (appendLocked journal raw fsync)
    | false => raise <| .sink "cannot acquire host event quarantine lock"

end

end Quarantine
