import ExtManager.Quarantine.Decisions

namespace Quarantine

open Process Process.Prog

-- The roots before the program has written to them: there may be journals in the source root.
structure Disk.Fresh (d : Disk) : Prop where
  source : d.source = .empty
  quarantine : d.quarantine = .empty
  outside : ∀ n, d.journals .quarantine n = none
  linked : ∀ n i, d.journals .source n = some i → i < d.inodes
  apart : ∀ n n' i, d.journals .source n = some i → d.journals .source n' = some i → n = n'

theorem perform_elsewhere {c : Call} {d : Disk} (h : Elsewhere c) :
    (c.perform d).2.quarantine = d.quarantine := by
  match c with
  | .file .source c     => rfl
  | .file .quarantine c => exact absurd rfl (h c)
  | .journal c          =>
    have moved (s : Side) (n : Journal) : (d.rename s n).2.quarantine = d.quarantine := by
      unfold Disk.rename
      split <;> rfl
    cases c
    case create n     => simp only [Call.perform, JournalCall.perform]; split <;> rfl
    case plant n raw  => simp only [Call.perform, JournalCall.perform]; split <;> rfl
    case rename s n   => exact moved s n
    case renameBack s n => exact moved s.other n
    all_goals rfl
  | .openRoot _ | .fstat | .read | .fsync | .close | .closeRoot _ _ | .observe _ | .audit => rfl

theorem elsewhere_openForAppend {n : Journal} : (openForAppend n).Only Elsewhere := by
  refine .bind (only_ask.mpr nofun) fun a => ?_
  split
  · trivial
  · exact .bind (only_wrapOs <| elsewhere_os nofun) fun _ => trivial
  · trivial

theorem elsewhere_writeAll {i : Ino} {k : Nat} {view : List UInt8} :
    (writeAll i k view).Only Elsewhere := by
  induction k generalizing view with
  | zero      => trivial
  | succ k ih =>
    unfold writeAll
    split
    · trivial
    · exact .bind (elsewhere_os nofun) fun _ => .bind .raiseIf fun _ => ih

variable {strict : Prop}

-- A call that publishes a record publishes it with care.
def Attentive (c : Call) (d d' : Disk) : Prop :=
  d' ≠ d → ∀ t n v, c = .file .quarantine (.rename t n) → d.quarantine.Publishes t n v →
    Careful d.quarantine.files n v

theorem sees {fails : Call → Disk → Prop} {c : Call} {d d' : Disk} {a : c.Answer}
    (h : Call.Does fails c d a d') (hs : strict → Attentive c d d') :
    Sees strict c d.quarantine a d'.quarantine := by
  by_cases hc : Elsewhere c
  case pos =>
    suffices he : d'.quarantine = d.quarantine from he ▸ .elsewhere hc
    cases h
    case performs  => exact perform_elsewhere hc
    case fails     => rfl
    case short h   => cases h; rfl
  case neg =>
    simp only [Elsewhere, not_forall, not_not] at hc
    obtain ⟨c, rfl⟩ := hc
    cases h
    case performs  =>
      refine .performs fun t n v he hp hst => hs hst (fun hd => ?_) t n v (congrArg _ he) hp
      -- The name is there after the rename, and not before it.
      cases he
      have hd := congrArg (n ∈ ·.quarantine.files) hd
      simp [Call.perform, FileCall.perform, Disk.root, Disk.setRoot, hp.left, hp.right] at hd
    case fails     => exact .fails
    case short h   => cases h

section Tasks

variable [Deployment] {r : Root}
variable {fact : Fact} {l : Option Mode}

-- However a process ends, it does not share the lock.
def Ended {α : Type} (_ : Except Error α) (l : Option Mode) (_ : Root) : Prop :=
  l ≠ some .shared

theorem commitFault_safe {settled : Bool} (h : Ready fact r) (hl : l ≠ some .shared) :
    Safe (Sees strict) (recordKeeping strict) Ended l (commitFault fact settled) r := by
  unfold commitFault
  split
  case isTrue  => exact hl
  case isFalse =>
    refine safe_andThen.mpr <| safe_andThen.mpr <| calm.acquireLease hl (fun s' ha => ?_)
      fun _ _ _ hl' _ => hl'
    refine safe_andThen.mpr <| Safe.mono (commitLocked_records (h.grows ha)) fun v l' s'' hv => ?_
    cases v
    case error e => exact hv.left ▸ nofun
    case ok v    =>
      refine safe_andThen.mpr <| safe_andThen.mpr <| calm.unlock fun u _ _ => ?_
      cases u <;> exact nofun

theorem reconcileTransactions_safe {b : Nat} (hl : l ≠ some .shared) :
    Safe (Sees strict) (recordKeeping strict) Ended l (reconcileTransactions b) r :=
  calm.withLease hl (fun _ _ => reconcileLocked_records) (fun _ _ _ _ _ => nofun) fun _ _ _ hl' _ => hl'

theorem abortPrepare_safe {settled : Bool} (hl : l ≠ some .shared) :
    Safe (Sees strict) (recordKeeping strict) Ended l (abortPrepare settled) r := by
  unfold abortPrepare
  split
  case isTrue  => exact hl
  case isFalse =>
    refine safe_andThen.mpr <| safe_andThen.mpr <| (reconcileTransactions_safe hl).mono ?_
    rintro v l' s' hl'
    cases v <;> exact hl'

theorem runClosures_safe {settled : Bool} {cs : List Closure} (h : Ready fact r)
    (hl : l ≠ some .shared) :
    Safe (Sees strict) (recordKeeping strict) Ended l (runClosures fact settled cs) r := by
  have kept (s s' : Root) : (recordKeeping strict).any s s' → Ready fact s → Ready fact s' :=
    fun ha h => h.grows ha
  induction cs generalizing r l settled with
  | nil         => exact hl
  | cons c cs ih =>
    match c with
    | .commit =>
      refine safe_andThen.mpr <| ((commitFault_safe h hl).keep kept h).mono fun v l' s' hv => ?_
      cases v
      case ok v    => exact ih hv.right hv.left
      case error e => exact hv.left
    | .abort  =>
      refine safe_andThen.mpr <| ((abortPrepare_safe hl).keep kept h).mono fun v l' s' hv => ?_
      cases v
      case ok v    => exact ih hv.right hv.left
      case error e => exact hv.left

theorem prepareFault_safe {b : Binding} :
    Safe (Sees strict) (recordKeeping strict)
      (fun v l' r' => l' ≠ some .shared ∧ ∀ fact, v = .ok fact → Ready fact r') none (prepareFault b) r :=
  calm.withLease nofun (fun _ _ => prepareLocked_records)
    (fun _ _ _ hr ha => ⟨nofun, fun _ he => by cases he; exact hr.grows ha⟩)
    fun _ _ _ hl' _ => ⟨hl', nofun⟩

theorem elsewhere_appendLocked {n : Journal} {raw : List UInt8} {fsync : Bool} :
    (appendLocked n raw fsync).Only Elsewhere := by
  refine .bind (only_ask.mpr nofun) fun _ => .bind elsewhere_expectAbsent fun _ => ?_
  refine .bind elsewhere_openForAppend fun p => .bind (.ensure ?_ <| elsewhere_os nofun) fun _ => ?_
  · exact only_wrapOs <| .bind (elsewhere_os nofun) fun _ => .bind elsewhere_writeAll fun _ =>
      .when <| elsewhere_os nofun
  · exact .when <| only_wrapOs <| elsewhere_os nofun

theorem appendEvent_safe {n : Journal} {raw : List UInt8} {fsync : Bool} :
    Safe (Sees strict) (recordKeeping strict) (fun _ _ _ => True) none (appendEvent n raw fsync) r := by
  refine safe_andThen.mpr <| calm.only (only_openJournalRoot .openRoot) fun v s _ => ?_
  cases v
  case error e => trivial
  case ok      =>
    refine calm.closing ⟨fun _ s _ => ?_, fun _ _ _ _ => ⟨trivial, fun _ => trivial⟩⟩
    refine safe_andThen.mpr <| .of_only elsewhere_appendLocked (fun _ hc _ _ _ => hc.eq)
      (calm.guar_refl _) fun v s _ => ?_
    refine safe_andThen.mpr <| calm.unlock fun u s _ => ?_
    cases u <;> exact fun _ _ => ⟨trivial, fun _ => trivial⟩

theorem task_safe (t : Task) :
    Safe (Sees strict) (recordKeeping strict) (fun _ _ _ => True) none t.program r := by
  have void {α : Type} {m : Sys α} (h : Safe (Sees strict) (recordKeeping strict) Ended none m r) :
      Safe (Sees strict) (recordKeeping strict) (fun _ _ _ => True) none (void m) r :=
    safe_andThen.mpr <| h.mono fun v _ _ _ => by cases v <;> trivial
  match t with
  | .append n event fsync       => exact appendEvent_safe
  | .actuate b cs               =>
    refine safe_andThen.mpr <| prepareFault_safe.mono fun v l' r' hv => ?_
    cases v
    case error e => trivial
    case ok fact => exact (runClosures_safe (hv.right fact rfl) hv.left).mono fun _ _ _ _ => trivial
  | .finalize tid applied k i   =>
    exact void <| calm.withLease nofun (fun _ _ => finalizeLocked_records) (fun _ _ _ _ _ => nofun)
      fun _ _ _ hl' _ => hl'
  | .recover b                  => exact void <| reconcileTransactions_safe nofun
  | .plant n raw                =>
    exact .of_only (elsewhere_os nofun) (fun _ hc _ _ _ => hc.eq) (calm.guar_refl _) fun _ _ _ => trivial

end Tasks

section Reachable

variable [Deployment]

-- The records of every reachable world are chained.
theorem chained_of_reachable {sys : (c : Call) → Disk → c.Answer → Disk → Prop}
    {w : World Call Call.Answer Error Task Disk}
    (hs : ∀ c d a d', sys c d a d' → Sees strict c d.quarantine a d'.quarantine)
    (h : Reachable sys Task.program (fun _ => True) Disk.Fresh w) (tid : Tid) :
    Chained strict w.state.quarantine.files tid := by
  have blank (r : Root) (hr : r = .empty) (tid : Tid) : Chained strict r.files tid := by
    have hn n : r.files.lookup n = none := by rw [hr]; rfl
    constructor
    all_goals simp [hn]
  have hm := h.map (π := Disk.quarantine) (J := (· = .empty)) hs fun _ hf => hf.quarantine
  exact (Sound.reachable (I := fun r => ∀ tid, Chained strict r.files tid)
    (d := recordKeeping strict) (fun _ _ hg hc => hg.chained hc) blank
    (fun t _ _ _ => task_safe t) hm).inv tid

-- What a transaction has been decided to be, by the records that are published of it.
structure Exclusive (f : Files) (tid : Tid) : Prop where
  restored_finalized : ¬(.record tid .restored ∈ f ∧ .record tid .finalized ∈ f)
  restored_blocked : ¬(.record tid .restored ∈ f ∧ .record tid .blocked ∈ f)
  finalized_applied : ∀ z, f.lookup (.record tid .finalized) = some z → ∃ v a, z = .finalized v ∧
    f.lookup (.record tid .applied) = some (.applied a) ∧
    v.appliedDigest = Deployment.ofRecord (.applied a)

theorem Chained.exclusive {f : Files} {tid : Tid} (h : Chained strict f tid) : Exclusive f tid where
  restored_finalized := by
    rintro ⟨hr, hz⟩
    obtain ⟨r, hr⟩ := Option.isSome_iff_exists.mp <| AList.lookup_isSome.mpr hr
    exact AList.lookup_eq_none.mp (h.restored r hr).left hz
  restored_blocked := by
    rintro ⟨hr, hb⟩
    obtain ⟨r, hr⟩ := Option.isSome_iff_exists.mp <| AList.lookup_isSome.mpr hr
    exact AList.lookup_eq_none.mp (h.restored r hr).right.left hb
  finalized_applied := by
    intro z hz
    obtain ⟨i, a, _, ha, hv⟩ := h.finalized z hz
    obtain ⟨_, _, s, _, _, he⟩ := h.applied a ha
    cases he
    cases z
    case finalized v =>
      simp only [validateFinalized] at hv
      split at hv
      case isTrue h => exact ⟨v, _, rfl, ha, h.right.right.left⟩
      case isFalse  => cases hv
    all_goals cases hv

-- Whatever processes run, whichever of their calls fail and wherever they are killed, a restored
-- transaction is neither finalized nor blocked, and a finalized one has been applied.
theorem decisions_exclusive {fails : Call → Disk → Prop}
    {w : World Call Call.Answer Error Task Disk}
    (h : Reachable (Call.Does fails) Task.program (fun _ => True) Disk.Fresh w) (tid : Tid) :
    Exclusive w.state.quarantine.files tid := by
  have hc : Chained False w.state.quarantine.files tid :=
    chained_of_reachable (fun _ _ _ _ hs => sees hs False.elim) h tid
  exact hc.exclusive

end Reachable

namespace Sample

-- A deployment with digests that tell the records of a transaction apart.
scoped instance : Deployment where
  sourceIdentity     := 1
  quarantineIdentity := 2
  distinct           := by decide
  ofName             := id
  ofBytes            := List.length
  ofBinding b        := b.journal
  ofRecord
    | .intent v    => 10 * v.transactionId
    | .applied v   => 10 * v.transactionId + 1
    | .finalized v => 10 * v.transactionId + 2
    | .restored v  => 10 * v.transactionId + 3
    | .blocked v   => 10 * v.transactionId + 4
    | .fence v     => 10 * v.transactionId + 5

def disk : Disk where
  source       := .empty
  quarantine   := .empty
  journals _ _ := none
  bytes _      := []
  inodes       := 0

theorem fresh : disk.Fresh :=
  ⟨rfl, rfl, fun _ => rfl, nofun, nofun⟩

def binding (journal : Journal) : Binding where
  scenario            := ""
  planId              := ""
  launchId            := ""
  controllerInstance  := ""
  invocationId        := ""
  challenge           := ""
  target              := ⟨"", "", 0, 0⟩
  entryPoint          := ⟨"", "", ""⟩
  journal             := journal
  descriptorSha256    := 0

def process : ProcessIdentity where
  pid              := 1
  startTicks       := 1
  argv             := ["a"]
  executableDevice := 1
  executableInode  := 1

-- A call fails where its bit is set.
def act (c : Call) (b : Bool) (d : Disk) : c.Answer × Disk :=
  if b then (.error .io, d) else c.perform d

theorem does (c : Call) (b : Bool) (d : Disk) :
    Call.Does (fun _ _ => True) c d (act c b d).1 (act c b d).2 := by
  cases b
  case true  => exact .fails trivial
  case false => exact .performs

-- A run in which no call of a task fails.
def smoothly (t : Task) : Task × List Bool :=
  (t, List.replicate 1000 false)

theorem reachable (ts : List (Task × List Bool)) :
    Reachable (Call.Does fun _ _ => True) Task.program (fun _ => True) Disk.Fresh
      ⟨runs act Task.program ts disk, fun _ => none⟩ :=
  .runs does (fun _ _ => trivial) (.init fresh)

-- A journal is written, taken out of service and finalized.
def finalization : List (Task × List Bool) :=
  [.append 1 [65] false, .actuate (binding 1) [.commit], .finalize 1 11 7 process].map smoothly

end Sample

open Sample in
theorem decisions_exclusive_of_finalization :
    .record 1 .finalized ∈ (runs act Task.program finalization disk).quarantine.files ∧
    Exclusive (runs act Task.program finalization disk).quarantine.files 1 :=
  ⟨by decide +kernel, decisions_exclusive (reachable finalization) 1⟩

end Quarantine
