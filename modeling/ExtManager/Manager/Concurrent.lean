import ExtManager.Manager.Dependencies
import ExtManager.Manager.Store
import ExtManager.Process.Shares

-- The commands as processes that share the file of the configuration.
namespace Manager.Shared

open Process Prog

inductive Errno
  | notFound
  | io
  deriving DecidableEq

inductive Error
  -- An `OSError`.
  | os (e : Errno)
  | load (f : LoadFailure)
  | command (f : Failure)
  -- A `UnicodeEncodeError`, or the `RecursionError` of `json.dump`.
  | encode
  deriving DecidableEq

-- What has happened outside the directory: a configuration has been loaded, a command has saved its
-- own with success, the enabled extensions have been checked for a run.
inductive Event
  | loaded (result : Except LoadFailure UserConfig)
  | saved (config : UserConfig)
  | checked (result : Except Failure Unit)

-- The directory of the configuration: its file, the files that have a temporary name, and those that
-- have been the configuration. Files are numbered as they come up. No temporary name is used twice.
structure Dir where
  target      : Option Nat
  temporaries : List Nat
  replaced    : List Nat
  content     : Nat → Bytes
  created     : Nat
  history     : List Event

inductive Call
  | exists
  | open
  | fstat (file : Nat)
  -- Reads from a place on.
  | read (file offset : Nat)
  | mkdir
  | mkstemp
  | write (file : Nat) (raw : Bytes)
  | close
  | chmod (file : Nat)
  -- `os.replace`, by the number of the temporary.
  | replace (file : Nat)
  -- Whether a temporary has its name.
  | pathExists (file : Nat)
  | unlink (file : Nat)
  | note (e : Event)

namespace Call

abbrev Value : Call → Type
  | .exists | .pathExists _ => Bool
  | .open | .mkstemp        => Nat
  | .fstat _ | .write ..    => Nat
  | .read ..                => Bytes
  | _                       => Unit

abbrev Answer (c : Call) :=
  Except Errno c.Value

end Call

namespace Dir

def append (s : Dir) (file : Nat) (raw : Bytes) : Dir :=
  { s with content := Function.update s.content file (s.content file ++ raw) }

def create (s : Dir) : Dir :=
  { s with
    temporaries := s.created :: s.temporaries
    content     := Function.update s.content s.created []
    created     := s.created + 1 }

def replace (s : Dir) (file : Nat) : Dir :=
  { s with
    target      := some file
    temporaries := s.temporaries.erase file
    replaced    := file :: s.replaced }

def unlink (s : Dir) (file : Nat) : Dir :=
  { s with temporaries := s.temporaries.erase file }

def note (s : Dir) (e : Event) : Dir :=
  { s with history := s.history ++ [e] }

end Dir

-- What a call may answer, and what becomes of the directory. Any call may fail; a write that fails
-- may have written something.
def sys : (c : Call) → Dir → c.Answer → Dir → Prop
  | .exists,       s, a, s' => s' = s ∧ ∀ b, a = .ok b → b = s.target.isSome
  | .open,         s, a, s' => s' = s ∧ ∀ file, a = .ok file → s.target = some file
  | .fstat f,      s, a, s' => s' = s ∧ ∀ size, a = .ok size → size = (s.content f).length
  | .read f o,     s, a, s' => s' = s ∧ ∀ raw, a = .ok raw → raw <+: (s.content f).drop o ∧
      (raw = [] → (s.content f).length ≤ o)
  | .mkstemp,      s, a, s' => match a with
    | .ok file => file = s.created ∧ s' = s.create
    | .error _ => s' = s
  | .write f raw,  s, a, s' => match a with
    | .ok n    => 0 < n ∧ n ≤ raw.length ∧ s' = s.append f (raw.take n)
    | .error _ => ∃ n, s' = s.append f (raw.take n)
  | .replace f,    s, a, s' => match a with
    | .ok _    => f ∈ s.temporaries ∧ s' = s.replace f
    | .error _ => s' = s
  | .pathExists f, s, a, s' => s' = s ∧ ∃ b, a = .ok b ∧ (b → f ∈ s.temporaries)
  | .unlink f,     s, a, s' => match a with
    | .ok _    => f ∈ s.temporaries ∧ s' = s.unlink f
    | .error _ => s' = s
  | .note e,       s, a, s' => a = .ok () ∧ s' = s.note e
  | .mkdir,        s, _, s' => s' = s
  | .close,        s, _, s' => s' = s
  | .chmod _,      s, _, s' => s' = s

abbrev Sys (α : Type) :=
  Prog Call Call.Answer Error α

def os (c : Call) : Sys c.Value :=
  .call c fun a => .ret (a.mapError .os)

-- `stream.read()`: the file is read until nothing more comes. It does not grow, so that one call more
-- than it has bytes is enough.
def readAll (file : Nat) : Nat → Bytes → Sys Bytes
  | 0,     raw => pure raw
  | n + 1, raw => do
    let more ← os (.read file raw.length)
    if more = [] then pure raw else readAll file n (raw ++ more)

-- What the stream writes until all of its text is in the file.
def writeAll (file : Nat) : Nat → Bytes → Sys Unit
  | 0,     _    => pure ()
  | n + 1, view =>
    if view = [] then pure ()
    else do
      let written ← os (.write file view)
      writeAll file n (view.drop written)

-- What `load_config` reads.
def readTarget : Sys (Option Bytes) := do
  if ← os .exists then do
    let file ← os .open
    let raw ← ensure (do
      let size ← os (.fstat file)
      readAll file (size + 1) []) (os .close)
    return some raw
  else return none

variable [PythonJson] [Stack]

def load : Sys UserConfig := do
  let file ← readTarget
  os (.note (.loaded (loadConfig file)))
  lift ((loadConfig file).mapError .load)

-- `save_config`
def save (config : UserConfig) : Sys Unit := do
  os .mkdir
  let temporary ← os .mkstemp
  ensure (do
    ensure (do
      let raw ← lift (match configBytes config with
        | some raw => .ok raw
        | none     => .error .encode)
      writeAll temporary raw.length raw) (os .close)
    os (.chmod temporary)
    os (.replace temporary)) do
      let found ← os (.pathExists temporary)
      when found (os (.unlink temporary))

inductive Task
  | command (c : Command)
  -- What runs with the extensions that are enabled.
  | run

variable [Packaging] (inventory : Inventory)

def program : Task → Sys Unit
  | .command c => do
    let config ← load
    let config' ← lift ((extensionCommand inventory config c).mapError .command)
    save config'
    os (.note (.saved config'))
  | .run       => do
    let config ← load
    os (.note (.checked (staticChecks inventory config)))
    lift ((staticChecks inventory config).mapError .command)

-- At first there is no configuration. Temporaries may have been left behind.
def Initial (s : Dir) : Prop :=
  s.target = none ∧ s.replaced = [] ∧ s.history = []

section Sharing

variable (allowed : Command → Prop)

-- What some commands come to that are allowed, one after the other.
def Derived (config : UserConfig) : Prop :=
  ∃ commands, (∀ c ∈ commands, allowed c) ∧ Manager.run inventory commands = config

-- What has to be so when something happens.
def Justified (s : Dir) : Event → Prop
  | .loaded result  => ∃ config, Derived inventory allowed config ∧ result = .ok config
  | .saved config   => Derived inventory allowed config.saved ∧
    ∃ file ∈ s.replaced, configBytes config = some (s.content file)
  | .checked result => result = .ok ()

-- What a call may do, by the temporary that its process is at work on before and after it.
inductive Move : Option Nat → Option Nat → Dir → Dir → Prop
  | same {r s} : Move r r s s
  | unlink {r s} (file : Nat) : Move r r s (s.unlink file)
  | create {r s} : Move r (some s.created) s s.create
  | write {file s} (raw : Bytes) : Move (some file) (some file) s (s.append file raw)
  | replace {file s config} : Derived inventory allowed config →
      configBytes config = some (s.content file) → Move (some file) none s (s.replace file)
  | note {r s e} : Justified inventory allowed s e → Move r r s (s.note e)

-- What a process that is at work on a temporary has to expect of the others: what has been the
-- configuration is not written to, and neither is the temporary.
structure Rely (r : Option Nat) (s s' : Dir) : Prop where
  created  : s.created ≤ s'.created
  replaced : s.replaced ⊆ s'.replaced
  content  : ∀ file ∈ s.replaced, s'.content file = s.content file
  free     : ∀ file, r = some file → file ∉ s.replaced → file ∉ s'.replaced
  own      : ∀ file, r = some file → s'.content file = s.content file

-- What has been the configuration is what some commands come to, and what has happened agrees with it.
structure Kept (s : Dir) : Prop where
  target  : ∀ file, s.target = some file → file ∈ s.replaced
  created : ∀ file ∈ s.replaced, file < s.created
  derived : ∀ file ∈ s.replaced,
    ∃ config, Derived inventory allowed config ∧ configBytes config = some (s.content file)
  events  : ∀ e ∈ s.history, Justified inventory allowed s e

-- A process is at work on files that have come up and have not been the configuration.
def Valid (r : Option Nat) (s : Dir) : Prop :=
  ∀ file, r = some file → file < s.created ∧ file ∉ s.replaced

variable {inventory allowed}
variable {r r' t : Option Nat} {s s' s₁ s₂ s₃ : Dir} {e : Event} {file : Nat}

theorem Justified.mono (h : Justified inventory allowed s e) (hr : s.replaced ⊆ s'.replaced)
    (hc : ∀ file ∈ s.replaced, s'.content file = s.content file) :
    Justified inventory allowed s' e := by
  cases e
  case loaded result  => exact h
  case checked result => exact h
  case saved config   =>
    obtain ⟨hd, file, hf, hb⟩ := h
    exact ⟨hd, file, hr hf, hb.trans (congrArg some (hc file hf).symm)⟩

namespace Rely

omit [PythonJson] [Stack] [Packaging]

theorem refl (r : Option Nat) (s : Dir) : Rely r s s where
  created      := Nat.le_refl _
  replaced     := fun _ h => h
  content _ _  := rfl
  free _ _ h   := h
  own _ _      := rfl

theorem trans (h : Rely r s₁ s₂) (h' : Rely r s₂ s₃) : Rely r s₁ s₃ where
  created         := Nat.le_trans h.created h'.created
  replaced        := fun _ hf => h'.replaced (h.replaced hf)
  content file hf := (h'.content file (h.replaced hf)).trans (h.content file hf)
  free file hr hf := h'.free file hr (h.free file hr hf)
  own file hr     := (h'.own file hr).trans (h.own file hr)

theorem valid (h : Rely r s s') (hv : Valid r s) : Valid r s' := by
  intro file hr
  have ⟨hlt, hne⟩ := hv file hr
  exact ⟨Nat.lt_of_lt_of_le hlt h.created, h.free file hr hne⟩

end Rely

namespace Move

theorem created_le (h : Move inventory allowed r r' s s') : s.created ≤ s'.created := by
  cases h
  case create => exact Nat.le_succ _
  all_goals exact Nat.le_refl _

theorem replaced_subset (h : Move inventory allowed r r' s s') : s.replaced ⊆ s'.replaced := by
  cases h
  case replace => exact List.subset_cons_self ..
  all_goals exact fun _ hf => hf

-- A process changes no file but one that is new and its own temporary.
theorem content_eq (h : Move inventory allowed r r' s s') (hlt : file < s.created)
    (hr : r ≠ some file) : s'.content file = s.content file := by
  cases h
  case create    => exact Function.update_of_ne (Nat.ne_of_lt hlt) ..
  case write g _ => exact Function.update_of_ne (fun he => hr (congrArg some he.symm)) ..
  all_goals rfl

-- What is new as the configuration is the temporary of its process.
theorem replaced_of (h : Move inventory allowed r r' s s') (hf : file ∈ s'.replaced) :
    file ∈ s.replaced ∨ r = some file ∧
      ∃ config, Derived inventory allowed config ∧ configBytes config = some (s'.content file) := by
  cases h
  case replace config hd hb =>
    rcases List.mem_cons.mp hf with hf | hf
    case inl =>
      cases hf
      exact .inr ⟨rfl, config, hd, hb⟩
    case inr => exact .inl hf
  all_goals exact .inl hf

theorem replaced_content (h : Move inventory allowed r r' s s') (hk : Kept inventory allowed s)
    (hv : Valid r s) (hf : file ∈ s.replaced) : s'.content file = s.content file :=
  h.content_eq (hk.created file hf) fun hr => (hv file hr).right hf

theorem target_of (h : Move inventory allowed r r' s s') (hk : Kept inventory allowed s)
    (hf : s'.target = some file) : file ∈ s'.replaced := by
  cases h
  case replace =>
    cases hf
    exact List.mem_cons_self
  all_goals exact hk.target file hf

theorem justified (h : Move inventory allowed r r' s s') (he : e ∈ s'.history) :
    e ∈ s.history ∨ Justified inventory allowed s e := by
  cases h
  case note hj =>
    rcases List.mem_append.mp he with he | he
    case inl => exact .inl he
    case inr => exact .inr (List.mem_singleton.mp he ▸ hj)
  all_goals exact .inl he

theorem kept (h : Move inventory allowed r r' s s') (hk : Kept inventory allowed s)
    (hv : Valid r s) : Kept inventory allowed s' where
  target file hf  := h.target_of hk hf
  created file hf := by
    apply Nat.lt_of_lt_of_le _ h.created_le
    rcases h.replaced_of hf with hf | ⟨hr, -⟩
    case inl => exact hk.created file hf
    case inr => exact (hv file hr).left
  derived file hf := by
    rcases h.replaced_of hf with hf | ⟨-, hd⟩
    case inl =>
      rw [h.replaced_content hk hv hf]
      exact hk.derived file hf
    case inr => exact hd
  events e he     := ((h.justified he).elim (hk.events e) id).mono h.replaced_subset
    fun _ => h.replaced_content hk hv

theorem valid (h : Move inventory allowed r r' s s') (hk : Kept inventory allowed s)
    (hv : Valid r s) : Valid r' s' := by
  cases h
  case create =>
    intro file hf
    cases hf
    exact ⟨Nat.lt_succ_self _, fun hm => Nat.lt_irrefl _ (hk.created _ hm)⟩
  case replace => exact nofun
  all_goals exact hv

-- The temporaries of two processes stay apart.
theorem apart (h : Move inventory allowed r r' s s') (ht : Valid t s)
    (ha : ∀ file, r = some file → t ≠ some file) : ∀ file, r' = some file → t ≠ some file := by
  cases h
  case create =>
    intro file hf he
    cases hf
    exact Nat.lt_irrefl _ (ht _ he).left
  case replace => exact nofun
  all_goals exact ha

theorem rely (h : Move inventory allowed r r' s s') (hk : Kept inventory allowed s) (hv : Valid r s)
    (ht : Valid t s) (ha : ∀ file, r = some file → t ≠ some file) : Rely t s s' where
  created         := h.created_le
  replaced        := h.replaced_subset
  content _ hf    := h.replaced_content hk hv hf
  free file hf hn := fun hm => (h.replaced_of hm).elim hn fun hr => ha file hr.left hf
  own file hf     := h.content_eq (ht file hf).left fun hr => ha file hr hf

end Move

variable (inventory allowed) in
def sharing : Sharing Dir (Option Nat) where
  nothing          := none
  inv              := Kept inventory allowed
  valid            := Valid
  apart r t        := ∀ file, r = some file → t ≠ some file
  guar             := Move inventory allowed
  rely             := Rely
  apart_symm h     := fun file ht hr => h file hr ht
  apart_nothing _  := nofun
  valid_nothing _  := nofun
  rely_refl        := Rely.refl
  rely_trans       := Rely.trans
  valid_rely       := Rely.valid
  inv_guar         := Move.kept
  valid_guar       := Move.valid
  others h hs hv ha ht := ⟨h.apart ht ha, h.rely hs hv ht ha⟩

end Sharing

section Gives

variable {inventory : Inventory} {allowed : Command → Prop} {α : Type} {m : Sys α}
variable {r : Option Nat} {s : Dir} {P : α → Option Nat → Dir → Prop} {e : Event}
variable {file n : Nat} {raw done view : Bytes} {config config' : UserConfig}

-- It is promised with the others, whatever they do.
abbrev Promises (inventory : Inventory) (allowed : Command → Prop) (P : α → Option Nat → Dir → Prop)
    (m : Sys α) (r : Option Nat) (s : Dir) : Prop :=
  Gives sys (sharing inventory allowed) P m r s

abbrev Lasting (inventory : Inventory) (allowed : Command → Prop) (P : Option Nat → Dir → Prop) :
    Prop :=
  Stable (sharing inventory allowed) P

theorem lasting_true : Lasting inventory allowed fun _ _ => True :=
  fun _ _ _ _ h => h

-- The bytes of a file that has been the configuration.
def Wrote (file : Nat) (raw : Bytes) (s : Dir) : Prop :=
  file ∈ s.replaced ∧ s.content file = raw

theorem lasting_wrote : Lasting inventory allowed fun _ s => Wrote file raw s :=
  fun _ _ _ hr ⟨hf, hc⟩ => ⟨hr.replaced hf, (hr.content file hf).trans hc⟩

-- The process has a temporary of its own, and this is what it has written.
def Working (file : Nat) (raw : Bytes) (r : Option Nat) (s : Dir) : Prop :=
  r = some file ∧ s.content file = raw

theorem lasting_working : Lasting inventory allowed (Working file raw) :=
  fun _ _ _ hr ⟨ho, hc⟩ => ⟨ho, (hr.own file ho).trans hc⟩

theorem gives_os {c : Call} {R : c.Value → Option Nat → Dir → Prop}
    (hR : ∀ v, Lasting inventory allowed (R v))
    (h : Kept inventory allowed s → ∀ a s', sys c s a s' →
      ∃ r', Move inventory allowed r r' s s' ∧ ∀ v, a = .ok v → R v r' s') :
    Promises inventory allowed R (os c) r s := by
  intro hk _ a s' hs
  have ⟨r', hm, hv⟩ := h hk a s' hs
  refine ⟨r', hm, fun s'' hr => ?_⟩
  cases a with
  | ok v    =>
    intro v' he
    cases he
    exact hR v r' s' s'' hr (hv v rfl)
  | error e => exact nofun

-- A call that leaves the directory alone.
theorem gives_quiet {c : Call} {P : Option Nat → Dir → Prop} (hP : Lasting inventory allowed P)
    (hc : ∀ a s', sys c s a s' → s' = s) (hs : P r s) :
    Promises inventory allowed (fun _ => P) (os c) r s := by
  apply gives_os (fun _ => hP)
  intro _ a s' h
  cases hc a s' h
  exact ⟨r, .same, fun _ _ => hs⟩

theorem gives_closing (hP : ∀ a, Lasting inventory allowed (P a))
    (h : Promises inventory allowed P m r s) :
    Promises inventory allowed P (m.ensure (os .close)) r s :=
  h.ensure (fun a _ _ hs => gives_quiet (hP a) (fun _ _ h => h) hs)
    fun _ _ => gives_quiet lasting_true (fun _ _ h => h) trivial

theorem gives_note {P : Option Nat → Dir → Prop} (hP : Lasting inventory allowed P)
    (hn : ∀ s, P r s → P r (s.note e)) (hs : P r s)
    (hj : Kept inventory allowed s → Justified inventory allowed s e) :
    Promises inventory allowed (fun _ => P) (os (.note e)) r s := by
  apply gives_os (fun _ => hP)
  intro hk a s' ha
  cases ha.right
  exact ⟨r, .note (hj hk), fun _ _ => hn s hs⟩

section Read

-- Nobody writes to the file, so that all of it is read.
theorem gives_readAll {content : Bytes} (hw : Wrote file content s) (hp : raw <+: content)
    (hn : content.length < n + raw.length) :
    Promises inventory allowed (fun out _ s => Wrote file out s) (readAll file n raw) r s := by
  induction n generalizing raw r s with
  | zero      => exact absurd hp.length_le (by omega)
  | succ n ih =>
    refine .bind (R := fun more _ s => Wrote file content s ∧ raw ++ more <+: content ∧
      (more = [] → raw = content)) (gives_os ?_ ?_) fun more r s ⟨hw, hp, hend⟩ => ?_
    · intro more r s s' hr ⟨hw, hmore⟩
      exact ⟨lasting_wrote r s s' hr hw, hmore⟩
    · intro _ a s' ha
      cases ha.left
      refine ⟨r, .same, fun more hm => ?_⟩
      obtain ⟨hpre, hend⟩ := ha.right more hm
      rw [hw.right] at hpre hend
      refine ⟨hw, ?_, fun he => hp.eq_of_length (Nat.le_antisymm hp.length_le (hend he))⟩
      obtain ⟨rest, hrest⟩ := hp
      rw [← hrest, List.drop_left] at hpre
      exact hrest ▸ (List.prefix_append_right_inj raw).mpr hpre
    · split
      case isTrue he  =>
        apply Gives.pure
        rw [hend he]
        exact hw
      case isFalse he =>
        have hpos := List.length_pos_iff.mpr he
        apply ih hw hp
        rw [List.length_append]
        omega

theorem gives_readTarget :
    Promises inventory allowed (fun o _ s => ∀ raw, o = some raw → ∃ file, Wrote file raw s)
      readTarget r s := by
  refine .bind (R := fun _ _ _ => True) (gives_quiet lasting_true (fun _ _ h => h.left) trivial)
    fun found r s _ => ?_
  cases found with
  | false => exact .pure nofun
  | true  =>
    refine .bind (R := fun file _ s => ∃ raw, Wrote file raw s) (gives_os ?_ ?_)
      fun file r s ⟨content, hw⟩ => ?_
    · intro file r s s' hr ⟨raw, hw⟩
      exact ⟨raw, lasting_wrote r s s' hr hw⟩
    · intro hk a s' ha
      cases ha.left
      refine ⟨r, .same, fun file hf => ?_⟩
      exact ⟨_, hk.target file (ha.right file hf), rfl⟩
    · have hread : Promises inventory allowed (fun out _ s => Wrote file out s) (do
          let size ← os (.fstat file)
          readAll file (size + 1) []) r s := by
        refine .bind (R := fun size _ s => Wrote file content s ∧ size = content.length)
          (gives_os ?_ ?_) fun size r s ⟨hw, hsize⟩ => ?_
        · intro size r s s' hr ⟨hw, hsize⟩
          exact ⟨lasting_wrote r s s' hr hw, hsize⟩
        · intro _ a s' ha
          cases ha.left
          refine ⟨r, .same, fun size hsize => ⟨hw, ?_⟩⟩
          rw [ha.right size hsize, hw.right]
        · apply gives_readAll hw List.nil_prefix
          rw [hsize]
          exact Nat.lt_succ_self _
      refine .bind (gives_closing (fun _ => lasting_wrote) hread) fun raw r s hw => ?_
      apply Gives.pure
      intro raw' he
      cases he
      exact ⟨file, hw⟩

end Read

section Derived

omit [Stack] in
theorem Derived.step {command : Command} (h : Derived inventory allowed config) (hc : allowed command) :
    Derived inventory allowed (next inventory config command) := by
  obtain ⟨commands, ha, rfl⟩ := h
  refine ⟨commands ++ [command], ?_, ?_⟩
  · exact List.forall_mem_append.mpr ⟨ha, List.forall_mem_singleton.mpr hc⟩
  · rw [Manager.run, List.foldl_append]
    rfl

omit [Stack] in
theorem Derived.empty : Derived inventory allowed .empty :=
  ⟨[], nofun, rfl⟩

-- What holds of no configuration and is kept by the commands.
omit [Stack] in
theorem Derived.holds (Q : UserConfig → Prop) (h : Derived inventory allowed config)
    (he : Q .empty) (hn : ∀ c config, allowed c → Q config → Q (next inventory config c)) :
    Q config := by
  obtain ⟨commands, ha, rfl⟩ := h
  rw [Manager.run]
  generalize UserConfig.empty = start at he
  induction commands generalizing start with
  | nil                    => exact he
  | cons command rest ih   =>
    have ⟨hc, ha⟩ := List.forall_mem_cons.mp ha
    exact ih ha _ (hn command start hc he)

theorem Derived.storable [LawfulStack] (h : Derived inventory allowed config)
    (hs : ∀ c, allowed c → c.Storable) : Storable config :=
  h.holds Storable storable_empty fun c _ hc h => h.next (hs c hc)

omit [Stack] in
theorem Derived.saved (h : Derived inventory allowed config) : config.saved = config := by
  apply h.holds (fun config => config.saved = config) rfl
  intro c config _ hsaved
  rw [next]
  split
  case h_1 => exact saved_saved
  case h_2 => exact hsaved

omit [Stack] in
theorem Derived.sound (h : Derived inventory allowed config) :
    Manager.Sound inventory {x | x ∈ config.enabled} :=
  h.holds (fun config => Manager.Sound inventory {x | x ∈ config.enabled}) empty_sound
    fun _ _ _ h => next_sound h

omit [Stack] in
theorem Derived.checked (h : Derived inventory allowed config) :
    staticChecks inventory config = .ok () := by
  have ⟨bundles, hd, hdeps, howners, hblocked, hresources⟩ := (sound_iff UserConfig.nodup_enabled).mp h.sound
  exact Fallible.bind_ok.mpr ⟨bundles, hd, Fallible.bind_ok.mpr ⟨(), hdeps, Fallible.bind_ok.mpr
    ⟨(), howners, Fallible.bind_ok.mpr ⟨(), hblocked, hresources⟩⟩⟩⟩

-- Who reads what has been the configuration loads it.
theorem Derived.load [LawfulFloat] [LawfulStack] (h : Derived inventory allowed config)
    (hs : ∀ c, allowed c → c.Storable) (hb : configBytes config = some raw) :
    loadConfig (some raw) = .ok config := by
  obtain ⟨raw', hb', hl⟩ := exists_configBytes (h.storable hs)
  cases hb.symm.trans hb'
  exact hl.trans (congrArg Except.ok h.saved)

end Derived

section Load

variable [LawfulFloat] [LawfulStack]

theorem gives_load (hs : ∀ c, allowed c → c.Storable) :
    Promises inventory allowed (fun config _ _ => Derived inventory allowed config) load r s := by
  refine .bind gives_readTarget fun o r s ho => ?_
  have hresult (hk : Kept inventory allowed s) :
      ∃ config, Derived inventory allowed config ∧ loadConfig o = .ok config := by
    cases o with
    | none     => exact ⟨.empty, .empty, rfl⟩
    | some raw =>
      obtain ⟨file, hf, hc⟩ := ho raw rfl
      obtain ⟨config, hd, hb⟩ := hk.derived file hf
      exact ⟨config, hd, hd.load hs (hc ▸ hb)⟩
  refine .bind (R := fun _ _ _ => ∃ config, Derived inventory allowed config ∧
    loadConfig o = .ok config) (gives_os (fun _ _ _ _ _ h => h) ?_) fun _ r s ⟨config, hd, hl⟩ => ?_
  · intro hk a s' ha
    cases ha.right
    exact ⟨r, .note (hresult hk), fun _ _ => hresult hk⟩
  · apply Gives.lift
    intro config' he
    rw [hl] at he
    cases he
    exact hd

end Load

section Save

-- Round by round the rest gets shorter, and all of it comes behind what has been written.
theorem gives_writeAll (hw : Working file done r s) (hn : view.length ≤ n) :
    Promises inventory allowed (fun _ => Working file (done ++ view)) (writeAll file n view) r s := by
  have happend (more : Bytes) : Working file (done ++ more) r (s.append file more) := by
    refine ⟨hw.left, (Function.update_self ..).trans ?_⟩
    rw [hw.right]
  induction n generalizing view done r s with
  | zero      =>
    cases List.length_eq_zero_iff.mp (Nat.le_zero.mp hn)
    apply Gives.pure
    rw [List.append_nil]
    exact hw
  | succ n ih =>
    rw [writeAll]
    split
    case isTrue he =>
      apply Gives.pure
      rw [he, List.append_nil]
      exact hw
    case isFalse he =>
      refine .bind (R := fun written r s => 0 < written ∧ Working file (done ++ view.take written) r s)
        (gives_os (fun _ _ _ _ hr h => ⟨h.left, lasting_working _ _ _ hr h.right⟩) ?_)
        fun (written : Nat) r s ⟨hpos, hwritten⟩ => ?_
      · intro _ a s' ha
        cases a with
        | ok written =>
          obtain ⟨hpos, -, hs⟩ := ha
          cases hs
          refine ⟨r, hw.left ▸ .write _, fun v hv => ?_⟩
          cases hv
          exact ⟨hpos, happend _⟩
        | error e    =>
          obtain ⟨k, hk⟩ := ha
          cases hk
          exact ⟨r, hw.left ▸ .write _, nofun⟩
      · have hlen : (view.drop written).length ≤ n := by
          rw [List.length_drop]
          omega
        have hall := ih hwritten hlen fun more => by
          refine ⟨hwritten.left, (Function.update_self ..).trans ?_⟩
          rw [hwritten.right]
        rw [List.append_assoc, List.take_append_drop] at hall
        exact hall

theorem gives_unlink {P : Option Nat → Dir → Prop} (hP : Lasting inventory allowed P)
    (hu : ∀ s, P r s → P r (s.unlink file)) (hs : P r s) :
    Promises inventory allowed (fun _ => P) (os (.unlink file)) r s := by
  apply gives_os (fun _ => hP)
  intro _ a s' ha
  cases a with
  | ok v    =>
    cases ha.right
    exact ⟨r, .unlink file, fun _ _ => hu s hs⟩
  | error e =>
    cases ha
    exact ⟨r, .same, nofun⟩

-- What is left of the temporary is removed.
theorem gives_discard {P : Option Nat → Dir → Prop} (hP : Lasting inventory allowed P)
    (hu : ∀ r s, P r s → P r (s.unlink file)) (hs : P r s) :
    Promises inventory allowed (fun _ => P) (do
      let found ← os (.pathExists file)
      when found (os (.unlink file))) r s := by
  refine .bind (gives_quiet hP (fun _ _ h => h.left) hs) fun found r s hs => ?_
  rw [Prog.when]
  split
  case isTrue  => exact gives_unlink hP (hu r) hs
  case isFalse => exact .pure hs

-- A new file that is empty, as the temporary of the process.
theorem gives_mkstemp :
    Promises inventory allowed (fun temporary => Working temporary []) (os .mkstemp) r s := by
  apply gives_os fun _ => lasting_working
  intro _ a s' ha
  cases a with
  | ok file =>
    obtain ⟨hf, hs⟩ := ha
    cases hf
    cases hs
    refine ⟨some s.created, .create, fun v hv => ?_⟩
    cases hv
    exact ⟨rfl, Function.update_self s.created _ _⟩
  | error e =>
    cases ha
    exact ⟨r, .same, nofun⟩

-- A file that has been the configuration is saved for good.
theorem lasting_saved (file : Nat) : Lasting inventory allowed fun _ s =>
    file ∈ s.replaced ∧ configBytes config' = some (s.content file) := by
  intro r s s' hr ⟨hf, hb⟩
  exact ⟨hr.replaced hf, hb.trans (congrArg some (hr.content file hf).symm)⟩

-- The temporary becomes the configuration.
theorem gives_replace (hd : Derived inventory allowed config'.saved)
    (hb : configBytes config' = some raw) (hw : Working file raw r s) :
    Promises inventory allowed
      (fun _ _ s => file ∈ s.replaced ∧ configBytes config' = some (s.content file))
      (os (.replace file)) r s := by
  apply gives_os fun _ => lasting_saved file
  intro _ a s' ha
  cases a with
  | ok v    =>
    cases ha.right
    have hb' : configBytes config'.saved = some (s.content file) := by
      rw [configBytes_saved, hb, hw.right]
    refine ⟨none, hw.left ▸ .replace hd hb', fun _ _ => ⟨List.mem_cons_self, ?_⟩⟩
    rw [hb, ← hw.right]
    rfl
  | error e =>
    cases ha
    exact ⟨r, .same, nofun⟩

-- All of the text stands in the temporary.
theorem gives_written (hw : Working file [] r s) :
    Promises inventory allowed
      (fun _ r s => ∃ raw, configBytes config' = some raw ∧ Working file raw r s)
      (ensure (do
        let raw ← lift (match configBytes config' with
          | some raw => .ok raw
          | none     => .error .encode)
        writeAll file raw.length raw) (os .close)) r s := by
  refine gives_closing ?lasting ?written
  case lasting =>
    intro _ r s s' hr ⟨raw, hb, hw⟩
    exact ⟨raw, hb, lasting_working r s s' hr hw⟩
  case written =>
    refine .bind (R := fun raw r s => configBytes config' = some raw ∧ Working file [] r s)
      (.lift fun raw he => ?_) fun raw r s ⟨hb, hw⟩ => ?_
    · split at he
      case h_1 raw' hb =>
        cases he
        exact ⟨hb, hw⟩
      case h_2 => cases he
    · exact (gives_writeAll hw (Nat.le_refl _)).mono fun _ r s hw => ⟨raw, hb, hw⟩

attribute [local irreducible] Gives in
theorem gives_save (hd : Derived inventory allowed config'.saved) :
    Promises inventory allowed
      (fun _ _ s => ∃ file ∈ s.replaced, configBytes config' = some (s.content file))
      (save config') r s := by
  refine .bind (m := os .mkdir) (gives_quiet lasting_true (fun _ _ h => h) trivial) fun _ r s _ => ?_
  refine .bind gives_mkstemp fun temporary r s hw => ?_
  refine Gives.mono (P := fun _ _ s =>
    temporary ∈ s.replaced ∧ configBytes config' = some (s.content temporary)) ?_
      fun _ r s h => ⟨temporary, h⟩
  apply Gives.ensure
  · refine .bind (gives_written hw) fun _ r s ⟨raw, hb, hw⟩ => ?_
    refine .bind (m := os (.chmod temporary)) (gives_quiet lasting_working (fun _ _ h => h) hw)
      fun _ r s hw => ?_
    exact gives_replace hd hb hw
  · exact fun _ r s h => gives_discard (lasting_saved temporary) (fun _ _ h => h) h
  · exact fun r s => gives_discard lasting_true (fun _ _ h => h) trivial

end Save

variable [LawfulFloat] [LawfulStack]

def Task.Allowed (allowed : Command → Prop) : Task → Prop
  | .command c => allowed c
  | .run       => True

theorem gives_program (hs : ∀ c, allowed c → c.Storable) (t : Task) (ht : t.Allowed allowed) :
    Promises inventory allowed (fun _ _ _ => True) (program inventory t) r s := by
  cases t with
  | command c =>
    refine .bind (gives_load hs) fun config r s hd => ?_
    refine .bind (R := fun config' _ _ => extensionCommand inventory config c = .ok config')
      (.lift fun config' he => Fallible.mapError_ok.mp he) fun config' r s he => ?_
    have hsaved : Derived inventory allowed config'.saved := by
      have hnext := hd.step ht
      rw [next, he] at hnext
      exact hnext
    refine .bind (gives_save hsaved) fun _ r s hf => ?_
    exact gives_note lasting_true (fun _ h => h) trivial fun _ => ⟨hsaved, hf⟩
  | run       =>
    refine .bind (gives_load hs) fun config r s hd => ?_
    refine .bind (gives_note lasting_true (fun _ h => h) trivial fun _ => hd.checked) fun _ _ _ _ => ?_
    exact .lift fun _ _ => trivial

end Gives

section Runs

variable {inventory : Inventory} {allowed : Command → Prop}
variable {w : World Call Call.Answer Error Task Dir}

-- The runs of any number of commands, where any call may fail and any process may be killed.
abbrev Run (inventory : Inventory) (allowed : Command → Prop)
    (w : World Call Call.Answer Error Task Dir) : Prop :=
  Reachable sys (program inventory) (·.Allowed allowed) Initial w

end Runs

end Manager.Shared

namespace Manager.Shared.Sample

open Process Manager.Stored

scoped instance : Packaging :=
  Manager.Sample.instPackaging

-- The second one requires the first one.
def inventory : Inventory where
  find? name :=
    if name = "a".points then some (Manager.Sample.bundle "a".points [])
    else if name = "b".points then some (Manager.Sample.bundle "b".points [⟨"a".points, ">=1".points⟩])
    else none
  bundleId name b h := by
    split at h
    case isTrue he =>
      cases h
      exact he.symm
    case isFalse =>
      split at h
      case isTrue he =>
        cases h
        exact he.symm
      case isFalse => cases h

def fresh : Dir where
  target      := none
  temporaries := []
  replaced    := []
  content _   := []
  created     := 0
  history     := []

-- Only a call that is to fail does so, and a call reads and writes all that it is asked for.
def act : (c : Call) → Bool → Dir → c.Answer × Dir
  | .note e,       _,     s => (.ok (), s.note e)
  | .pathExists f, _,     s => (.ok (f ∈ s.temporaries), s)
  | _,             true,  s => (.error .io, s)
  | .exists,       false, s => (.ok s.target.isSome, s)
  | .open,         false, s => (s.target.elim (.error .notFound) .ok, s)
  | .fstat f,      false, s => (.ok (s.content f).length, s)
  | .read f o,     false, s => (.ok ((s.content f).drop o), s)
  | .mkdir,        false, s => (.ok (), s)
  | .mkstemp,      false, s => (.ok s.created, s.create)
  | .write f raw,  false, s => if raw = [] then (.error .io, s) else (.ok raw.length, s.append f raw)
  | .close,        false, s => (.ok (), s)
  | .chmod _,      false, s => (.ok (), s)
  | .replace f,    false, s =>
    if f ∈ s.temporaries then (.ok (), s.replace f) else (.error .notFound, s)
  | .unlink f,     false, s =>
    if f ∈ s.temporaries then (.ok (), s.unlink f) else (.error .notFound, s)

theorem does (c : Call) (b : Bool) (s : Dir) : sys c s (act c b s).1 (act c b s).2 := by
  cases c <;> cases b
  case note.false | note.true => exact ⟨rfl, rfl⟩
  case pathExists.false | pathExists.true => exact ⟨rfl, _, rfl, of_decide_eq_true⟩
  case exists.false =>
    refine ⟨rfl, fun b hb => ?_⟩
    cases hb
    rfl
  case open.false =>
    refine ⟨rfl, fun file hf => ?_⟩
    cases ht : s.target <;> simp_all [act]
  case fstat.false =>
    refine ⟨rfl, fun size hs => ?_⟩
    cases hs
    rfl
  case read.false f o =>
    refine ⟨rfl, fun raw hr => ?_⟩
    cases hr
    exact ⟨List.prefix_refl _, List.drop_eq_nil_iff.mp⟩
  case mkstemp.false => exact ⟨rfl, rfl⟩
  case write.false f raw =>
    by_cases hr : raw = []
    case pos => simp [act, hr, sys, Dir.append]
    case neg => simp [act, hr, sys, List.length_pos_iff]
  case write.true f raw => exact ⟨0, by simp [act, Dir.append]⟩
  case replace.false f | unlink.false f =>
    by_cases hf : f ∈ s.temporaries <;> simp [act, hf, sys]
  case exists.true | open.true | fstat.true | read.true => exact ⟨rfl, nofun⟩
  all_goals exact rfl

-- What is allowed is to configure the first one, and to enable and disable both.
def allowed : Command → Prop
  | .enable bundleId | .disable bundleId => bundleId = "a".points ∨ bundleId = "b".points
  | .configure bundleId file => bundleId = "a".points ∧ file = some (.obj configuration)
  | .forget _ => False

-- The second one is too early. Whoever disables the first one is killed before the file is replaced.
def tasks : List (Task × List Bool) :=
  [(.command (.configure "a".points (some (.obj configuration))), List.replicate 40 false),
    (.command (.enable "b".points), List.replicate 40 false),
    (.command (.enable "a".points), List.replicate 40 false),
    (.command (.disable "a".points), List.replicate 11 false),
    (.command (.enable "b".points), List.replicate 40 false),
    (.run, List.replicate 40 false)]

def last : Dir :=
  runs act (program inventory) tasks fresh

def loads : List UserConfig :=
  last.history.filterMap fun
    | .loaded (.ok config) => some config
    | _                    => none

end Manager.Shared.Sample
