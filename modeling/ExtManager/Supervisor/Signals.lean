import ExtManager.Supervisor.Basic

namespace Supervisor

namespace Phase

def result? : Phase → Option Result
  | .finish r | .finishKill r | .finishWait r | .restore r _ | .ended r => some r
  | _ => none

def Failing (p : Phase) : Prop :=
  ∃ f, p.result? = some (.error f)

def Succeeds (p : Phase) : Prop :=
  ∃ code, p.result? = some (.ok code)

-- Where the command has been reaped, and what it has left behind is dealt with.
def reaped? : Phase → Option Int
  | .deadline rc | .survivors rc _ | .terminate rc _ | .poll rc _ | .late rc _ => some rc
  | .killSurvivors rc | .decide rc => some rc
  | _ => none

-- Where nothing has been launched.
def fresh : Phase → Bool
  | .begin | .install _ | .popen => true
  | _ => false

-- Where signals are forwarded as they come.
def waits : Phase → Bool
  | .wait _ | .check _ | .escalate | .deadline _ | .survivors .. | .terminate .. | .poll .. => true
  | .late .. | .killSurvivors _ | .decide _ => true
  | .finish r | .finishKill r | .finishWait r | .restore r _ | .ended r => r.isOk
  | _ => false

def deadline? : Phase → Option Int
  | .survivors _ d | .terminate _ d | .poll _ d | .late _ d => some d
  | _ => none

theorem unwound_eq (p : Phase) :
    p.unwound = .finish (.error .permission) ∨ p.unwound = .ended (.error .permission) := by
  cases p
  case finish | finishKill | finishWait | restore | ended => exact .inr rfl
  all_goals exact .inl rfl

theorem failing_unwound (p : Phase) : p.unwound.Failing := by
  rcases p.unwound_eq with hp | hp <;> exact ⟨_, congrArg result? hp⟩

end Phase

namespace State

variable (grace : Int) (s : State)

-- The first signal has been sent to the group, or more than that.
def Told : Prop :=
  ∃ signum t, (signum, t) ∈ s.sent ∧ (signum = .kill ∨ s.received.head? = some signum)

-- What the handler is to send is as much.
def Owes (f : Frame) : Prop :=
  match f.pc with
  | .start _ | .test => 1 < s.received.length ∨ s.received.head? = some f.signum
  | .send signum     => signum = .kill ∨ s.received.head? = some signum
  | _                => False

-- The grace period has passed since the first signal, or since the command has been reaped.
def Overdue (t : Int) : Prop :=
  (∃ t₀, s.started.head? = some t₀ ∧ t₀ + grace ≤ t) ∨ ∃ t₀, s.reapedAt = some t₀ ∧ t₀ + grace ≤ t

-- What is returned: the number of the first signal, unless there was none before the command has been
-- reaped.
def Returns (code : Int) : Prop :=
  ∃ rc, s.child = .reaped rc ∧ ((∃ signum, s.received.head? = some signum ∧ code = 128 + signum.number) ∨
    code = rc ∧ ∃ t₀, s.reapedAt = some t₀ ∧ ∀ t, s.started.head? = some t → t₀ ≤ t)

end State

variable {grace : Int} {s s' : State} {e : Effect} {p p' : Phase} {f g : Frame} {fs : List Frame}

section Apply

@[simp] theorem apply_stack : (s.apply e).stack = s.stack := by cases e <;> rfl

@[simp] theorem apply_received : (s.apply e).received = s.received := by cases e <;> rfl

@[simp] theorem apply_started : (s.apply e).started = s.started := by cases e <;> rfl

@[simp] theorem apply_now : (s.apply e).now = s.now := by cases e <;> rfl

theorem sent_subset_apply : s.sent ⊆ (s.apply e).sent := by
  cases e
  case send => exact List.subset_append_left ..
  all_goals exact fun _ h => h

theorem mem_sent_apply {signum : Sig} {t : Int} (h : (signum, t) ∈ (s.apply e).sent) :
    (signum, t) ∈ s.sent ∨ e = .send signum ∧ t = s.now := by
  cases e
  case send =>
    rcases List.mem_append.mp h with h | h
    case inl => exact .inl h
    case inr =>
      cases List.mem_singleton.mp h
      exact .inr ⟨rfl, rfl⟩
  all_goals exact .inl h

theorem assigned_apply (h : s.assigned) : (s.apply e).assigned := by
  cases e
  case assign => rfl
  all_goals exact h

-- `SIGKILL` either reaches a member or passes him over.
theorem Member.fate_kill (m : Member) : m.kill.fate ≠ .untouched := by
  unfold Member.kill
  by_cases hk : m.fate = .killed
  case pos => simp [hk]
  case neg => cases ha : m.allowed <;> simp [hk]

-- Nobody comes into the group by what the supervisor does.
theorem mem_group_apply {m : Member} (h : m ∈ (s.apply e).group) :
    m ∈ s.group ∨ m.fate ≠ .untouched := by
  cases e
  case send signum =>
    by_cases hk : signum = .kill
    case pos =>
      simp only [State.apply, hk, if_true] at h
      obtain ⟨m, _, rfl⟩ := List.mem_map.mp h
      exact .inr m.fate_kill
    case neg =>
      simp only [State.apply, hk, if_false] at h
      exact .inl h
  all_goals exact .inl h

end Apply

section Forward

-- A handler leaves alone what is not its own.
theorem forward_eq : (s.forward f fs).phase = s.phase ∧ (s.forward f fs).assigned = s.assigned ∧
    (s.forward f fs).child = s.child ∧ (s.forward f fs).reapedAt = s.reapedAt ∧
    (s.forward f fs).now = s.now ∧ (s.forward f fs).handlers = s.handlers := by
  obtain ⟨signum, pc⟩ := f
  cases pc
  case test =>
    rw [State.forward]
    dsimp only
    split <;> exact ⟨rfl, rfl, rfl, rfl, rfl, rfl⟩
  all_goals exact ⟨rfl, rfl, rfl, rfl, rfl, rfl⟩

@[simp] theorem forward_phase : (s.forward f fs).phase = s.phase := forward_eq.1

@[simp] theorem forward_assigned : (s.forward f fs).assigned = s.assigned := forward_eq.2.1

@[simp] theorem forward_child : (s.forward f fs).child = s.child := forward_eq.2.2.1

@[simp] theorem forward_reapedAt : (s.forward f fs).reapedAt = s.reapedAt := forward_eq.2.2.2.1

@[simp] theorem forward_now : (s.forward f fs).now = s.now := forward_eq.2.2.2.2.1

@[simp] theorem forward_handlers : (s.forward f fs).handlers = s.handlers := forward_eq.2.2.2.2.2

theorem head?_forward {signum : Sig} (h : s.received.head? = some signum) :
    (s.forward f fs).received.head? = some signum := by
  obtain ⟨signum', pc⟩ := f
  cases pc
  case append =>
    rw [State.forward]
    dsimp only
    rw [List.head?_append, h]
    rfl
  case test   =>
    rw [State.forward]
    dsimp only
    split <;> exact h
  all_goals exact h

theorem head?_started_mono {t : Int} (h : s.started.head? = some t) :
    (s.forward f fs).started.head? = some t := by
  obtain ⟨signum, pc⟩ := f
  cases pc
  case start first =>
    rw [State.forward]
    dsimp only
    split
    case isTrue  =>
      rw [List.head?_append, h]
      rfl
    case isFalse => exact h
  case test        =>
    rw [State.forward]
    dsimp only
    split <;> exact h
  all_goals exact h

theorem head?_started_forward {t : Int} (h : (s.forward f fs).started.head? = some t) :
    s.started.head? = some t ∨ s.started = [] ∧ t = s.now := by
  obtain ⟨signum, pc⟩ := f
  cases pc
  case start first =>
    rw [State.forward] at h
    dsimp only at h
    split at h
    case isTrue  =>
      cases hl : s.started with
      | nil      =>
        rw [hl] at h
        exact .inr ⟨rfl, (Option.some.inj h).symm⟩
      | cons _ _ =>
        rw [hl] at h
        exact .inl h
    case isFalse => exact .inl h
  case test        =>
    rw [State.forward] at h
    dsimp only at h
    split at h <;> exact .inl h
  all_goals exact .inl h

theorem mem_group_forward {m : Member} (h : m ∈ (s.forward f fs).group) :
    m ∈ s.group ∨ m.fate ≠ .untouched := by
  obtain ⟨signum, pc⟩ := f
  cases pc
  case send => exact mem_group_apply h
  case test =>
    rw [State.forward] at h
    dsimp only at h
    split at h <;> exact .inl h
  all_goals exact .inl h

end Forward

namespace Next

theorem failing (h : Next grace s p e p') (hf : p.Failing) : p'.Failing := by
  obtain ⟨f, hf⟩ := hf
  cases h <;> first | exact ⟨f, hf⟩ | cases hf

-- What waits has waited before, or has just been launched.
theorem waits (h : Next grace s p e p') (hw : p'.waits) : p.waits ∨
    p = .early ∧ s.received = [] ∨ ∃ signum, p = .earlySend signum ∧ e = .send signum := by
  cases h
  case quiet hr  => exact .inr (.inl ⟨rfl, hr⟩)
  case earlySend => exact .inr (.inr ⟨_, rfl, rfl⟩)
  all_goals first | exact .inl rfl | exact .inl hw

theorem head_received {signum : Sig} (h : Next grace s p e p') (hp : p' = .earlySend signum) :
    s.received.head? = some signum := by
  cases hp
  cases h with | early hr =>
  exact hr

-- `child` is set once there is a command.
theorem assigned (h : Next grace s p e p') (hw : p'.waits ∨ p' = .early ∨ ∃ signum, p' = .earlySend signum) :
    (p.waits ∨ p = .early ∨ ∃ signum, p = .earlySend signum) ∨ e = .assign := by
  cases h
  case assign    => exact .inr rfl
  case quiet     => exact .inl (.inr (.inl rfl))
  case early     => exact .inl (.inr (.inl rfl))
  case earlySend => exact .inl (.inr (.inr ⟨_, rfl⟩))
  all_goals first | exact .inl (.inl rfl) | skip
  all_goals
    rcases hw with hw | hw | ⟨_, hw⟩
    · exact .inl (.inl hw)
    · cases hw
    · cases hw

-- The command is reaped once, after it has exited.
theorem reap {rc : Int} (h : Next grace s p (.reap rc) p') : s.child = .exited rc := by
  cases h <;> assumption

theorem reaped {rc : Int} (h : Next grace s p e p') (hp : p'.reaped? = some rc) :
    p.reaped? = some rc ∧ (s.apply e).child = s.child ∧ (s.apply e).reapedAt = s.reapedAt ∨
      e = .reap rc := by
  cases h
  case exited =>
    cases hp
    exact .inr rfl
  all_goals first | exact .inl ⟨hp, rfl, rfl⟩ | cases hp

-- Before it is decided what is returned, the group is found empty or killed.
theorem cleared (h : Next grace s p e p') (hp : (∃ rc, p' = .decide rc) ∨ p'.Succeeds) :
    (∃ rc, p = .decide rc) ∨ p.Succeeds ∨ s.Gone ∧ e = .none ∨ e = .send .kill := by
  cases h
  case alone hg | gone hg        => exact .inr (.inr (.inl ⟨hg, rfl⟩))
  case killSurvivors             => exact .inr (.inr (.inr rfl))
  case interrupted | completed   => exact .inl ⟨_, rfl⟩
  all_goals
    rcases hp with ⟨_, hp⟩ | ⟨code, hp⟩
    · cases hp
    · first | exact .inr (.inl ⟨code, hp⟩) | cases hp

theorem returns {code : Int} (h : Next grace s p e p') (hp : p'.result? = some (.ok code)) :
    p.result? = some (.ok code) ∨ ∃ rc, p = .decide rc ∧ e = .none ∧
      ((∃ signum, s.received.head? = some signum ∧ code = 128 + signum.number) ∨
        s.received = [] ∧ code = rc) := by
  cases h
  case interrupted hr =>
    cases hp
    exact .inr ⟨_, rfl, rfl, .inl ⟨_, hr, rfl⟩⟩
  case completed hr   =>
    cases hp
    exact .inr ⟨_, rfl, rfl, .inr ⟨hr, rfl⟩⟩
  all_goals first | exact .inl hp | cases hp

theorem fresh (h : Next grace s p e p') (hp : p'.fresh) :
    p.fresh ∧ (s.apply e).child = s.child ∧ (s.apply e).assigned = s.assigned := by
  cases h <;> first | exact ⟨rfl, rfl, rfl⟩ | cases hp

-- What has been reaped is neither launched nor reaped once more.
theorem apply_eq {rc : Int} (h : Next grace s p e p') (hp : p.fresh = false)
    (hc : s.child = .reaped rc) :
    (s.apply e).child = s.child ∧ (s.apply e).reapedAt = s.reapedAt := by
  cases e
  case spawn =>
    cases h
    cases hp
  case reap  => cases hc.symm.trans h.reap
  all_goals exact ⟨rfl, rfl⟩

theorem killing {r : Result} (h : Next grace s p e p') (hp : p' = .finishKill r) :
    p = .finish r ∧ s.child = .running := by
  cases hp
  cases h with | unfinished _ hc =>
  exact ⟨rfl, hc⟩

-- Whoever goes on towards a deadline has it from before, or sets it.
theorem towards {d : Int} (h : Next grace s p e p') (hp : p'.deadline? = some d) :
    p.deadline? = some d ∨ e = .none ∧ ∃ rc, p = .deadline rc ∧
      (d = s.now + grace ∨ ∃ t, s.started.head? = some t ∧ d = t + grace) := by
  cases h
  case deadline =>
    cases hp
    exact .inr ⟨rfl, _, rfl, .inl rfl⟩
  case signalled t _ ht =>
    cases hp
    exact .inr ⟨rfl, _, rfl, .inr ⟨t, ht, rfl⟩⟩
  all_goals first | exact .inl hp | cases hp

theorem due (h : Next grace s p e p') (hp : p' = .escalate ∨ ∃ rc, p' = .killSurvivors rc) :
    e = .none ∧ ((∃ t, s.started.head? = some t ∧ t + grace ≤ s.now) ∨
      ∃ d, p.deadline? = some d ∧ d ≤ s.now) := by
  cases h
  case overdue t _ ht hle => exact ⟨rfl, .inl ⟨t, ht, by omega⟩⟩
  case expired d hle      => exact ⟨rfl, .inr ⟨d, rfl, hle⟩⟩
  all_goals rcases hp with hp | ⟨_, hp⟩ <;> cases hp

theorem kills (h : Next grace s p (.send .kill) p') :
    (p = .escalate ∨ ∃ rc, p = .killSurvivors rc) ∨ p = .earlySend .kill ∨ ∃ r, p = .finishKill r := by
  cases h
  case escalate      => exact .inl (.inl rfl)
  case killSurvivors => exact .inl (.inr ⟨_, rfl⟩)
  case earlySend     => exact .inr (.inl rfl)
  case finishKill    => exact .inr (.inr ⟨_, rfl⟩)

theorem handle {signum : Sig} (h : Next grace s p (.handle signum) p') :
    ∃ todo, p = .install (signum :: todo) := by
  cases h
  exact ⟨_, rfl⟩

theorem installs {todo : List Sig} (h : Next grace s p e p') (hp : p' = .install todo) :
    todo = managedSignals ∨ ∃ signum, p = .install (signum :: todo) := by
  cases h
  case valid   =>
    cases hp
    exact .inl rfl
  case install =>
    cases hp
    exact .inr ⟨_, rfl⟩
  all_goals cases hp

theorem restoring {r : Result} {todo : List Sig} (h : Next grace s p e p') (hp : p' = .restore r todo) :
    todo = managedSignals ∧ (∀ signum, e ≠ .handle signum) ∨
      ∃ signum, p = .restore r (signum :: todo) ∧ e = .restore signum := by
  cases h
  case restore =>
    cases hp
    exact .inr ⟨_, rfl, rfl⟩
  case unlaunched | polled | done | finishWait =>
    cases hp
    exact .inl ⟨rfl, nofun⟩
  all_goals cases hp

theorem ended {r : Result} (h : Next grace s p e p') (hp : p' = .ended r) :
    e = .none ∧ (p = .restore r [] ∨ p = .begin ∧ r = .error .value) := by
  cases h
  case invalid  =>
    cases hp
    exact ⟨rfl, .inr ⟨rfl, rfl⟩⟩
  case restored =>
    cases hp
    exact ⟨rfl, .inl rfl⟩
  all_goals cases hp

theorem fails {f : Failure} (h : Next grace s p e p') (hp : p'.result? = some (.error f)) :
    p.result? = some (.error f) ∨ p.fresh ∧ f ≠ .index ∧ e = .none ∨
      ¬p.Failing ∧ s.received ≠ [] ∧ s.started = [] := by
  cases h
  case invalid | notStarted =>
    cases hp
    exact .inr (.inl ⟨rfl, nofun, rfl⟩)
  case unstarted hr hs | undated hr hs =>
    refine .inr (.inr ⟨?_, hr, hs⟩)
    rintro ⟨_, he⟩
    cases he
  all_goals first | exact .inl hp | cases hp

-- In the end nothing is launched.
theorem unlaunched_of_result {r : Result} (h : Next grace s p e p') (hp : p.result? = some r)
    (hc : s.child = .none) : (s.apply e).child = .none ∧ (s.apply e).assigned = s.assigned := by
  cases e
  case spawn | assign =>
    cases h
    cases hp
  case reap rc => cases hc.symm.trans h.reap
  all_goals exact ⟨hc, rfl⟩

end Next

-- A first signal has its time, or gets it from the handler that is at work on it.
structure Dated (s : State) : Prop where
  received : ∀ f ∈ s.stack, f.pc = .append false ∨ (∃ first, f.pc = .start first) → s.received ≠ []
  quiet    : s.received = [] → s.started = []
  started  : ¬s.phase.Failing → s.received ≠ [] →
    s.started ≠ [] ∨ ∃ f ∈ s.stack, f.pc = .start true

namespace Dated

-- Nothing but a handler changes what has been received.
theorem of_eq (h : Dated s) (hstack : s'.stack = s.stack) (hreceived : s'.received = s.received)
    (hstarted : s'.started = s.started) (hp : s.phase.Failing → s'.phase.Failing) : Dated s' := by
  constructor
  · rw [hstack, hreceived]
    exact h.received
  · rw [hreceived, hstarted]
    exact h.quiet
  · rw [hstack, hreceived, hstarted]
    exact fun hf => h.started fun hf' => hf (hp hf')

-- What is at work behind a handler that is not about to date the first signal.
theorem rest (h : Dated s) (hs : s.stack = f :: fs) (hf : f.pc ≠ .start true)
    (hp : ¬s.phase.Failing) (hr : s.received ≠ []) :
    s.started ≠ [] ∨ ∃ g ∈ fs, g.pc = .start true := by
  refine (h.started hp hr).imp_right ?_
  rintro ⟨g, hg, he⟩
  rw [hs] at hg
  rcases List.mem_cons.mp hg with rfl | hg
  case inl => exact absurd he hf
  case inr => exact ⟨g, hg, he⟩

theorem forward (h : Dated s) (hs : s.stack = f :: fs) : Dated (s.forward f fs) := by
  obtain ⟨signum, pc⟩ := f
  have hreceived : ∀ g ∈ fs, g.pc = .append false ∨ (∃ first, g.pc = .start first) → s.received ≠ [] :=
    fun g hg => h.received g (hs ▸ List.mem_cons_of_mem _ hg)
  have hcons {f' : Frame} (hr : s.started ≠ [] ∨ ∃ g ∈ fs, g.pc = .start true) :
      s.started ≠ [] ∨ ∃ g ∈ f' :: fs, g.pc = .start true :=
    hr.imp_right fun ⟨g, hg, he⟩ => ⟨g, List.mem_cons_of_mem _ hg, he⟩
  have hne : s.received ++ [signum] ≠ [] := List.append_ne_nil_of_right_ne_nil _ (List.cons_ne_nil _ _)
  cases pc with
  | enter =>
    refine ⟨List.forall_mem_cons.mpr ⟨?_, hreceived⟩, h.quiet, fun hp hr => hcons (h.rest hs nofun hp hr)⟩
    rintro (he | ⟨first, he⟩)
    · exact of_decide_eq_false (Pc.append.inj he)
    · cases he
  | append first =>
    refine ⟨fun _ _ _ => hne, fun hr => absurd hr hne, fun hp _ => ?_⟩
    cases first with
    | true  => exact .inr ⟨_, List.mem_cons_self, rfl⟩
    | false =>
      have hr : s.received ≠ [] := h.received _ (hs ▸ List.mem_cons_self) (.inl rfl)
      exact hcons (h.rest hs nofun hp hr)
  | start first =>
    have hr : s.received ≠ [] := h.received _ (hs ▸ List.mem_cons_self) (.inr ⟨first, rfl⟩)
    refine ⟨List.forall_mem_cons.mpr ⟨?_, hreceived⟩, fun hnil => absurd hnil hr, fun hp _ => ?_⟩
    · rintro (he | ⟨_, he⟩) <;> cases he
    cases first with
    | true  => exact .inl (List.append_ne_nil_of_right_ne_nil _ (List.cons_ne_nil _ _))
    | false => exact hcons (h.rest hs nofun hp hr)
  | test =>
    rw [State.forward]
    dsimp only
    split
    case isTrue  =>
      refine ⟨List.forall_mem_cons.mpr ⟨?_, hreceived⟩, h.quiet,
        fun hp hr => hcons (h.rest hs nofun hp hr)⟩
      rintro (he | ⟨_, he⟩) <;> cases he
    case isFalse => exact ⟨hreceived, h.quiet, h.rest hs nofun⟩
  | send signum => exact ⟨hreceived, h.quiet, h.rest hs nofun⟩

theorem step (h : Dated s) (hstep : Step grace s s') : Dated s' := by
  cases hstep with
  | main hs hn        => exact h.of_eq apply_stack apply_received apply_started hn.failing
  | handler hs        => exact h.forward hs
  | refused hs hp     => exact h.of_eq rfl rfl rfl fun _ => Phase.failing_unwound _
  | refusedHandler hs =>
    exact ⟨nofun, h.quiet, fun hp => absurd (Phase.failing_unwound _) hp⟩
  | signal hm         =>
    refine ⟨List.forall_mem_cons.mpr ⟨?_, h.received⟩, h.quiet, fun hp hr => ?_⟩
    · rintro (he | ⟨_, he⟩) <;> cases he
    · exact (h.started hp hr).imp_right fun ⟨g, hg, he⟩ => ⟨g, List.mem_cons_of_mem _ hg, he⟩
  | tick | exit | group => exact h.of_eq rfl rfl rfl id

end Dated

-- A signal that has come is sent on, or there is a handler at work that is to send it.
structure Forwarded (s : State) : Prop where
  assigned : s.phase.waits ∨ s.phase = .early ∨ (∃ signum, s.phase = .earlySend signum) → s.assigned
  early    : ∀ signum, s.phase = .earlySend signum → s.received.head? = some signum
  told     : s.phase.waits → s.received ≠ [] → s.Told ∨ ∃ f ∈ s.stack, s.Owes f

namespace Forwarded

theorem told_apply (h : s.Told) : (s.apply e).Told := by
  obtain ⟨signum, t, hm, hs⟩ := h
  refine ⟨signum, t, sent_subset_apply hm, ?_⟩
  rw [apply_received]
  exact hs

-- A frame owes no less when more has been received.
theorem owes_append {signum : Sig} {stack : List Frame} (h : s.Owes f) :
    { s with received := s.received ++ [signum], stack }.Owes f := by
  have hhead {signum' : Sig} (hr : s.received.head? = some signum') :
      (s.received ++ [signum]).head? = some signum' := by
    rw [List.head?_append, hr]
    rfl
  have hlength (hl : 1 < s.received.length) : 1 < (s.received ++ [signum]).length := by
    rw [List.length_append]
    omega
  obtain ⟨signum', pc⟩ := f
  cases pc with
  | enter | append => exact h
  | start | test   => exact h.imp hlength hhead
  | send           => exact h.imp_right hhead

theorem main (h : Forwarded s) (hs : s.stack = []) (hn : Next grace s s.phase e p) :
    Forwarded { s.apply e with phase := p } where
  assigned hp := by
    rcases hn.assigned hp with hp | he
    case inl => exact assigned_apply (h.assigned hp)
    case inr =>
      cases he
      rfl
  early signum hp := (congrArg List.head? apply_received).trans (hn.head_received hp)
  told hw hr := by
    rcases hn.waits hw with hw | ⟨-, hnil⟩ | ⟨signum, hp, he⟩
    case inl =>
      rcases h.told hw (apply_received ▸ hr) with ht | ⟨f, hf, -⟩
      case inl => exact .inl (told_apply ht)
      case inr => exact absurd hf (hs ▸ List.not_mem_nil)
    case inr.inl => exact absurd (apply_received.trans hnil) hr
    case inr.inr =>
      cases he
      exact .inl ⟨signum, s.now, List.mem_append_right _ (List.mem_singleton_self _),
        .inr (h.early signum hp)⟩

theorem told_forward (h : Forwarded s) (hs : s.stack = f :: fs) (hw : s.phase.waits)
    (hr : (s.forward f fs).received ≠ []) :
    (s.forward f fs).Told ∨ ∃ g ∈ (s.forward f fs).stack, (s.forward f fs).Owes g := by
  -- What has been told or is owed behind the handler stays so.
  have hbehind (hr : s.received ≠ []) : s.Told ∨ s.Owes f ∨ ∃ g ∈ fs, s.Owes g := by
    refine (h.told hw hr).imp_right ?_
    rintro ⟨g, hg, ho⟩
    rw [hs] at hg
    rcases List.mem_cons.mp hg with rfl | hg
    case inl => exact .inl ho
    case inr => exact .inr ⟨g, hg, ho⟩
  have hassigned := h.assigned (.inl hw)
  obtain ⟨signum, pc⟩ := f
  cases pc with
  | enter =>
    rcases hbehind hr with ht | ho | ⟨g, hg, ho⟩
    · exact .inl ht
    · exact ho.elim
    · exact .inr ⟨g, List.mem_cons_of_mem _ hg, ho⟩
  | append first =>
    by_cases hnil : s.received = []
    case pos =>
      refine .inr ⟨_, List.mem_cons_self, .inr ?_⟩
      rw [State.forward, hnil]
      rfl
    case neg =>
      rcases hbehind hnil with ⟨signum', t, hm, hs⟩ | ho | ⟨g, hg, ho⟩
      · refine .inl ⟨signum', t, hm, hs.imp_right fun hh => ?_⟩
        rw [State.forward]
        dsimp only
        rw [List.head?_append, hh]
        rfl
      · exact ho.elim
      · exact .inr ⟨g, List.mem_cons_of_mem _ hg, owes_append ho⟩
  | start first =>
    rcases hbehind hr with ht | ho | ⟨g, hg, ho⟩
    · exact .inl ht
    · exact .inr ⟨_, List.mem_cons_self, ho⟩
    · exact .inr ⟨g, List.mem_cons_of_mem _ hg, ho⟩
  | test =>
    rw [State.forward] at hr ⊢
    rw [if_pos hassigned] at hr ⊢
    rcases hbehind hr with ht | ho | ⟨g, hg, ho⟩
    · exact .inl ht
    · refine .inr ⟨_, List.mem_cons_self, ?_⟩
      rw [State.Owes]
      dsimp only
      split
      case isTrue     => exact .inl rfl
      case isFalse hl => exact .inr (ho.resolve_left hl)
    · exact .inr ⟨g, List.mem_cons_of_mem _ hg, ho⟩
  | send forwarded =>
    rcases hbehind hr with ht | ho | ⟨g, hg, ho⟩
    · exact .inl (told_apply ht)
    · exact .inl ⟨forwarded, s.now, List.mem_append_right _ (List.mem_singleton_self _), ho⟩
    · exact .inr ⟨g, hg, ho⟩

-- What has failed forwards nothing.
theorem unwound {stack : List Frame} : Forwarded { s with stack, phase := s.phase.unwound } := by
  rcases s.phase.unwound_eq with hp | hp <;> rw [hp]
  all_goals
    refine ⟨fun hw => ?_, nofun, nofun⟩
    rcases hw with hw | hw | ⟨_, hw⟩ <;> cases hw

theorem step (h : Forwarded s) (hstep : Step grace s s') : Forwarded s' := by
  cases hstep with
  | main hs hn             => exact h.main hs hn
  | handler hs             =>
    constructor
    · rw [forward_phase, forward_assigned]
      exact h.assigned
    · rw [forward_phase]
      exact fun signum hp => head?_forward (h.early signum hp)
    · rw [forward_phase]
      exact h.told_forward hs
  | refused                => exact .unwound
  | refusedHandler         => exact .unwound
  | signal hm              =>
    refine ⟨h.assigned, h.early, fun hw hr => (h.told hw hr).imp_right ?_⟩
    exact fun ⟨g, hg, ho⟩ => ⟨g, List.mem_cons_of_mem _ hg, ho⟩
  | tick | exit | group => exact ⟨h.assigned, h.early, h.told⟩

end Forwarded

end Supervisor
