import ExtManager.Supervisor.Signals

namespace Supervisor

variable {grace : Int} {s s' : State} {e : Effect} {p p' : Phase} {f : Frame} {fs : List Frame}

-- What is known of the command, and of its group.
structure Settled (s : State) : Prop where
  fresh   : s.phase.fresh → s.child = .none ∧ s.assigned = false
  clock   : ∀ t, s.reapedAt = some t → t ≤ s.now
  once    : ∀ t, s.reapedAt = some t → ∃ rc, s.child = .reaped rc
  reaped  : ∀ rc, s.phase.reaped? = some rc → s.child = .reaped rc ∧ ∃ t, s.reapedAt = some t
  cleared : (∃ rc, s.phase = .decide rc) ∨ s.phase.Succeeds → ∀ m ∈ s.group, m.fate ≠ .untouched
  returns : ∀ code, s.phase.result? = some (.ok code) → s.Returns code
  killing : ∀ code, s.phase ≠ .finishKill (.ok code)

namespace Settled

-- What has been cleared has been reaped.
theorem reaped_of_cleared (h : Settled s) (hp : (∃ rc, s.phase = .decide rc) ∨ s.phase.Succeeds) :
    ∃ rc, s.child = .reaped rc := by
  rcases hp with ⟨rc, hp⟩ | ⟨code, hp⟩
  case inl => exact ⟨rc, (h.reaped rc (congrArg Phase.reaped? hp)).left⟩
  case inr =>
    obtain ⟨rc, hc, -⟩ := h.returns code hp
    exact ⟨rc, hc⟩

theorem main (h : Settled s) (hd : Dated s) (hn : Next grace s s.phase e p) :
    Settled { s.apply e with phase := p } where
  fresh hp      := by
    obtain ⟨hp, hc, ha⟩ := hn.fresh hp
    obtain ⟨hchild, hassigned⟩ := h.fresh hp
    exact ⟨hc.trans hchild, ha.trans hassigned⟩
  clock t ht    := by
    cases e
    case reap =>
      cases ht
      exact Int.le_refl _
    all_goals exact h.clock t ht
  once t ht     := by
    cases e
    case reap rc => exact ⟨rc, rfl⟩
    case spawn   =>
      obtain ⟨rc, hc⟩ := h.once t ht
      have hp : s.phase.fresh := by
        generalize s.phase = q at hn
        cases hn
        rfl
      cases (h.fresh hp).left.symm.trans hc
    all_goals exact h.once t ht
  reaped rc hp  := by
    rcases hn.reaped hp with ⟨hp, hc, ht⟩ | he
    case inl =>
      obtain ⟨hchild, t, hreaped⟩ := h.reaped rc hp
      exact ⟨hc.trans hchild, t, ht.trans hreaped⟩
    case inr =>
      cases he
      exact ⟨rfl, _, rfl⟩
  cleared hp    := by
    intro m hm
    rcases hn.cleared hp with hp | hp | ⟨hg, he⟩ | he
    · exact (mem_group_apply hm).elim (h.cleared (.inl hp) m) id
    · exact (mem_group_apply hm).elim (h.cleared (.inr hp) m) id
    · cases he
      exact absurd (hg.left ▸ hm) List.not_mem_nil
    · cases he
      obtain ⟨m, _, rfl⟩ := List.mem_map.mp hm
      exact m.fate_kill
  returns code hp := by
    rcases hn.returns hp with hp | ⟨rc, hp, he, hr⟩
    case inl =>
      obtain ⟨rc, hc, hr⟩ := h.returns code hp
      have hfresh : s.phase.fresh = false := by
        cases hq : s.phase <;> rw [hq] at hp <;> first | rfl | cases hp
      obtain ⟨hchild, ht⟩ := hn.apply_eq hfresh hc
      refine ⟨rc, hchild.trans hc, ?_⟩
      dsimp only
      rw [ht, apply_received, apply_started]
      exact hr
    case inr =>
      obtain ⟨hc, t₀, ht⟩ := h.reaped rc (congrArg Phase.reaped? hp)
      cases he
      refine ⟨rc, hc, hr.imp_right fun ⟨hnil, hcode⟩ => ⟨hcode, t₀, ht, fun t hs => ?_⟩⟩
      have hnone : s.started = [] := hd.quiet hnil
      cases (congrArg List.head? hnone).symm.trans hs
  killing code hp := by
    obtain ⟨hp, hc⟩ := hn.killing hp
    obtain ⟨rc, hr, -⟩ := h.returns code (congrArg Phase.result? hp)
    cases hc.symm.trans hr

theorem forward (h : Settled s) : Settled (s.forward f fs) := by
  constructor
  · rw [forward_phase, forward_child, forward_assigned]
    exact h.fresh
  · rw [forward_reapedAt, forward_now]
    exact h.clock
  · rw [forward_reapedAt, forward_child]
    exact h.once
  · rw [forward_phase, forward_child, forward_reapedAt]
    exact h.reaped
  · rw [forward_phase]
    exact fun hp m hm => (mem_group_forward hm).elim (h.cleared hp m) id
  · intro code hp
    rw [forward_phase] at hp
    obtain ⟨rc, hc, hr⟩ := h.returns code hp
    rw [State.Returns, forward_child, forward_reapedAt]
    refine ⟨rc, hc, hr.imp ?_ ?_⟩
    · exact fun ⟨signum, hs, hcode⟩ => ⟨signum, head?_forward hs, hcode⟩
    · rintro ⟨hcode, t₀, ht, hall⟩
      refine ⟨hcode, t₀, ht, fun t hs => ?_⟩
      rcases head?_started_forward hs with hs | ⟨-, rfl⟩
      · exact hall t hs
      · exact h.clock t₀ ht
  · rw [forward_phase]
    exact h.killing

-- What has failed is not decided any more.
theorem unwound {stack : List Frame} (h : Settled s) :
    Settled { s with stack, phase := s.phase.unwound } := by
  have hnone : (∃ rc, s.phase.unwound = .decide rc) ∨ s.phase.unwound.Succeeds → False := by
    rcases s.phase.unwound_eq with hp | hp <;> rw [hp]
    all_goals rintro (⟨_, hp⟩ | ⟨_, hp⟩) <;> cases hp
  rcases s.phase.unwound_eq with hp | hp <;> rw [hp] at hnone ⊢
  all_goals exact ⟨nofun, h.clock, h.once, nofun, fun hc => (hnone hc).elim, nofun, nofun⟩

-- Once it has been cleared, nobody whom `SIGKILL` has not met comes into the group.
theorem group {group : List Member} (h : Settled s) (hp : (∃ rc, s.phase = .decide rc) ∨ s.phase.Succeeds)
    (hg : Moves s group) : ∀ m ∈ group, m.fate ≠ .untouched := by
  have hcleared := h.cleared hp
  cases hg with
  | launched hc =>
    obtain ⟨rc, hr⟩ := h.reaped_of_cleared hp
    cases hc.symm.trans hr
  | forked hm   => exact List.forall_mem_cons.mpr ⟨hcleared _ hm, hcleared⟩
  | left hm     => exact fun m hm => hcleared m (List.mem_of_mem_erase hm)
  | changed hm  =>
    have hfate := hcleared _ hm
    exact List.forall_mem_cons.mpr ⟨hfate, fun m hm => hcleared m (List.mem_of_mem_erase hm)⟩
  | joined      => exact List.forall_mem_cons.mpr ⟨nofun, hcleared⟩

theorem step (h : Settled s) (hd : Dated s) (hstep : Step grace s s') : Settled s' := by
  cases hstep with
  | main hs hn        => exact h.main hd hn
  | handler hs        => exact h.forward
  | refused           => exact h.unwound
  | refusedHandler    => exact h.unwound
  | signal            => exact ⟨h.fresh, h.clock, h.once, h.reaped, h.cleared, h.returns, h.killing⟩
  | tick ht           =>
    refine ⟨h.fresh, fun t hr => ?_, h.once, h.reaped, h.cleared, h.returns, h.killing⟩
    exact Int.le_trans (h.clock t hr) ht
  | exit rc hc        =>
    have hnot (rc : Int) (hr : s.child = .reaped rc) : False := by cases hc.symm.trans hr
    refine ⟨fun hp => ?_, h.clock, fun t ht => ?_, fun rc hp => ?_, h.cleared, fun code hp => ?_, h.killing⟩
    · cases hc.symm.trans (h.fresh hp).left
    · exact ((h.once t ht).elim hnot).elim
    · exact (hnot rc (h.reaped rc hp).left).elim
    · obtain ⟨rc, hr, -⟩ := h.returns code hp
      exact (hnot rc hr).elim
  | group hg          =>
    refine ⟨h.fresh, h.clock, h.once, h.reaped, fun hp => ?_, h.returns, h.killing⟩
    exact h.group hp hg

end Settled

-- The handlers are in place until they are restored.
structure Restored (s : State) : Prop where
  handlers : s.handlers ⊆ managedSignals
  begin    : s.phase = .begin → s.handlers = []
  install  : ∀ todo, s.phase = .install todo → todo ⊆ managedSignals
  restore  : ∀ r todo, s.phase = .restore r todo → s.handlers ⊆ todo
  ended    : ∀ r, s.phase = .ended r → r = .error .permission ∨ s.handlers = []
  failed   : ∀ f, s.phase.result? = some (.error f) →
    f = .permission ∨ f ≠ .index ∧ s.assigned = false ∧ s.child = .none

namespace Restored

theorem main (h : Restored s) (hs : Settled s) (hd : Dated s) (hempty : s.stack = [])
    (hn : Next grace s s.phase e p) : Restored { s.apply e with phase := p } where
  handlers       := by
    cases e
    case handle signum  =>
      obtain ⟨todo, hp⟩ := hn.handle
      exact List.cons_subset.mpr ⟨h.install _ hp List.mem_cons_self, h.handlers⟩
    case restore signum => exact fun _ hm => h.handlers (List.mem_of_mem_filter hm)
    all_goals exact h.handlers
  begin hp       := by
    have hp : p = .begin := hp
    cases hp
    generalize s.phase = q at hn
    cases hn
  install todo hp := by
    rcases hn.installs hp with rfl | ⟨signum, hp⟩
    · exact List.Subset.refl _
    · exact fun _ hm => h.install _ hp (List.mem_cons_of_mem _ hm)
  restore r todo hp := by
    rcases hn.restoring hp with ⟨rfl, he⟩ | ⟨signum, hq, he⟩
    · cases e
      case handle signum  => exact absurd rfl (he signum)
      case restore signum => exact fun _ hm => h.handlers (List.mem_of_mem_filter hm)
      all_goals exact h.handlers
    · cases he
      intro signum' hm
      obtain ⟨hm, hne⟩ := List.mem_filter.mp hm
      exact (List.mem_cons.mp (h.restore _ _ hq hm)).resolve_left (of_decide_eq_true hne)
  ended r hp     := by
    obtain ⟨he, hq | ⟨hq, hr⟩⟩ := hn.ended hp
    · cases he
      exact .inr (List.subset_nil.mp (h.restore _ _ hq))
    · cases he
      exact .inr (h.begin hq)
  failed f hp    := by
    rcases hn.fails hp with hq | ⟨hq, hf, he⟩ | ⟨hq, hr, hnil⟩
    · refine (h.failed f hq).imp_right fun ⟨hf, ha, hc⟩ => ?_
      obtain ⟨hchild, hassigned⟩ := hn.unlaunched_of_result hq hc
      exact ⟨hf, hassigned.trans ha, hchild⟩
    · cases he
      obtain ⟨hc, ha⟩ := hs.fresh hq
      exact .inr ⟨hf, ha, hc⟩
    · rcases hd.started hq hr with hs | ⟨f, hm, -⟩
      · exact absurd hnil hs
      · exact absurd (hempty ▸ hm) List.not_mem_nil

theorem forward (h : Restored s) : Restored (s.forward f fs) := by
  constructor
  · rw [forward_handlers]
    exact h.handlers
  · rw [forward_phase, forward_handlers]
    exact h.begin
  · rw [forward_phase]
    exact h.install
  · rw [forward_phase, forward_handlers]
    exact h.restore
  · rw [forward_phase, forward_handlers]
    exact h.ended
  · rw [forward_phase, forward_assigned, forward_child]
    exact h.failed

theorem unwound {stack : List Frame} (h : Restored s) :
    Restored { s with stack, phase := s.phase.unwound } := by
  rcases s.phase.unwound_eq with hp | hp <;> rw [hp]
  all_goals
    refine ⟨h.handlers, nofun, nofun, nofun, fun r hr => ?_, fun f hf => ?_⟩
    · cases hr <;> exact .inl rfl
    · cases hf
      exact .inl rfl

theorem step (h : Restored s) (hs : Settled s) (hd : Dated s) (hstep : Step grace s s') :
    Restored s' := by
  cases hstep with
  | main hempty hn => exact h.main hs hd hempty hn
  | handler        => exact h.forward
  | refused        => exact h.unwound
  | refusedHandler => exact h.unwound
  | signal         => exact ⟨h.handlers, h.begin, h.install, h.restore, h.ended, h.failed⟩
  | tick           => exact ⟨h.handlers, h.begin, h.install, h.restore, h.ended, h.failed⟩
  | exit rc hc     =>
    refine ⟨h.handlers, h.begin, h.install, h.restore, h.ended, fun f hf => ?_⟩
    refine (h.failed f hf).imp_right fun hfail => ?_
    cases hc.symm.trans hfail.right.right
  | group          => exact ⟨h.handlers, h.begin, h.install, h.restore, h.ended, h.failed⟩

end Restored

-- Nothing is killed before its time.
structure Due (grace : Int) (s : State) : Prop where
  deadline : ∀ d, s.phase.deadline? = some d → s.Overdue grace d
  due      : s.phase = .escalate ∨ (∃ rc, s.phase = .killSurvivors rc) → s.Overdue grace s.now
  frames   : ∀ f ∈ s.stack, f.signum ≠ .kill ∧ (f.pc = .send .kill → 1 < s.received.length)
  received : .kill ∉ s.received
  kills    : ∀ t, (.kill, t) ∈ s.sent → 1 < s.received.length ∨ s.Overdue grace t ∨ s.phase.Failing

namespace Due

theorem overdue_mono {t t' : Int} (h : s.Overdue grace t) (hle : t ≤ t') : s.Overdue grace t' := by
  rcases h with ⟨t₀, hs, ht⟩ | ⟨t₀, hr, ht⟩
  · exact .inl ⟨t₀, hs, Int.le_trans ht hle⟩
  · exact .inr ⟨t₀, hr, Int.le_trans ht hle⟩

theorem overdue_apply {t : Int} (h : s.Overdue grace t) (hs : Settled s)
    (hn : Next grace s s.phase e p) : { s.apply e with phase := p }.Overdue grace t := by
  rcases h with ⟨t₀, ht₀, hle⟩ | ⟨t₀, ht₀, hle⟩
  · exact .inl ⟨t₀, (congrArg List.head? apply_started).trans ht₀, hle⟩
  · obtain ⟨rc, hc⟩ := hs.once t₀ ht₀
    have hfresh : s.phase.fresh = false := by
      rw [← Bool.not_eq_true]
      intro hf
      cases (hs.fresh hf).left.symm.trans hc
    exact .inr ⟨t₀, (hn.apply_eq hfresh hc).right.trans ht₀, hle⟩

theorem main (h : Due grace s) (hs : Settled s) (hf : Forwarded s) (hempty : s.stack = [])
    (hn : Next grace s s.phase e p) : Due grace { s.apply e with phase := p } where
  deadline d hp := by
    rcases hn.towards hp with hq | ⟨he, rc, hq, hd⟩
    case inl => exact overdue_apply (h.deadline d hq) hs hn
    case inr =>
      cases he
      obtain ⟨-, t₀, ht₀⟩ := hs.reaped rc (congrArg Phase.reaped? hq)
      rcases hd with rfl | ⟨t, ht, rfl⟩
      · exact .inr ⟨t₀, ht₀, Int.add_le_add_right (hs.clock t₀ ht₀) grace⟩
      · exact .inl ⟨t, ht, Int.le_refl _⟩
  due hp        := by
    obtain ⟨he, hd⟩ := hn.due hp
    cases he
    rcases hd with hd | ⟨d, hd, hle⟩
    · exact .inl hd
    · exact overdue_mono (h.deadline d hd) hle
  frames f hm   := by
    have hm : f ∈ s.stack := apply_stack (e := e) ▸ hm
    rw [hempty] at hm
    cases hm
  received      := by
    dsimp only
    rw [apply_received]
    exact h.received
  kills t hm    := by
    dsimp only
    rw [apply_received]
    rcases mem_sent_apply hm with hm | ⟨he, rfl⟩
    case inl =>
      rcases h.kills t hm with hk | hk | hk
      · exact .inl hk
      · exact .inr (.inl (overdue_apply hk hs hn))
      · exact .inr (.inr (hn.failing hk))
    case inr =>
      cases he
      rcases hn.kills with hp | hp | ⟨r, hp⟩
      · exact .inr (.inl (overdue_apply (h.due hp) hs hn))
      · exact absurd (List.mem_of_mem_head? (hf.early _ hp)) h.received
      · refine .inr (.inr (hn.failing ?_))
        cases r with
        | ok code => exact absurd hp (hs.killing code)
        | error f => exact ⟨f, congrArg Phase.result? hp⟩

theorem overdue_forward {t : Int} (h : s.Overdue grace t) : (s.forward f fs).Overdue grace t := by
  rcases h with ⟨t₀, ht₀, hle⟩ | ⟨t₀, ht₀, hle⟩
  · exact .inl ⟨t₀, head?_started_mono ht₀, hle⟩
  · exact .inr ⟨t₀, forward_reapedAt.trans ht₀, hle⟩

-- A handler sends `SIGKILL` when another signal has come before.
theorem forward (h : Due grace s) (hs : s.stack = f :: fs) : Due grace (s.forward f fs) := by
  have hdeadline : ∀ d, (s.forward f fs).phase.deadline? = some d → (s.forward f fs).Overdue grace d := by
    rw [forward_phase]
    exact fun d hd => overdue_forward (h.deadline d hd)
  have hdue : (s.forward f fs).phase = .escalate ∨ (∃ rc, (s.forward f fs).phase = .killSurvivors rc) →
      (s.forward f fs).Overdue grace (s.forward f fs).now := by
    rw [forward_phase, forward_now]
    exact fun hp => overdue_forward (h.due hp)
  have hkills {t : Int} (hm : (.kill, t) ∈ s.sent) : 1 < s.received.length ∨
      (s.forward f fs).Overdue grace t ∨ (s.forward f fs).phase.Failing := by
    rw [forward_phase]
    exact (h.kills t hm).imp_right (·.imp_left overdue_forward)
  have hfs : ∀ g ∈ fs, g.signum ≠ .kill ∧ (g.pc = .send .kill → 1 < s.received.length) :=
    fun g hg => h.frames g (hs ▸ List.mem_cons_of_mem _ hg)
  obtain ⟨hsignum, hsend⟩ := h.frames f (hs ▸ List.mem_cons_self)
  obtain ⟨signum, pc⟩ := f
  cases pc with
  | enter          =>
    exact ⟨hdeadline, hdue, List.forall_mem_cons.mpr ⟨⟨hsignum, nofun⟩, hfs⟩, h.received, fun _ => hkills⟩
  | start first    =>
    exact ⟨hdeadline, hdue, List.forall_mem_cons.mpr ⟨⟨hsignum, nofun⟩, hfs⟩, h.received, fun _ => hkills⟩
  | append first   =>
    have hlength (hl : 1 < s.received.length) : 1 < (s.received ++ [signum]).length := by
      rw [List.length_append]
      omega
    refine ⟨hdeadline, hdue, List.forall_mem_cons.mpr ⟨⟨hsignum, nofun⟩, ?_⟩, ?_, ?_⟩
    · exact fun g hg => ⟨(hfs g hg).left, fun hp => hlength ((hfs g hg).right hp)⟩
    · intro hm
      rcases List.mem_append.mp hm with hm | hm
      · exact h.received hm
      · exact hsignum (List.mem_singleton.mp hm).symm
    · exact fun t hm => (hkills hm).imp_left hlength
  | test           =>
    by_cases ha : s.assigned
    case pos =>
      have he : s.forward ⟨signum, .test⟩ fs = { s with
          stack := ⟨signum, .send (if 1 < s.received.length then .kill else signum)⟩ :: fs } := if_pos ha
      rw [he] at hdeadline hdue hkills ⊢
      refine ⟨hdeadline, hdue, List.forall_mem_cons.mpr ⟨⟨hsignum, fun hp => ?_⟩, hfs⟩, h.received,
        fun _ => hkills⟩
      by_contra hl
      exact hsignum ((if_neg hl).symm.trans (Pc.send.inj hp))
    case neg =>
      have he : s.forward ⟨signum, .test⟩ fs = { s with stack := fs } := if_neg ha
      rw [he] at hdeadline hdue hkills ⊢
      exact ⟨hdeadline, hdue, hfs, h.received, fun _ => hkills⟩
  | send forwarded =>
    refine ⟨hdeadline, hdue, hfs, h.received, fun t hm => ?_⟩
    rcases mem_sent_apply hm with hm | ⟨he, -⟩
    · exact hkills hm
    · cases he
      exact .inl (hsend rfl)

theorem unwound {stack : List Frame} (h : Due grace s)
    (hstack : ∀ f ∈ stack, f ∈ s.stack) : Due grace { s with stack, phase := s.phase.unwound } := by
  have hf : s.phase.unwound.Failing := s.phase.failing_unwound
  have hframes := fun f hm => h.frames f (hstack f hm)
  rcases s.phase.unwound_eq with hp | hp <;> rw [hp] at hf ⊢
  all_goals
    refine ⟨nofun, fun hd => ?_, hframes, h.received, fun _ _ => .inr (.inr hf)⟩
    rcases hd with hd | ⟨_, hd⟩ <;> cases hd

theorem step (h : Due grace s) (hs : Settled s) (hf : Forwarded s) (hr : Restored s)
    (hstep : Step grace s s') : Due grace s' := by
  cases hstep with
  | main hempty hn      => exact h.main hs hf hempty hn
  | handler hstack      => exact h.forward hstack
  | refused             => exact h.unwound fun _ hm => hm
  | refusedHandler      => exact h.unwound nofun
  | @signal signum hm   =>
    refine ⟨h.deadline, h.due, List.forall_mem_cons.mpr ⟨⟨?_, nofun⟩, h.frames⟩, h.received, h.kills⟩
    rintro rfl
    exact absurd (hr.handlers hm) (by decide)
  | tick ht             =>
    exact ⟨h.deadline, fun hp => overdue_mono (h.due hp) ht, h.frames, h.received, h.kills⟩
  | exit | group => exact ⟨h.deadline, h.due, h.frames, h.received, h.kills⟩

end Due

-- What holds in all runs.
structure Kept (grace : Int) (s : State) : Prop where
  dated     : Dated s
  forwarded : Forwarded s
  settled   : Settled s
  restored  : Restored s
  due       : Due grace s

namespace Sample

def start : State where
  phase    := .begin
  stack    := []
  received := []
  started  := []
  handlers := []
  child    := .none
  assigned := false
  group    := []
  sent     := []
  reapedAt := none
  now      := 0

-- `SIGINT` comes while the command is started, and is sent to it later. The command leaves two
-- behind: one goes on until he is killed, the other is not the Manager's to kill.
def last : State := { start with
  phase    := .ended (.ok 130)
  received := [.int]
  started  := [0]
  child    := .reaped (-2)
  assigned := true
  group    := [⟨.killed, true⟩, ⟨.refused, false⟩]
  sent     := [(.int, 0), (.term, 3), (.kill, 5)]
  reapedAt := some 3
  now      := 5 }

end Sample

end Supervisor
