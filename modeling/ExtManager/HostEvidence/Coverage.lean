import Mathlib.Algebra.Field.Rat
import ExtManager.HostEvidence.Observer

namespace HostEvidence

open Fallible

-- Where a record is counted: under an obligation that it is evidence of, in the epoch that is
-- required or in another, or nowhere.
inductive Account
  | other
  | effect (id : Text)
  | stale (id : Text)
  deriving DecidableEq

def Scope.account (s : Scope) (r : JournalEvent) : Account :=
  match s.bindings.byEntry.get? r.event.entryPoint with
  | none         => .other
  | some binding =>
    if r.event.event ≠ "invoked".points then .other
    else if s.requiredBySlot.get? r.event.process.slot = some r.event.process.processEpoch then
      .effect binding.obligation
    else .stale binding.obligation

-- The logical process of a record is one that its obligation is about.
def Scope.OnTarget (s : Scope) (id : Text) (p : Process) : Prop :=
  ∃ o, s.obligations.get? id = some o ∧ p.role = o.role.points ∧ p.ordinal ∈ o.requiredOrdinals ∧
    ∃ epoch, s.requiredBySlot.get? p.slot = some epoch

-- The process of a record was live when the record was observed.
def IsLive (w : World) (x : JournalEvent × Nat) (linux : LinuxProcess) : Prop :=
  readLinuxProcessIdentity (w.processes x.2 x.1.event.process.pid) x.1.event.process.pid
    x.1.event.process.startIdentity = .ok linux

-- A record is an effect of an obligation, by a process that was live.
structure Effect (w : World) (s : Scope) (id : Text) (x : JournalEvent × Nat) (p : ObservedProcess) :
    Prop where
  account : s.account x.1 = .effect id
  live : ∃ linux, IsLive w x linux ∧ p = observedProcess x.1.event.process linux

def ObservedProcess.slot (p : ObservedProcess) : Slot :=
  HostEvidence.slot p.host p.role p.ordinal

def ObservedProcess.identity (p : ObservedProcess) : Text × Int × Int :=
  (p.host, p.linux.pid, p.linux.startTicks)

theorem Effect.slot_eq {w : World} {s : Scope} {id : Text} {x : JournalEvent × Nat}
    {p : ObservedProcess} (h : Effect w s id x p) : p.slot = x.1.event.process.slot := by
  obtain ⟨_, _, rfl⟩ := h.live
  rfl

theorem Effect.unique {w : World} {s : Scope} {id id' : Text} {x : JournalEvent × Nat}
    {p p' : ObservedProcess} (h : Effect w s id x p) (h' : Effect w s id' x p') : id = id' ∧ p = p' := by
  constructor
  · exact Account.effect.inj <| h.account.symm.trans h'.account
  · obtain ⟨linux, hl, rfl⟩ := h.live
    obtain ⟨linux', hl', rfl⟩ := h'.live
    rw [Except.ok.inj <| hl.symm.trans hl']

section Step

variable [RawDigest] [Sha256]
variable {w : World} {q : Request} {s : Scope} {t t' : Tally} {x : JournalEvent × Nat}

-- What one record changes.
inductive Observes (w : World) (s : Scope) (t : Tally) (x : JournalEvent × Nat) : Tally → Prop
  | other (h : s.account x.1 = .other) : Observes w s t x (t.other x.1)
  | stale {id : Text} (h : s.account x.1 = .stale id) (ht : s.OnTarget id x.1.event.process) :
    Observes w s t x (t.stale id x.1)
  | effect {id : Text} {p : ObservedProcess} (h : Effect w s id x p)
    (ht : s.OnTarget id x.1.event.process)
    (hs : ∀ p' ∈ (t.effects id).get? p.slot, p' = p)
    (hl : ∀ sl ∈ t.linuxSlots.get? p.identity, sl = p.slot) :
    Observes w s t x (t.effect id x.1 p p.slot)

omit [Sha256] in
theorem observes_of_observeEffect {binding : EntryPointBinding}
    (hb : s.bindings.byEntry.get? x.1.event.entryPoint = some binding)
    (hi : x.1.event.event = "invoked".points)
    (h : observeEffect (w.processes x.2 x.1.event.process.pid) s binding.obligation t x.1 = .ok t') :
    Observes w s t x t' := by
  unfold observeEffect at h
  dsimp only at h
  split at h
  case h_1 => cases h
  case h_2 => cases h
  case h_3 o epoch ho he =>
    obtain ⟨hr, h⟩ := reject_seq.mp h
    rw [not_or, not_not, not_not] at hr
    have ht : s.OnTarget binding.obligation x.1.event.process :=
      ⟨o, ho, hr.left, hr.right, epoch, he⟩
    split at h
    case isTrue hne =>
      cases h
      refine .stale ?_ ht
      simp [Scope.account, hb, hi, he, Ne.symm hne]
    case isFalse hne =>
      obtain ⟨linux, hl, h⟩ := bind_ok.mp h
      obtain ⟨hs, h⟩ := reject_seq.mp h
      obtain ⟨hp, h⟩ := reject_seq.mp h
      cases h
      push Not at hs hp hne
      refine .effect (p := observedProcess x.1.event.process linux) ⟨?_, linux, hl, rfl⟩ ht hs hp
      simp [Scope.account, hb, hi, he, hne]

-- A record that is evidence of the plan and of the launch, from a process that the host assigned.
structure Admitted (q : Request) (e : HostEvent) : Prop where
  bound : e.bindingStatus = "bound".points
  plan : e.planId = some q.plan.planId.points
  launch : e.launchId = some q.launchId
  assigned : e.process.assignmentSource = some "host".points

theorem observeRecord_ok (h : observeRecord w q s t x = .ok t') :
    Admitted q x.1.event ∧ Observes w s t x t' := by
  unfold observeRecord at h
  have ⟨ha, h⟩ := reject_seq.mp h
  obtain ⟨-, h⟩ := reject_seq.mp h
  push Not at ha
  refine ⟨⟨ha.1, ha.2.1, ha.2.2.1, ha.2.2.2⟩, ?_⟩
  split at h
  case h_1 hb =>
    cases h
    exact .other (by simp [Scope.account, hb])
  case h_2 binding hb =>
    split at h
    case isTrue hi  =>
      cases h
      exact .other (by simp [Scope.account, hb, hi])
    case isFalse hi => exact observes_of_observeEffect hb (not_not.mp hi) h

section Run

variable {done : List (JournalEvent × Nat)} {id : Text} {p : ObservedProcess}

-- The records are of the launch, and those that are counted under an obligation are of its logical
-- processes. The lists are the records of their accounts.
structure Counted (w : World) (q : Request) (s : Scope) (done : List (JournalEvent × Nat))
    (t : Tally) : Prop where
  admitted : ∀ x ∈ done, Admitted q x.1.event
  onTarget : ∀ x ∈ done, ∀ id, s.account x.1 = .effect id ∨ s.account x.1 = .stale id →
    s.OnTarget id x.1.event.process
  live : ∀ x ∈ done, ∀ id, s.account x.1 = .effect id → ∃ p, Effect w s id x p
  other : t.otherRecords = (done.filter (s.account ·.1 = .other)).map (evidenceRecord ·.1)
  effect : ∀ id, t.effectRecords id =
    (done.filter (s.account ·.1 = .effect id)).map (evidenceRecord ·.1)
  stale : ∀ id, t.staleRecords id =
    (done.filter (s.account ·.1 = .stale id)).map (evidenceRecord ·.1)

theorem counted_nil : Counted w q s [] .zero where
  admitted _ h := absurd h List.not_mem_nil
  onTarget _ h := absurd h List.not_mem_nil
  live _ h     := absurd h List.not_mem_nil
  other        := rfl
  effect _     := rfl
  stale _      := rfl

theorem Counted.next (hc : Counted w q s done t) (h : observeRecord w q s t x = .ok t') :
    Counted w q s (done ++ [x]) t' := by
  have ⟨ha, ho⟩ := observeRecord_ok h
  have admitted : ∀ y ∈ done ++ [x], Admitted q y.1.event :=
    List.forall_mem_append.mpr ⟨hc.admitted, by simpa using ha⟩
  cases ho
  case other ho =>
    refine ⟨admitted, ?_, ?_, ?_, fun id => ?_, fun id => ?_⟩
    · exact List.forall_mem_append.mpr ⟨hc.onTarget, by simp [ho]⟩
    · exact List.forall_mem_append.mpr ⟨hc.live, by simp [ho]⟩
    · simp [Tally.other, ho, hc.other]
    · simp [Tally.other, ho, hc.effect]
    · simp [Tally.other, ho, hc.stale]
  case stale id ho ht =>
    refine ⟨admitted, ?_, ?_, ?_, fun id' => ?_, fun id' => ?_⟩
    · exact List.forall_mem_append.mpr ⟨hc.onTarget, by simpa [ho] using ht⟩
    · exact List.forall_mem_append.mpr ⟨hc.live, by simp [ho]⟩
    · simp [Tally.stale, ho, hc.other]
    · simp [Tally.stale, ho, hc.effect]
    · by_cases hid : id' = id
      · simp [Tally.stale, ho, hc.stale, hid]
      · simp [Tally.stale, ho, hc.stale, hid, Ne.symm hid]
  case effect id p he ht hs hl =>
    have ho := he.account
    refine ⟨admitted, ?_, ?_, ?_, fun id' => ?_, fun id' => ?_⟩
    · exact List.forall_mem_append.mpr ⟨hc.onTarget, by simpa [ho] using ht⟩
    · exact List.forall_mem_append.mpr ⟨hc.live, by simpa [ho] using ⟨p, he⟩⟩
    · simp [Tally.effect, ho, hc.other]
    · by_cases hid : id' = id
      · simp [Tally.effect, ho, hc.effect, hid]
      · simp [Tally.effect, ho, hc.effect, hid, Ne.symm hid]
    · simp [Tally.effect, ho, hc.stale]

-- An effect among the records.
def Effects (w : World) (s : Scope) (done : List (JournalEvent × Nat)) (id : Text)
    (p : ObservedProcess) : Prop :=
  ∃ x ∈ done, Effect w s id x p

omit [RawDigest] [Sha256] in
theorem effects_next : Effects w s (done ++ [x]) id p ↔ Effects w s done id p ∨ Effect w s id x p := by
  simp [Effects, or_and_right, exists_or]

-- The tables are of the effects among the records: those of the obligations, and that of the
-- identities of the processes.
structure Tabled (w : World) (s : Scope) (done : List (JournalEvent × Nat)) (t : Tally) : Prop where
  effects : ∀ id sl p, (t.effects id).get? sl = some p ↔ p.slot = sl ∧ Effects w s done id p
  linuxSlots : ∀ key sl, t.linuxSlots.get? key = some sl ↔
    ∃ id p, Effects w s done id p ∧ p.identity = key ∧ p.slot = sl

omit [RawDigest] [Sha256] in
theorem tabled_nil : Tabled w s [] .zero := by
  constructor <;> simp [Tally.zero, Effects]

omit [RawDigest] [Sha256] in
theorem Tabled.same (hd : Tabled w s done t) (he : t'.effects = t.effects)
    (hl : t'.linuxSlots = t.linuxSlots) (hne : ∀ id p, ¬Effect w s id x p) :
    Tabled w s (done ++ [x]) t' := by
  constructor
  case effects    => simpa [effects_next, hne, he] using hd.effects
  case linuxSlots => simpa [effects_next, hne, hl] using hd.linuxSlots

theorem Tabled.next (hd : Tabled w s done t) (h : observeRecord w q s t x = .ok t') :
    Tabled w s (done ++ [x]) t' := by
  have ⟨_, ho⟩ := observeRecord_ok h
  cases ho
  case other ho      => exact hd.same rfl rfl fun _ _ he => by cases ho.symm.trans he.account
  case stale id ho _ => exact hd.same rfl rfl fun _ _ he => by cases ho.symm.trans he.account
  case effect id p he _ hs hl =>
    constructor
    case effects =>
      intro id' sl p'
      rw [effects_next]
      by_cases hid : id' = id
      · subst hid
        simp only [Tally.effect, Function.update_self, Dict.get?_set]
        split
        case isTrue hsl =>
          subst hsl
          constructor
          · rintro ⟨⟩
            exact ⟨rfl, .inr he⟩
          · rintro ⟨hp, hm | hm⟩
            · rw [hs _ <| (hd.effects ..).mpr ⟨hp, hm⟩]
            · rw [(he.unique hm).right]
        case isFalse hsl =>
          rw [hd.effects]
          refine and_congr_right fun hp => ⟨.inl, ?_⟩
          rintro (hm | hm)
          · exact hm
          · exact absurd (hp.symm.trans <| (he.unique hm).right ▸ rfl) hsl
      · simp only [Tally.effect, Function.update_of_ne hid, hd.effects]
        refine and_congr_right fun _ => ⟨.inl, ?_⟩
        rintro (hm | hm)
        · exact hm
        · exact absurd (he.unique hm).left.symm hid
    case linuxSlots =>
      intro key sl
      simp only [Tally.effect, effects_next]
      have hset : (t.linuxSlots.set (p.host, p.linux.pid, p.linux.startTicks) p.slot).get? key =
          if key = p.identity then some p.slot else t.linuxSlots.get? key := Dict.get?_set
      rw [hset]
      constructor
      · split
        case isTrue hk  =>
          rintro ⟨⟩
          exact ⟨id, p, .inr he, hk.symm, rfl⟩
        case isFalse hk =>
          intro h
          obtain ⟨id', p', hm, h⟩ := (hd.linuxSlots ..).mp h
          exact ⟨id', p', .inl hm, h⟩
      · rintro ⟨id', p', hm | hm, rfl, rfl⟩
        · have hg := (hd.linuxSlots ..).mpr ⟨id', p', hm, rfl, rfl⟩
          split
          case isTrue hk  => rw [hl p'.slot (hk ▸ hg)]
          case isFalse hk => exact hg
        · obtain ⟨-, rfl⟩ := he.unique hm
          exact if_pos rfl

theorem counted_tabled {records : List (JournalEvent × Nat)}
    (h : records.foldlM (observeRecord w q s) .zero = .ok t) :
    Counted w q s records t ∧ Tabled w s records t :=
  foldlM_ok (P := fun done t => Counted w q s done t ∧ Tabled w s done t)
    (fun _ _ _ _ hp h => ⟨hp.left.next h, hp.right.next h⟩) ⟨counted_nil, tabled_nil⟩ h

end Run

end Step

section Scope

-- The bindings so far, by their entry points and by their obligations.
structure Bound (done : List EntryPointBinding) (b : Bindings) : Prop where
  byEntry : ∀ e binding, b.byEntry.get? e = some binding ↔ binding ∈ done ∧ binding.entry = e
  byObligation : ∀ id binding, b.byObligation.get? id = some binding ↔
    binding ∈ done ∧ binding.obligation = id

theorem bound_nil : Bound [] ⟨.empty, .empty⟩ := by
  constructor <;> simp

-- One more item under a key of its own.
theorem get?_set_new {κ α : Type} [DecidableEq κ] {d : Dict κ α} {f : α → κ} {done : List α} {a : α}
    (hd : ∀ k b, d.get? k = some b ↔ b ∈ done ∧ f b = k) (hn : f a ∉ d.keys) (k : κ) (b : α) :
    (d.set (f a) a).get? k = some b ↔ b ∈ done ++ [a] ∧ f b = k := by
  rw [Dict.get?_set]
  split
  case isTrue hk  =>
    subst hk
    have hold : ¬(b ∈ done ∧ f b = f a) := fun h => hn <| Dict.mem_keys_iff.mpr ⟨b, (hd ..).mpr h⟩
    constructor
    · rintro ⟨⟩
      simp
    · rintro ⟨hm, hf⟩
      rcases List.mem_append.mp hm with hm | hm
      · exact absurd ⟨hm, hf⟩ hold
      · rw [List.mem_singleton.mp hm]
  case isFalse hk =>
    rw [hd]
    constructor
    · rintro ⟨hm, hf⟩
      exact ⟨List.mem_append_left _ hm, hf⟩
    · rintro ⟨hm, hf⟩
      rcases List.mem_append.mp hm with hm | hm
      · exact ⟨hm, hf⟩
      · exact absurd (hf.symm.trans (List.mem_singleton.mp hm ▸ rfl)) hk

theorem Bound.next [Sha256] {plugins : Dict Text PluginIdentity}
    {obligations : Dict Text EvidenceObligation} {done : List EntryPointBinding} {b b' : Bindings}
    {binding : EntryPointBinding} (hb : Bound done b)
    (h : bindEntryPoint plugins obligations b binding = .ok b') : Bound (done ++ [binding]) b' := by
  obtain ⟨ha, h⟩ := reject_seq.mp h
  obtain ⟨-, h⟩ := reject_seq.mp h
  obtain ⟨-, h⟩ := reject_seq.mp h
  cases h
  push Not at ha
  constructor
  case byEntry      => exact get?_set_new hb.byEntry ha.left
  case byObligation => exact get?_set_new hb.byObligation ha.right

variable [Sha256] {w : World} {q : Request} {s : Scope}

structure Scoped (w : World) (q : Request) (s : Scope) : Prop where
  required : requiredProcesses q.requiredProcesses = .ok s.required
  distinct : (s.required.map RequiredProcess.slot).Nodup
  localHost : s.localHost = q.localHost.getD w.hostname
  obligations : s.obligations = .ofList (q.plan.obligations.map fun o => (o.obligationId.points, o))
  bound : Bound q.bindings s.bindings
  covered : SameElements s.bindings.byObligation.keys s.obligations.keys
  obligated : SameElements (s.required.map RequiredProcess.slot) (obligated s.localHost q.plan)

theorem scoped_of (h : Scope.of w q = .ok s) : Scoped w q s := by
  obtain ⟨required, hr, h⟩ := bind_ok.mp h
  obtain ⟨-, h⟩ := reject_seq.mp h
  obtain ⟨bindings, hb, h⟩ := bind_ok.mp h
  have ⟨hc, h⟩ := reject_seq.mp h
  have ⟨ho, h⟩ := reject_seq.mp h
  cases h
  refine ⟨hr, ?_, rfl, rfl, ?_, not_not.mp hc, not_not.mp ho⟩
  · obtain ⟨parsed, -, hr⟩ := bind_ok.mp hr
    obtain ⟨-, hr⟩ := reject_seq.mp hr
    have ⟨hn, hr⟩ := reject_seq.mp hr
    cases hr
    exact not_not.mp hn
  · exact foldlM_ok (P := Bound) (fun _ _ _ _ hb h => hb.next h) bound_nil hb

omit [Sha256] in
theorem get?_requiredBySlot (hn : (s.required.map RequiredProcess.slot).Nodup) {sl : Slot}
    {epoch : Int} : s.requiredBySlot.get? sl = some epoch ↔
      ∃ r ∈ s.required, r.slot = sl ∧ r.processEpoch = epoch := by
  have hn' : ((s.required.map fun r => (r.slot, r.processEpoch)).map (·.1)).Nodup := by
    simpa [Function.comp_def] using hn
  rw [← Dict.mem_items_iff, Scope.requiredBySlot, Dict.items_ofList hn']
  simp [Prod.ext_iff]

omit [Sha256] in
-- A record is an effect of an obligation iff it is an invocation of the entry point that is bound to
-- it, in the epoch that is required of its process.
theorem account_effect_iff (hn : (s.required.map RequiredProcess.slot).Nodup)
    (hbound : Bound q.bindings s.bindings) {binding : EntryPointBinding}
    (hb : binding ∈ q.bindings) {r : JournalEvent} :
    s.account r = .effect binding.obligation ↔ r.event.entryPoint = binding.entry ∧
      r.event.event = "invoked".points ∧
      ∃ p ∈ s.required, p.slot = r.event.process.slot ∧ p.processEpoch = r.event.process.processEpoch := by
  have hbo : s.bindings.byObligation.get? binding.obligation = some binding :=
    (hbound.byObligation ..).mpr ⟨hb, rfl⟩
  rw [← get?_requiredBySlot hn]
  unfold Scope.account
  constructor
  · intro h
    split at h
    case h_1 => cases h
    case h_2 binding' hb' =>
      split at h
      case isTrue => cases h
      case isFalse hi =>
        split at h
        case isFalse => cases h
        case isTrue he =>
          obtain ⟨hm, hentry⟩ := (hbound.byEntry ..).mp hb'
          have hbo' := (hbound.byObligation ..).mpr ⟨hm, Account.effect.inj h⟩
          rw [Option.some.inj <| hbo.symm.trans hbo']
          exact ⟨hentry.symm, not_not.mp hi, he⟩
  · rintro ⟨hentry, hi, he⟩
    rw [(hbound.byEntry ..).mpr ⟨hb, hentry.symm⟩]
    simp [hi, he]

end Scope

section Results

-- Lists without repetitions, one in the other, are equally long iff they have the same elements.
theorem length_eq_iff {α : Type} {l l' : List α} (hn : l.Nodup) (hn' : l'.Nodup) (h : l ⊆ l') :
    l.length = l'.length ↔ l' ⊆ l := by
  have hsub := List.subperm_of_subset hn h
  constructor
  · intro hl
    exact (hsub.perm_of_length_le hl.ge).symm.subset
  · intro h'
    exact hsub.length_le.antisymm (List.subperm_of_subset hn' h').length_le

-- A list is put together again from the parts that belong to its classes.
theorem classes_perm {α κ : Type} [DecidableEq κ] {f : α → κ} {classes : List κ} {l : List α}
    (hn : classes.Nodup) (h : ∀ a ∈ l, f a ∈ classes) :
    (classes.flatMap fun c => l.filter (f · = c)).Perm l := by
  induction classes generalizing l
  case nil =>
    rw [List.eq_nil_iff_forall_not_mem.mpr fun a ha => List.not_mem_nil (h a ha)]
    exact .nil
  case cons c cs ih =>
    have ⟨hc, hcs⟩ := List.nodup_cons.mp hn
    have hrest : ∀ a ∈ l.filter fun a => !decide (f a = c), f a ∈ cs := by
      intro a ha
      have ⟨ha, hne⟩ := List.mem_filter.mp ha
      exact (List.mem_cons.mp (h a ha)).resolve_left (by simpa using hne)
    have hsame : cs.flatMap (fun c' => (l.filter fun a => !decide (f a = c)).filter (f · = c')) =
        cs.flatMap fun c' => l.filter (f · = c') := by
      refine List.flatMap_congr fun c' hc' => ?_
      rw [List.filter_filter]
      refine List.filter_congr fun a _ => ?_
      have hne : f a = c' → f a ≠ c := fun h h' => hc (h'.symm.trans h ▸ hc')
      simpa using hne
    rw [List.flatMap_cons]
    exact ((ih hcs hrest).symm.trans (.of_eq hsame) |>.append_left _).symm.trans
      (List.filter_append_perm _ l)

theorem mem_sorted {d : Dict Slot ObservedProcess} {p : ObservedProcess} :
    p ∈ sorted d ↔ ∃ sl, d.get? sl = some p := by
  simp [sorted, List.mem_map, List.mem_insertionSort, ← Dict.mem_items_iff]

theorem length_sorted {d : Dict Slot ObservedProcess} : (sorted d).length = d.keys.length := by
  simp [sorted, Dict.keys, List.length_insertionSort]

theorem slot_inj {host host' role role' : Text} {ordinal ordinal' : Int} :
    slot host role ordinal = slot host' role' ordinal' ↔
      host = host' ∧ role = role' ∧ ordinal = ordinal' := by
  simp [slot, Prod.ext_iff]

variable [Sha256] {w : World} {q : Request} {s : Scope} {t : Tally} {item : Text × EvidenceObligation}
variable {result : ObligationResult}

structure Results (q : Request) (s : Scope) (t : Tally) (item : Text × EvidenceObligation)
    (result : ObligationResult) : Prop where
  obligationId : result.obligationId = item.1
  entryPoint : ∃ binding ∈ s.bindings.byObligation.get? item.1, result.entryPoint = binding.entry
  records : result.effectRecords = t.effectRecords item.1
  stale : result.staleEffectRecords = t.staleRecords item.1
  identities : result.effectProcessIdentities = sorted (t.effects item.1)
  complete : result.completeCoverage = true ↔
    (t.effects item.1).keys.length = (s.targets item.2).length

theorem results_of (h : obligationResult q s t item = .ok result) : Results q s t item result := by
  unfold obligationResult at h
  dsimp only at h
  split at h
  case h_1 => cases h
  case h_2 binding hb =>
    split at h
    case h_1 => cases h
    case h_2 =>
      split at h
      case isTrue => cases h
      case isFalse hne =>
        cases h
        refine ⟨rfl, ⟨binding, hb, rfl⟩, rfl, rfl, rfl, ?_⟩
        have hlen : ((s.targets item.2).length : Rat) ≠ 0 := by
          simpa [List.length_eq_zero_iff] using hne
        simp [div_eq_one_iff_eq hlen, length_sorted]

omit [Sha256] in
-- The processes of an obligation that have effects are among those that it is about.
theorem keys_subset_targets (hs : Scoped w q s) {done : List (JournalEvent × Nat)}
    (ho : s.obligations.get? item.1 = some item.2)
    (hd : Tabled w s done t) (ht : ∀ x ∈ done, ∀ id, s.account x.1 = .effect id →
      s.OnTarget id x.1.event.process) :
    (t.effects item.1).keys ⊆ (s.targets item.2).map RequiredProcess.slot := by
  intro sl hsl
  obtain ⟨p, hp⟩ := Dict.mem_keys_iff.mp hsl
  obtain ⟨rfl, x, hx, he⟩ := (hd.effects ..).mp hp
  obtain ⟨o, ho', hrole, hordinal, epoch, hepoch⟩ := ht x hx _ he.account
  cases ho.symm.trans ho'
  obtain ⟨r, hr, hslot, -⟩ := (get?_requiredBySlot hs.distinct).mp hepoch
  have ⟨_, hrole', hordinal'⟩ := slot_inj.mp hslot
  refine List.mem_map.mpr ⟨r, List.mem_filter.mpr ⟨hr, ?_⟩, hslot.trans he.slot_eq.symm⟩
  simp [hrole', hrole, hordinal', hordinal]

omit [Sha256] in
-- The logical processes that an obligation is about, as its plan has them.
theorem mem_targets_iff (hs : Scoped w q s) {o : EvidenceObligation} (ho : o ∈ q.plan.obligations)
    {sl : Slot} : sl ∈ (s.targets o).map RequiredProcess.slot ↔
      ∃ ordinal ∈ o.requiredOrdinals, sl = slot s.localHost o.role.points ordinal := by
  constructor
  · intro hsl
    obtain ⟨r, hr, rfl⟩ := List.mem_map.mp hsl
    have ⟨hr, hro⟩ := List.mem_filter.mp hr
    simp only [decide_eq_true_eq] at hro
    have hm := hs.obligated.left _ (List.mem_map_of_mem hr)
    obtain ⟨o', -, hm⟩ := List.mem_flatMap.mp hm
    obtain ⟨ordinal', -, hm⟩ := List.mem_map.mp hm
    have ⟨hhost, _, _⟩ := slot_inj.mp hm
    exact ⟨r.ordinal, hro.right, slot_inj.mpr ⟨hhost.symm, hro.left, rfl⟩⟩
  · rintro ⟨ordinal, hord, rfl⟩
    have hm : slot s.localHost o.role.points ordinal ∈ obligated s.localHost q.plan :=
      List.mem_flatMap.mpr ⟨o, ho, List.mem_map_of_mem hord⟩
    obtain ⟨r, hr, hslot⟩ := List.mem_map.mp <| hs.obligated.right _ hm
    have ⟨_, hrole, hordinal⟩ := slot_inj.mp hslot
    exact List.mem_map.mpr ⟨r, List.mem_filter.mpr ⟨hr, by simp [hrole, hordinal, hord]⟩, hslot⟩

-- A record of the invocation of an entry point by the process that the host assigned to a logical
-- process, in the epoch that is required of it, and live.
structure Covers (w : World) (q : Request) (required : List RequiredProcess) (e : EntryPoint)
    (sl : Slot) (x : JournalEvent × Nat) : Prop where
  admitted : Admitted q x.1.event
  invoked : x.1.event.event = "invoked".points
  entryPoint : x.1.event.entryPoint = e
  slot : x.1.event.process.slot = sl
  epoch : ∃ r ∈ required, r.slot = sl ∧ r.processEpoch = x.1.event.process.processEpoch
  live : ∃ linux, IsLive w x linux

variable [RawDigest]

theorem mem_keys_iff (hs : Scoped w q s) {done : List (JournalEvent × Nat)}
    (hc : Counted w q s done t) (hd : Tabled w s done t) {binding : EntryPointBinding}
    (hb : binding ∈ q.bindings) {sl : Slot} : sl ∈ (t.effects binding.obligation).keys ↔
      ∃ x ∈ done, Covers w q s.required binding.entry sl x := by
  rw [Dict.mem_keys_iff]
  simp only [hd.effects]
  constructor
  · rintro ⟨p, rfl, x, hx, he⟩
    obtain ⟨hentry, hi, hepoch⟩ := (account_effect_iff hs.distinct hs.bound hb).mp he.account
    obtain ⟨linux, hl, -⟩ := he.live
    exact ⟨x, hx, hc.admitted x hx, hi, hentry, he.slot_eq.symm, he.slot_eq ▸ hepoch, linux, hl⟩
  · rintro ⟨x, hx, h⟩
    obtain ⟨linux, hl⟩ := h.live
    have ha := (account_effect_iff hs.distinct hs.bound hb).mpr
      ⟨h.entryPoint, h.invoked, h.slot ▸ h.epoch⟩
    have he : Effect w s binding.obligation x (observedProcess x.1.event.process linux) :=
      ⟨ha, linux, hl, rfl⟩
    exact ⟨_, he.slot_eq.trans h.slot, x, hx, he⟩

-- An obligation is covered completely iff each of its logical processes has a record.
theorem complete_iff (hs : Scoped w q s) {done : List (JournalEvent × Nat)}
    (hc : Counted w q s done t) (hd : Tabled w s done t) (hr : Results q s t item result)
    (ho : s.obligations.get? item.1 = some item.2) (hm : item.2 ∈ q.plan.obligations) :
    result.completeCoverage = true ↔ ∀ ordinal ∈ item.2.requiredOrdinals,
      ∃ x ∈ done, Covers w q s.required result.entryPoint
        (slot s.localHost item.2.role.points ordinal) x := by
  obtain ⟨binding, hb, hentry⟩ := hr.entryPoint
  have ⟨hmem, hid⟩ := (hs.bound.byObligation ..).mp hb
  have hsub : (t.effects item.1).keys ⊆ (s.targets item.2).map RequiredProcess.slot :=
    keys_subset_targets hs ho hd fun x hx id h => hc.onTarget x hx id (.inl h)
  have hn : ((s.targets item.2).map RequiredProcess.slot).Nodup :=
    hs.distinct.sublist (List.filter_sublist.map _)
  rw [hr.complete, hentry, ← List.length_map (f := RequiredProcess.slot)]
  refine (length_eq_iff (t.effects item.1).nodup hn hsub).trans ?_
  constructor
  · intro h ordinal hord
    have hk := h <| (mem_targets_iff hs hm).mpr ⟨ordinal, hord, rfl⟩
    exact (mem_keys_iff hs hc hd hmem).mp (hid ▸ hk)
  · intro h sl hsl
    obtain ⟨ordinal, hord, rfl⟩ := (mem_targets_iff hs hm).mp hsl
    exact hid ▸ (mem_keys_iff hs hc hd hmem).mpr (h ordinal hord)

def accounts (s : Scope) : List Account :=
  .other :: s.obligations.keys.flatMap fun id => [.effect id, .stale id]

omit [Sha256] [RawDigest] in
theorem accounts_nodup : (accounts s).Nodup := by
  refine List.nodup_cons.mpr ⟨by simp, List.nodup_flatMap.mpr ⟨by simp, ?_⟩⟩
  refine s.obligations.nodup.imp fun {a b} hne => ?_
  simp [Function.onFun, List.disjoint_left, hne]

theorem account_mem {done : List (JournalEvent × Nat)} (hc : Counted w q s done t) :
    ∀ x ∈ done, s.account x.1 ∈ accounts s := by
  intro x hx
  have hkey id (h : s.account x.1 = .effect id ∨ s.account x.1 = .stale id) : id ∈ s.obligations.keys :=
    have ⟨o, ho, _⟩ := hc.onTarget x hx id h
    Dict.mem_keys_iff.mpr ⟨o, ho⟩
  unfold accounts
  cases ha : s.account x.1
  case other     => exact List.mem_cons_self
  case effect id => simp [hkey id (.inl ha)]
  case stale id  => simp [hkey id (.inr ha)]

-- All records of a snapshot, list by list.
def Snapshot.accounted (v : Snapshot) : List EvidenceRecord :=
  v.otherRecords ++ v.obligations.flatMap fun r => r.effectRecords ++ r.staleEffectRecords

-- The lists of a snapshot are what the records are put into.
theorem accounted_perm {done : List (JournalEvent × Nat)} {results : List ObligationResult}
    (hc : Counted w q s done t) (hr : s.obligations.items.mapM (obligationResult q s t) = .ok results) :
    (t.otherRecords ++ results.flatMap fun r => r.effectRecords ++ r.staleEffectRecords).Perm
      (done.map (evidenceRecord ·.1)) := by
  have hlists : results.map (fun r => r.effectRecords ++ r.staleEffectRecords) =
      s.obligations.items.map fun item => t.effectRecords item.1 ++ t.staleRecords item.1 :=
    map_of_mapM (fun _ _ h => by rw [(results_of h).records, (results_of h).stale]) hr
  have hparts : t.otherRecords ++ results.flatMap (fun r => r.effectRecords ++ r.staleEffectRecords) =
      ((accounts s).flatMap fun a => done.filter (s.account ·.1 = a)).map (evidenceRecord ·.1) := by
    rw [List.flatMap_def, hlists, ← List.flatMap_def]
    simp [accounts, Dict.keys, List.flatMap_assoc, List.flatMap_map, List.map_flatMap, hc.other,
      hc.effect, hc.stale]
  rw [hparts]
  exact (classes_perm accounts_nodup (account_mem hc)).map _

variable [Hashlib] [Decimal] {v : Snapshot} {records : List JournalEvent}

omit [Sha256] [RawDigest] in
theorem readJournals_ok {metadata : Metadata} (h : readJournals w q = .ok (metadata, records)) :
    readEvents w.directory (some q.expectedDirectoryIdentity) none = .ok records := by
  obtain ⟨-, h⟩ := reject_seq.mp h
  split at h
  case h_1 => cases h
  case h_2 =>
    obtain ⟨-, h⟩ := reject_seq.mp h
    obtain ⟨-, h⟩ := reject_seq.mp h
    obtain ⟨_, hr, h⟩ := bind_ok.mp h
    cases h
    exact Fallible.mapError_ok.mp hr

-- What a snapshot has been made of.
structure Observation (w : World) (q : Request) (v : Snapshot) (s : Scope)
    (records : List JournalEvent) (t : Tally) : Prop where
  scope : Scoped w q s
  read : readEvents w.directory (some q.expectedDirectoryIdentity) none = .ok records
  counted : Counted w q s records.zipIdx t
  tabled : Tabled w s records.zipIdx t
  obligations : s.obligations.items.mapM (obligationResult q s t) = .ok v.obligations
  other : v.otherRecords = t.otherRecords
  count : v.auditedEventCount = records.length
  processes : v.effectProcessIdentities =
    sorted (s.obligations.keys.foldl (fun all id => all.update (t.effects id)) .empty)
  complete : v.completeCoverage = v.obligations.all (·.completeCoverage)

theorem observation_of (h : observeBoundInvocations w q = .ok v) :
    ∃ s records t, Observation w q v s records t := by
  obtain ⟨s, hs, h⟩ := bind_ok.mp h
  obtain ⟨⟨metadata, records⟩, hr, h⟩ := bind_ok.mp h
  obtain ⟨t, ht, h⟩ := bind_ok.mp h
  obtain ⟨obligations, ho, h⟩ := bind_ok.mp h
  cases h
  have ⟨hc, hd⟩ := counted_tabled ht
  exact ⟨s, records, t, scoped_of hs, readJournals_ok hr, hc, hd, ho, rfl, rfl, rfl, rfl⟩

omit [Sha256] in
theorem evidence_nodup {d : Directory} {expected : Option (Int × Int)} {limit : Option Nat}
    (h : readEvents d expected limit = .ok records) : (records.map evidenceRecord).Nodup := by
  have hd := (recorded_of_readEvents h).distinct
  exact List.pairwise_map.mpr <| hd.imp fun hne he => hne <| congrArg EvidenceRecord.eventId he

-- A snapshot has every record in one of its lists, and says of an obligation that it is covered
-- completely iff each of its logical processes has a record.
theorem observation_accounts (hids : (q.plan.obligations.map (·.obligationId)).Nodup)
    (h : observeBoundInvocations w q = .ok v) :
    ∃ records required,
      readEvents w.directory (some q.expectedDirectoryIdentity) none = .ok records ∧
      requiredProcesses q.requiredProcesses = .ok required ∧
      (v.accounted.Perm (records.map evidenceRecord) ∧ v.accounted.Nodup ∧
        v.accounted.length = v.auditedEventCount ∧ v.auditedEventCount = records.length) ∧
      v.obligations.map (·.obligationId) = q.plan.obligations.map (·.obligationId.points) ∧
      (∀ o ∈ q.plan.obligations, ∀ result ∈ v.obligations,
        result.obligationId = o.obligationId.points →
          (∃ b ∈ q.bindings, b.obligation = o.obligationId.points ∧ result.entryPoint = b.entry) ∧
          (result.completeCoverage = true ↔ ∀ ordinal ∈ o.requiredOrdinals,
            ∃ x ∈ records.zipIdx, Covers w q required result.entryPoint
              (slot (q.localHost.getD w.hostname) o.role.points ordinal) x)) ∧
      (v.completeCoverage = true ↔ ∀ result ∈ v.obligations, result.completeCoverage = true) := by
  obtain ⟨s, records, t, ho⟩ := observation_of h
  have hs := ho.scope
  have hperm : v.accounted.Perm (records.map evidenceRecord) := by
    have hp := accounted_perm ho.counted ho.obligations
    rwa [← ho.other, ← Function.comp_def evidenceRecord Prod.fst, ← List.map_map,
      List.zipIdx_map_fst] at hp
  have hids' : ((q.plan.obligations.map fun o => (o.obligationId.points, o)).map (·.1)).Nodup := by
    have hinj : Function.Injective String.points := fun _ _ => String.points_inj.mp
    simpa [Function.comp_def] using List.Nodup.map hinj hids
  have hitems : s.obligations.items = q.plan.obligations.map fun o => (o.obligationId.points, o) := by
    rw [hs.obligations, Dict.items_ofList hids']
  have hnames : v.obligations.map (·.obligationId) = q.plan.obligations.map (·.obligationId.points) := by
    rw [map_of_mapM (fun _ _ h => (results_of h).obligationId) ho.obligations, hitems, List.map_map]
    rfl
  refine ⟨records, s.required, ho.read, hs.required, ⟨hperm, ?_, ?_, ho.count⟩, hnames, ?_, ?_⟩
  · exact hperm.nodup_iff.mpr (evidence_nodup ho.read)
  · rw [hperm.length_eq, ho.count, List.length_map]
  · intro o hm result hr hid
    obtain ⟨item, hitem, hres⟩ := source_of_mapM ho.obligations result hr
    have hres := results_of hres
    obtain ⟨o', ho', rfl⟩ := List.mem_map.mp (hitems ▸ hitem)
    have ho'o : o' = o := by
      have hn := String.points_inj.mp (hres.obligationId.symm.trans hid)
      exact List.inj_on_of_nodup_map hids ho' hm hn
    subst ho'o
    have hget : s.obligations.get? o'.obligationId.points = some o' := Dict.mem_items_iff.mp hitem
    obtain ⟨binding, hb, hentry⟩ := hres.entryPoint
    have ⟨hbm, hbid⟩ := (hs.bound.byObligation ..).mp hb
    refine ⟨⟨binding, hbm, hbid, hentry⟩, ?_⟩
    rw [← hs.localHost]
    exact complete_iff hs ho.counted ho.tabled hres hget hm
  · rw [ho.complete, List.all_eq_true]

end Results

end HostEvidence

-- Two entry points of one logical process, each invoked by a process of its own.
namespace HostEvidence.TwoProcesses

scoped instance : Decimal where
  value? c := if Scanner.isDigit c then some (c - '0'.toNat) else none

def obligation (id : String) : EvidenceObligation where
  obligationId     := id
  role             := "w"
  event            := "invoked"
  requiredOrdinals := [0]

def plugin : PluginIdentity where
  «namespace»    := "n"
  name           := "p"
  version        := "1"
  artifactSha256 := ""

def plan : Plan where
  plugins     := [plugin]
  host        := ⟨"r", "1", "p", "a"⟩
  claims      := []
  obligations := [obligation "a", obligation "b"]
  predecessor := ⟨0, none, .null⟩

-- The digests of the plugin, which has four fields, and of the plan. Their two encodings are the
-- same text.
def digest : Json → String
  | .obj [_, _, _, _] => "b43dbae1d297898a99b97fb72f31890950415ce744c81458dc5464a4f5ac9f2e"
  | _                 => "7294532f3e9b2a351594fcce96ecb779645df5323db4458287a0ce23452f8a41"

scoped instance : Sha256 where
  canonical := digest
  ascii     := digest

-- The invocation of the entry point that is named by a digit, by the process with that number.
def line (d : UInt8) (eventId : Text) : Bytes := [
  123, 34, 97, 114, 116, 105, 102, 97, 99, 116, 95, 100, 105, 103, 101, 115, 116, 34, 58, 110, 117,
  108, 108, 44, 34, 98, 105, 110, 100, 105, 110, 103, 95, 115, 116, 97, 116, 117, 115, 34, 58, 34,
  98, 111, 117, 110, 100, 34, 44, 34, 99, 111, 110, 116, 114, 111, 108, 108, 101, 114, 95, 105, 110,
  115, 116, 97, 110, 99, 101, 95, 105, 100, 34, 58, 110, 117, 108, 108, 44, 34, 100, 101, 108, 105,
  118, 101, 114, 121, 95, 97, 116, 116, 101, 109, 112, 116, 34, 58, 49, 44, 34, 100, 101, 116, 97,
  105, 108, 34, 58, 110, 117, 108, 108, 44, 34, 100, 105, 115, 112, 97, 116, 99, 104, 95, 105, 100,
  34, 58, 110, 117, 108, 108, 44, 34, 101, 110, 116, 114, 121, 95, 112, 111, 105, 110, 116, 34, 58,
  123, 34, 103, 114, 111, 117, 112, 34, 58, 34, 103, 34, 44, 34, 110, 97, 109, 101, 34, 58, 34] ++ [d] ++ [
  34, 44, 34, 118, 97, 108, 117, 101, 34, 58, 34, 118, 34, 125, 44, 34, 101, 118, 101, 110, 116, 34,
  58, 34, 105, 110, 118, 111, 107, 101, 100, 34, 44, 34, 101, 118, 101, 110, 116, 95, 105, 100, 34,
  58, 34] ++ eventId.map .ofNat ++ [
  34, 44, 34, 105, 100, 101, 110, 116, 105, 116, 121, 95, 115, 116, 97, 116, 117, 115, 34, 58, 34,
  115, 34, 44, 34, 105, 110, 118, 111, 99, 97, 116, 105, 111, 110, 95, 115, 101, 113, 34, 58, 110,
  117, 108, 108, 44, 34, 108, 97, 117, 110, 99, 104, 95, 105, 100, 34, 58, 34, 108, 34, 44, 34, 111,
  98, 115, 101, 114, 118, 97, 116, 105, 111, 110, 95, 107, 105, 110, 100, 34, 58, 34, 108, 111, 97,
  100, 101, 114, 95, 108, 105, 102, 101, 99, 121, 99, 108, 101, 34, 44, 34, 111, 98, 115, 101, 114,
  118, 101, 100, 95, 97, 116, 95, 110, 115, 34, 58, 53, 44, 34, 111, 99, 99, 117, 114, 114, 101,
  110, 99, 101, 95, 105, 100, 34, 58, 110, 117, 108, 108, 44, 34, 112, 108, 97, 110, 95, 105, 100,
  34, 58, 34, 112, 108, 97, 110, 58, 115, 104, 97, 50, 53, 54, 58, 55, 50, 57, 52, 53, 51, 50, 102,
  51, 101, 57, 98, 50, 97, 51, 53, 49, 53, 57, 52, 102, 99, 99, 101, 57, 54, 101, 99, 98, 55, 55,
  57, 54, 52, 53, 100, 102, 53, 51, 50, 51, 100, 98, 52, 52, 53, 56, 50, 56, 55, 97, 48, 99, 101,
  50, 51, 52, 53, 50, 102, 56, 97, 52, 49, 34, 44, 34, 112, 108, 117, 103, 105, 110, 95, 105, 100,
  34, 58, 110, 117, 108, 108, 44, 34, 112, 114, 111, 99, 101, 115, 115, 34, 58, 123, 34, 97, 115,
  115, 105, 103, 110, 109, 101, 110, 116, 95, 115, 111, 117, 114, 99, 101, 34, 58, 34, 104, 111,
  115, 116, 34, 44, 34, 104, 111, 115, 116, 34, 58, 34, 104, 34, 44, 34, 111, 114, 100, 105, 110,
  97, 108, 34, 58, 48, 44, 34, 112, 105, 100, 34, 58] ++ [d] ++ [
  44, 34, 112, 114, 111, 99, 101, 115, 115, 95, 101, 112, 111, 99, 104, 34, 58, 49, 44, 34, 114,
  111, 108, 101, 34, 58, 34, 119, 34, 44, 34, 115, 116, 97, 114, 116, 95, 105, 100, 101, 110, 116,
  105, 116, 121, 34, 58, 34, 112, 105, 100, 58] ++ [d] ++ [
  58, 115, 116, 97, 114, 116, 95, 116, 105, 99, 107, 115, 58, 57, 34, 125, 44, 34, 115, 99, 104,
  101, 109, 97, 34, 58, 34, 118, 108, 108, 109, 45, 104, 117, 115, 116, 45, 112, 108, 117, 103, 105,
  110, 45, 101, 118, 105, 100, 101, 110, 99, 101, 47, 48, 46, 49, 34, 125]

-- The text that its event id is the digest of.
def material (d : Nat) : Text := [
  91, 34, 104, 34, 44] ++ [d] ++ [
  44, 34, 112, 105, 100, 58] ++ [d] ++ [
  58, 115, 116, 97, 114, 116, 95, 116, 105, 99, 107, 115, 58, 57, 34, 44, 49, 44, 34, 119, 34, 44,
  48, 44, 34, 103, 34, 44, 34] ++ [d] ++ [
  34, 44, 34, 118, 34, 44, 34, 105, 110, 118, 111, 107, 101, 100, 34, 44, 110, 117, 108, 108, 44,
  110, 117, 108, 108, 44, 34, 112, 108, 97, 110, 58, 115, 104, 97, 50, 53, 54, 58, 55, 50, 57, 52,
  53, 51, 50, 102, 51, 101, 57, 98, 50, 97, 51, 53, 49, 53, 57, 52, 102, 99, 99, 101, 57, 54, 101,
  99, 98, 55, 55, 57, 54, 52, 53, 100, 102, 53, 51, 50, 51, 100, 98, 52, 52, 53, 56, 50, 56, 55, 97,
  48, 99, 101, 50, 51, 52, 53, 50, 102, 56, 97, 52, 49, 34, 44, 34, 108, 34, 44, 34, 108, 111, 97,
  100, 101, 114, 95, 108, 105, 102, 101, 99, 121, 99, 108, 101, 34, 44, 110, 117, 108, 108, 44, 49,
  44, 53, 44, 34, 104, 111, 115, 116, 34, 93]

def eventId7 : Text := [
  51, 57, 55, 100, 56, 50, 48, 100, 49, 54, 57, 97, 55, 102, 48, 54, 100, 51, 102, 50, 53, 53, 55,
  52, 97, 49, 55, 50, 102, 49, 102, 54, 99, 48, 50, 99, 51, 54, 56, 51, 98, 54, 56, 54, 52, 50, 56,
  57, 51, 55, 57, 48, 49, 102, 51, 97, 99, 99, 48, 51, 99, 57, 53, 52]

def eventId8 : Text := [
  100, 52, 52, 52, 51, 49, 52, 48, 52, 99, 54, 53, 98, 53, 100, 48, 56, 100, 55, 102, 101, 100, 52,
  49, 48, 54, 52, 56, 50, 98, 54, 98, 55, 56, 98, 100, 98, 54, 48, 48, 99, 53, 57, 57, 51, 101, 97,
  100, 99, 56, 55, 49, 100, 54, 50, 48, 98, 56, 52, 100, 57, 101, 49, 56]

def line7 : Bytes :=
  line 55 eventId7

def line8 : Bytes :=
  line 56 eventId8

scoped instance : Hashlib where
  sha256 t :=
    if t = material 55 then eventId7
    else if t = material 56 then eventId8
    else t.map (· + 128)

scoped instance : RawDigest where
  hexdigest raw :=
    if raw = line7 then "a813063820d1e39b5372c7127e16327a52072a23f7eac185897c09fd5dd453ab".points
    else if raw = line8 then "28ef883f1432305c2fc75f0eac0edf83b8f51e110b6dfa3317527eb23b59639a".points
    else raw.map (·.toNat + 128)

def binding (name id : String) : EntryPointBinding where
  group      := "g".points
  name       := name.points
  value      := "v".points
  pluginId   := plugin.id.points
  obligation := id.points

def request : Request where
  expectedDirectoryIdentity := (1, 2)
  plan                      := plan
  launchId                  := "l".points
  controllerInstance        := "c".points
  bindings                  := [binding "7" "a", binding "8" "b"]
  requiredProcesses         := [.obj [("host".points, .str "h".points), ("ordinal".points, .int 0),
    ("process_epoch".points, .int 1), ("role".points, .str "w".points)]]
  localHost                 := some "h".points

-- The `stat` of a process, with its start ticks.
def stat (pid : Int) : Bytes :=
  (Dumps.decimal pid).map .ofNat ++ [32, 40, 112, 41, 32, 83, 32] ++
    (List.replicate 18 [49, 32]).flatten ++ [57]

def world : World where
  hostname      := "h".points
  metadata      := some ⟨true, (1, 2)⟩
  directory     := ⟨(1, 2), [("j.jsonl".points, .file (line7 ++ [10] ++ line8 ++ [10]))]⟩
  processes _ p := ⟨some (stat p), some [112, 0], some (stat p)⟩

def snapshot? : Option Snapshot :=
  (observeBoundInvocations world request).toOption

theorem snapshot_eq {v : Snapshot} (h : snapshot? = some v) :
    observeBoundInvocations world request = .ok v := by
  unfold snapshot? at h
  cases ho : observeBoundInvocations world request <;> rw [ho] at h <;> cases h
  rfl

theorem observed : ∃ v, observeBoundInvocations world request = .ok v := by
  have h : snapshot?.isSome = true := by decide +kernel
  obtain ⟨v, hv⟩ := Option.isSome_iff_exists.mp h
  exact ⟨v, snapshot_eq hv⟩

end HostEvidence.TwoProcesses

namespace HostEvidence

open TwoProcesses in
theorem observation_accounts_of_two : ∃ v, observeBoundInvocations world request = .ok v ∧
    v.accounted.Nodup ∧ v.accounted.length = v.auditedEventCount := by
  obtain ⟨v, hv⟩ := observed
  obtain ⟨_, _, _, _, ⟨_, hn, hl, _⟩, _⟩ := observation_accounts (by decide) hv
  exact ⟨v, hv, hn, hl⟩

end HostEvidence
