import ExtManager.HostEvidence.Coverage

namespace HostEvidence

open Fallible

section Live

variable {files : ProcessFiles} {pid : Int} {startIdentity : Text} {linux : LinuxProcess}

-- The identity of a live process is the one that is expected, and is known by its number and its
-- start ticks.
theorem readLinuxProcessIdentity_ok
    (h : readLinuxProcessIdentity files pid startIdentity = .ok linux) :
    linux.pid = pid ∧ startIdentity = startPrefix pid ++ Dumps.decimal linux.startTicks := by
  obtain ⟨-, h⟩ := reject_seq.mp h
  iterate 5 obtain ⟨_, -, h⟩ := bind_ok.mp h
  obtain ⟨-, h⟩ := reject_seq.mp h
  have ⟨hs, h⟩ := reject_seq.mp h
  obtain ⟨-, h⟩ := reject_seq.mp h
  cases h
  exact ⟨rfl, not_not.mp hs⟩

end Live

-- One process: the same number and the same start ticks.
def SameProcess (p p' : ObservedProcess) : Prop :=
  p.linux.pid = p'.linux.pid ∧ p.linux.startTicks = p'.linux.startTicks

instance (p p' : ObservedProcess) : Decidable (SameProcess p p') :=
  inferInstanceAs (Decidable (_ ∧ _))

-- Over all obligations of a snapshot, a logical process is one process and a process is one logical
-- process.
def Snapshot.OneToOne (v : Snapshot) : Prop :=
  ∀ r ∈ v.obligations, ∀ r' ∈ v.obligations, ∀ p ∈ r.effectProcessIdentities,
    ∀ p' ∈ r'.effectProcessIdentities, p.slot = p'.slot ↔ SameProcess p p'

instance (v : Snapshot) : Decidable v.OneToOne :=
  inferInstanceAs <| Decidable <| ∀ r ∈ v.obligations, ∀ r' ∈ v.obligations,
    ∀ p ∈ r.effectProcessIdentities, ∀ p' ∈ r'.effectProcessIdentities,
      p.slot = p'.slot ↔ SameProcess p p'

-- A record of the invocation of an entry point that is bound, in the epoch that is required.
structure Invokes (q : Request) (required : List RequiredProcess) (e : HostEvent) : Prop where
  entryPoint : ∃ b ∈ q.bindings, e.entryPoint = b.entry
  invoked : e.event = "invoked".points
  epoch : ∃ r ∈ required, r.slot = e.process.slot ∧ r.processEpoch = e.process.processEpoch

-- The invocations by one logical process are by one process, whichever entry points they are of.
def OneProcess [Hashlib] [Decimal] (w : World) (q : Request) : Prop :=
  ∀ records required, readEvents w.directory (some q.expectedDirectoryIdentity) none = .ok records →
    requiredProcesses q.requiredProcesses = .ok required →
      ∀ x ∈ records, ∀ y ∈ records, Invokes q required x.event → Invokes q required y.event →
        x.event.process.slot = y.event.process.slot →
          x.event.process.pid = y.event.process.pid ∧
          x.event.process.startIdentity = y.event.process.startIdentity

section Identity

variable [Sha256] [RawDigest] {w : World} {q : Request} {s : Scope} {t : Tally} {v : Snapshot}
variable {id id' : Text} {p p' : ObservedProcess} {x y : JournalEvent × Nat}
variable {done : List (JournalEvent × Nat)}

omit [Sha256] [RawDigest] in
-- What an effect's process is known by, as its record has it.
theorem Effect.process_eq (h : Effect w s id x p) : p.linux.pid = x.1.event.process.pid ∧
    x.1.event.process.startIdentity =
      startPrefix x.1.event.process.pid ++ Dumps.decimal p.linux.startTicks := by
  obtain ⟨linux, hl, rfl⟩ := h.live
  exact readLinuxProcessIdentity_ok hl

omit [Sha256] [RawDigest] in
theorem Effect.sameProcess_iff (h : Effect w s id x p) (h' : Effect w s id' y p') :
    SameProcess p p' ↔ x.1.event.process.pid = y.1.event.process.pid ∧
      x.1.event.process.startIdentity = y.1.event.process.startIdentity := by
  have ⟨hp, hs⟩ := h.process_eq
  have ⟨hp', hs'⟩ := h'.process_eq
  unfold SameProcess
  rw [hp, hp', hs, hs']
  refine and_congr_right fun hpid => ?_
  rw [hpid, List.append_cancel_left_eq]
  refine ⟨congrArg _, fun h => ?_⟩
  have hends : Dumps.Ends [','.toNat] := ⟨_, _, rfl, .inl rfl⟩
  exact (Dumps.decimal_inj hends hends (by rw [h])).left

-- An effect of an obligation is on the host of the call.
theorem Effect.host_eq (hs : Scoped w q s) (hc : Counted w q s done t) (hx : x ∈ done)
    (h : Effect w s id x p) : p.host = s.localHost := by
  obtain ⟨o, ho, -, -, epoch, hepoch⟩ := hc.onTarget x hx id (.inl h.account)
  obtain ⟨r, hr, hslot, -⟩ := (get?_requiredBySlot hs.distinct).mp hepoch
  have hm := hs.obligated.left _ (List.mem_map_of_mem hr)
  obtain ⟨_, -, hm⟩ := List.mem_flatMap.mp hm
  obtain ⟨_, -, hm⟩ := List.mem_map.mp hm
  have ⟨hhost, _, _⟩ := slot_inj.mp (hm.trans (hslot.trans h.slot_eq.symm))
  exact hhost.symm

-- One process stands for one logical process only, whichever obligations it has effects of.
theorem slot_eq_of_sameProcess (hs : Scoped w q s) (hc : Counted w q s done t)
    (hd : Tabled w s done t) (h : Effects w s done id p) (h' : Effects w s done id' p')
    (hp : SameProcess p p') : p.slot = p'.slot := by
  obtain ⟨x, hx, he⟩ := h
  obtain ⟨y, hy, he'⟩ := h'
  have hid : p.identity = p'.identity := by
    unfold ObservedProcess.identity
    rw [he.host_eq hs hc hx, he'.host_eq hs hc hy, hp.left, hp.right]
  have hg := (hd.linuxSlots _ _).mpr ⟨id, p, ⟨x, hx, he⟩, hid, rfl⟩
  have hg' := (hd.linuxSlots _ _).mpr ⟨id', p', ⟨y, hy, he'⟩, rfl, rfl⟩
  exact Option.some.inj (hg.symm.trans hg')

-- The invocations are the effects of obligations.
theorem invokes_iff (hs : Scoped w q s) (hc : Counted w q s done t) (hx : x ∈ done) :
    Invokes q s.required x.1.event ↔ ∃ id p, Effect w s id x p := by
  constructor
  · rintro ⟨⟨b, hb, hentry⟩, hi, hepoch⟩
    have ha := (account_effect_iff hs.distinct hs.bound hb).mpr ⟨hentry, hi, hepoch⟩
    exact ⟨b.obligation, hc.live x hx _ ha⟩
  · rintro ⟨id, p, he⟩
    obtain ⟨o, ho, -⟩ := hc.onTarget x hx id (.inl he.account)
    have hk := hs.covered.right _ (Dict.mem_keys_iff.mpr ⟨o, ho⟩)
    obtain ⟨b, hb⟩ := Dict.mem_keys_iff.mp hk
    have ⟨hm, hid⟩ := (hs.bound.byObligation ..).mp hb
    have ⟨hentry, hi, hepoch⟩ := (account_effect_iff hs.distinct hs.bound hm).mp (hid ▸ he.account)
    exact ⟨⟨b, hm, hentry⟩, hi, hepoch⟩

variable [Hashlib] [Decimal] {records : List JournalEvent}

-- What the obligations of a snapshot have are the effects among the records.
theorem mem_identities_iff (ho : Observation w q v s records t) :
    (∃ r ∈ v.obligations, p ∈ r.effectProcessIdentities) ↔ ∃ id, Effects w s records.zipIdx id p := by
  constructor
  · rintro ⟨r, hr, hp⟩
    obtain ⟨item, -, hres⟩ := source_of_mapM ho.obligations r hr
    rw [(results_of hres).identities, mem_sorted] at hp
    obtain ⟨sl, hp⟩ := hp
    exact ⟨item.1, ((ho.tabled.effects ..).mp hp).right⟩
  · rintro ⟨id, x, hx, he⟩
    obtain ⟨o, hget, -⟩ := ho.counted.onTarget x hx id (.inl he.account)
    obtain ⟨r, hr, hres⟩ := target_of_mapM ho.obligations _ (Dict.mem_items_iff.mpr hget)
    refine ⟨r, hr, ?_⟩
    rw [(results_of hres).identities, mem_sorted]
    exact ⟨p.slot, (ho.tabled.effects ..).mpr ⟨rfl, x, hx, he⟩⟩

-- The logical processes and the processes of a snapshot correspond iff the invocations by one
-- logical process, of whichever obligations, are by one process.
theorem oneToOne_iff (h : observeBoundInvocations w q = .ok v) : v.OneToOne ↔ OneProcess w q := by
  obtain ⟨s, records, t, ho⟩ := observation_of h
  have hs := ho.scope
  have hc := ho.counted
  constructor
  · intro hone records' required hr hreq x hx y hy hix hiy hslot
    cases ho.read.symm.trans hr
    cases hs.required.symm.trans hreq
    have numbered {x : JournalEvent} (hx : x ∈ records) : ∃ n, (x, n) ∈ records.zipIdx := by
      rw [← List.zipIdx_map_fst 0 records] at hx
      obtain ⟨⟨_, n⟩, hm, rfl⟩ := List.mem_map.mp hx
      exact ⟨n, hm⟩
    obtain ⟨n, hx⟩ := numbered hx
    obtain ⟨m, hy⟩ := numbered hy
    obtain ⟨id, p, he⟩ := (invokes_iff hs hc hx).mp hix
    obtain ⟨id', p', he'⟩ := (invokes_iff hs hc hy).mp hiy
    obtain ⟨r, hr, hp⟩ := (mem_identities_iff ho).mpr ⟨id, _, hx, he⟩
    obtain ⟨r', hr', hp'⟩ := (mem_identities_iff ho).mpr ⟨id', _, hy, he'⟩
    have hsame := (hone r hr r' hr' p hp p' hp').mp (he.slot_eq.trans (hslot.trans he'.slot_eq.symm))
    exact (he.sameProcess_iff he').mp hsame
  · intro hone r hr r' hr' p hp p' hp'
    obtain ⟨id, x, hx, he⟩ := (mem_identities_iff ho).mp ⟨r, hr, hp⟩
    obtain ⟨id', y, hy, he'⟩ := (mem_identities_iff ho).mp ⟨r', hr', hp'⟩
    have recorded {x : JournalEvent × Nat} (hx : x ∈ records.zipIdx) : x.1 ∈ records := by
      rw [← List.zipIdx_map_fst 0 records]
      exact List.mem_map_of_mem hx
    constructor
    · intro hslot
      refine (he.sameProcess_iff he').mpr ?_
      exact hone records s.required ho.read hs.required _ (recorded hx) _ (recorded hy)
        ((invokes_iff hs hc hx).mpr ⟨id, p, he⟩) ((invokes_iff hs hc hy).mpr ⟨id', p', he'⟩)
        (he.slot_eq.symm.trans (hslot.trans he'.slot_eq))
    · exact slot_eq_of_sameProcess hs hc ho.tabled ⟨x, hx, he⟩ ⟨y, hy, he'⟩

end Identity

open TwoProcesses in
theorem oneToOne_of_two : ∃ v, observeBoundInvocations world request = .ok v ∧
    (v.OneToOne ↔ OneProcess world request) := by
  obtain ⟨v, hv⟩ := observed
  exact ⟨v, hv, oneToOne_iff hv⟩

open TwoProcesses in
-- The two obligations of one logical process are covered by different processes.
theorem not_oneToOne : ¬∀ v, observeBoundInvocations world request = .ok v → v.OneToOne := by
  intro hall
  have h : snapshot?.any (fun v => ¬v.OneToOne) = true := by decide +kernel
  obtain ⟨v, hv, hone⟩ := (Option.any_eq_true ..).mp h
  exact of_decide_eq_true hone (hall v (snapshot_eq hv))

end HostEvidence
