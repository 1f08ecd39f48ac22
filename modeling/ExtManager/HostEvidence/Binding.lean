import ExtManager.Codec.Fallible
import ExtManager.HostEvidence.Event

namespace HostEvidence

open Fallible
open Dumps (Flat)

section Fields

variable {v : Option Value} {t : Text} {p : Prop} [Decidable p] {u : Unit}

theorem require_ok : require p = .ok u ↔ p := by
  unfold require
  split
  case isTrue h  => exact ⟨fun _ => h, fun _ => rfl⟩
  case isFalse h => exact ⟨nofun, fun hp => absurd hp h⟩

theorem require_seq {α : Type} {k : Unit → Except Failure α} {a : α} :
    (require p >>= k) = .ok a ↔ p ∧ k () = .ok a := by
  rw [bind_ok]
  exact ⟨fun ⟨_, h, hk⟩ => ⟨require_ok.mp h, hk⟩, fun ⟨h, hk⟩ => ⟨(), require_ok.mpr h, hk⟩⟩

theorem nonEmpty_ok (h : nonEmpty v = .ok t) : v = some (.str t) := by
  unfold nonEmpty at h
  split at h
  case h_1 =>
    split at h <;> cases h
    rfl
  case h_2 => cases h

theorem oneOf_ok {names : List Text} (h : oneOf names v = .ok t) : v = some (.str t) ∧ t ∈ names := by
  unfold oneOf at h
  split at h
  case h_1 =>
    split at h <;> cases h
    exact ⟨rfl, ‹_›⟩
  all_goals cases h

theorem nullable_ok {o : Option Text} (h : nullable v = .ok o) : ∀ t ∈ o, v = some (.str t) := by
  unfold nullable at h
  split at h
  case h_1 =>
    cases h
    exact nofun
  case h_2 =>
    split at h <;> cases h
    rintro _ ⟨⟩
    rfl
  case h_3 => cases h

theorem occurrence_ok {o : Option Occurrence} (h : occurrence v = .ok o) :
    ∀ t, o = some (.text t) → v = some (.str t) := by
  unfold occurrence at h
  split at h
  case h_1 =>
    cases h
    exact nofun
  case h_2 =>
    split at h <;> cases h
    exact nofun
  case h_3 =>
    split at h <;> cases h
    rintro _ ⟨⟩
    rfl
  case h_4 => cases h

theorem assignment_ok {o : Option Text} (h : assignment v = .ok o) : ∀ t ∈ o, v = some (.str t) := by
  unfold assignment at h
  split at h
  case h_1 =>
    cases h
    exact nofun
  case h_2 =>
    obtain ⟨s, hs, h⟩ := bind_ok.mp h
    cases h
    rintro _ ⟨⟩
    exact (oneOf_ok hs).left

theorem object_ok {fieldSets : List (List String)} {fields : Fields}
    (h : object fieldSets v = .ok fields) : v = some (.obj fields) := by
  unfold object at h
  split at h
  case h_1 =>
    split at h <;> cases h
    rfl
  case h_2 => cases h

end Fields

section Encoding

variable {fields : Fields} {key t : Text}

theorem fieldsHaveEncoding_iff : fieldsHaveEncoding fields ↔
    ∀ f ∈ fields, Unicode.scalar f.1 ∧ hasEncoding f.2 := by
  induction fields with
  | nil            => simp [fieldsHaveEncoding]
  | cons f rest ih => simp [fieldsHaveEncoding, ih]

-- A text that stands in a value with an encoding has one.
theorem flat_of_get? (h : fieldsHaveEncoding fields) (hv : fields.get? key = some (.str t)) :
    Flat (.str t) :=
  .str (fieldsHaveEncoding_iff.mp h _ (Fields.mem_of_get? hv)).right

theorem fields_of_get? (h : fieldsHaveEncoding fields) {inner : Fields}
    (hv : fields.get? key = some (.obj inner)) : fieldsHaveEncoding inner :=
  (fieldsHaveEncoding_iff.mp h _ (Fields.mem_of_get? hv)).right

theorem flat_ofText {o : Option Text} (h : ∀ t ∈ o, Flat (.str t)) : Flat (ofText o) := by
  cases o
  case none   => exact .null
  case some t => exact h t rfl

theorem flat_ofOccurrence {o : Option Occurrence} (h : ∀ t, o = some (.text t) → Flat (.str t)) :
    Flat (ofOccurrence o) := by
  match o with
  | none             => exact .null
  | some (.number n) => exact .int
  | some (.text t)   => exact h t rfl

end Encoding

section Parse

variable [Hashlib] [Decimal] {raw : Bytes} {e : HostEvent}

structure ProcessEncoded (p : Process) : Prop where
  host : Flat (.str p.host)
  role : Flat (.str p.role)
  startIdentity : Flat (.str p.startIdentity)
  assignmentSource : ∀ t ∈ p.assignmentSource, Flat (.str t)

omit [Hashlib] in
theorem parseProcess_ok {fields : Fields} {p : Process} (h : parseProcess fields = .ok p)
    (he : fieldsHaveEncoding fields) : ProcessEncoded p := by
  obtain ⟨host, hhost, h⟩ := bind_ok.mp h
  obtain ⟨role, hrole, h⟩ := bind_ok.mp h
  obtain ⟨startIdentity, hstart, h⟩ := bind_ok.mp h
  obtain ⟨source, hsource, h⟩ := bind_ok.mp h
  iterate 5 obtain ⟨_, -, h⟩ := bind_ok.mp h
  cases h
  exact {
    host             := flat_of_get? he (nonEmpty_ok hhost)
    role             := flat_of_get? he (nonEmpty_ok hrole)
    startIdentity    := flat_of_get? he (nonEmpty_ok hstart)
    assignmentSource := fun t ht => flat_of_get? he (assignment_ok hsource t ht)
  }

structure EntryPointEncoded (p : EntryPoint) : Prop where
  group : Flat (.str p.group)
  name : Flat (.str p.name)
  value : Flat (.str p.value)

omit [Hashlib] [Decimal] in
theorem parseEntryPoint_ok {fields : Fields} {p : EntryPoint} (h : parseEntryPoint fields = .ok p)
    (he : fieldsHaveEncoding fields) : EntryPointEncoded p := by
  obtain ⟨group, hgroup, h⟩ := bind_ok.mp h
  obtain ⟨name, hname, h⟩ := bind_ok.mp h
  obtain ⟨value, hvalue, h⟩ := bind_ok.mp h
  cases h
  exact {
    group := flat_of_get? he (nonEmpty_ok hgroup)
    name  := flat_of_get? he (nonEmpty_ok hname)
    value := flat_of_get? he (nonEmpty_ok hvalue)
  }

-- What an event that has been accepted comes with.
structure Accepted (e : HostEvent) : Prop where
  bound : e.planId ≠ none ∧ e.launchId ≠ none ↔ e.bindingStatus = "bound".points
  binding : e.bindingStatus = "bound".points ∨ e.bindingStatus = "unbound".points
  kind : checkKind e = .ok ()
  eventId : e.eventId = Hashlib.sha256 (dumps (eventMaterial e))
  flat : ∀ v ∈ eventMaterial e, Flat v

theorem parseHostEvent_ok (h : parseHostEvent raw = .ok e) : Accepted e := by
  obtain ⟨value, -, h⟩ := bind_ok.mp h
  iterate 2 obtain ⟨-, h⟩ := require_seq.mp h
  obtain ⟨event, hevent, h⟩ := bind_ok.mp h
  obtain ⟨kind, -, h⟩ := bind_ok.mp h
  obtain ⟨_, henc, h⟩ := bind_ok.mp h
  obtain ⟨entry, hentry, h⟩ := bind_ok.mp h
  obtain ⟨process, hprocess, h⟩ := bind_ok.mp h
  iterate 2 obtain ⟨_, -, h⟩ := bind_ok.mp h
  obtain ⟨entryPoint, hep, h⟩ := bind_ok.mp h
  obtain ⟨proc, hproc, h⟩ := bind_ok.mp h
  iterate 2 obtain ⟨_, -, h⟩ := bind_ok.mp h
  obtain ⟨-, h⟩ := require_seq.mp h
  obtain ⟨planId, hplan, h⟩ := bind_ok.mp h
  obtain ⟨launchId, hlaunch, h⟩ := bind_ok.mp h
  obtain ⟨detail, hdetail, h⟩ := bind_ok.mp h
  obtain ⟨controller, hcontroller, h⟩ := bind_ok.mp h
  obtain ⟨status, hstatus, h⟩ := bind_ok.mp h
  obtain ⟨-, h⟩ := require_seq.mp h
  obtain ⟨hbound, h⟩ := require_seq.mp h
  obtain ⟨occ, hocc, h⟩ := bind_ok.mp h
  iterate 2 obtain ⟨_, -, h⟩ := bind_ok.mp h
  obtain ⟨u, hkind, h⟩ := bind_ok.mp h
  obtain ⟨hid, h⟩ := require_seq.mp h
  obtain ⟨-, h⟩ := require_seq.mp h
  cases h
  have henc : fieldsHaveEncoding value := by
    unfold validateUnicode at henc
    split at henc
    case isTrue he => exact he
    case isFalse   => cases henc
  have hp := parseProcess_ok hproc (fields_of_get? henc (object_ok hprocess))
  have hentry := parseEntryPoint_ok hep (fields_of_get? henc (object_ok hentry))
  have hstatus := (oneOf_ok hstatus).right
  have hkindFlat : Flat (.str kind.value) := by
    cases kind <;> exact .str (by decide)
  refine ⟨hbound, by simpa using hstatus, hkind, hid, ?_⟩
  simp only [eventMaterial, List.mem_append, List.mem_cons, List.mem_map, Option.mem_toList,
    List.not_mem_nil, or_false]
  have hflat {t : Text} {key : Text} (h : value.get? key = some (.str t)) := flat_of_get? henc h
  rintro v (hv | ⟨t, ht, rfl⟩)
  · rcases hv with rfl | rfl | rfl | rfl | rfl | rfl | rfl | rfl | rfl | rfl | rfl | rfl | rfl | rfl |
      rfl | rfl | rfl | rfl
    · exact hp.host
    · exact .int
    · exact hp.startIdentity
    · exact .int
    · exact hp.role
    · exact .int
    · exact hentry.group
    · exact hentry.name
    · exact hentry.value
    · exact hflat (oneOf_ok hevent).left
    · exact flat_ofText fun t ht => hflat (nullable_ok hdetail t ht)
    · exact flat_ofOccurrence fun t ht => hflat (occurrence_ok hocc t ht)
    · exact flat_ofText fun t ht => hflat (nullable_ok hplan t ht)
    · exact flat_ofText fun t ht => hflat (nullable_ok hlaunch t ht)
    · exact hkindFlat
    · exact flat_ofText fun t ht => hflat (nullable_ok hcontroller t ht)
    · exact .int
    · exact .int
  · exact hp.assignmentSource t ht

end Parse

section Material

theorem ofText_inj {o o' : Option Text} (h : ofText o = ofText o') : o = o' := by
  cases o <;> cases o' <;> simp_all [ofText]

theorem ofOccurrence_inj {o o' : Option Occurrence} (h : ofOccurrence o = ofOccurrence o') : o = o' := by
  match o, o' with
  | none,             none             => rfl
  | some (.number _), some (.number _) => simp_all [ofOccurrence]
  | some (.text _),   some (.text _)   => simp_all [ofOccurrence]
  | none,             some (.number _) => simp [ofOccurrence] at h
  | none,             some (.text _)   => simp [ofOccurrence] at h
  | some (.number _), none             => simp [ofOccurrence] at h
  | some (.number _), some (.text _)   => simp [ofOccurrence] at h
  | some (.text _),   none             => simp [ofOccurrence] at h
  | some (.text _),   some (.number _) => simp [ofOccurrence] at h

theorem ObservationKind.value_inj : ∀ k k' : ObservationKind, k.value = k'.value → k = k' := by
  intro k k' h
  cases k <;> cases k' <;> first | rfl | exact absurd h (by decide)

theorem source_inj {o o' : Option Text} (h : o.toList.map Value.str = o'.toList.map Value.str) :
    o = o' := by
  cases o <;> cases o' <;> simp_all

-- The fields that the material of an event has.
structure SameMaterial (e e' : HostEvent) : Prop where
  process : e.process = e'.process
  entryPoint : e.entryPoint = e'.entryPoint
  event : e.event = e'.event
  detail : e.detail = e'.detail
  occurrenceId : e.occurrenceId = e'.occurrenceId
  planId : e.planId = e'.planId
  launchId : e.launchId = e'.launchId
  observationKind : e.observationKind = e'.observationKind
  controllerInstanceId : e.controllerInstanceId = e'.controllerInstanceId
  deliveryAttempt : e.deliveryAttempt = e'.deliveryAttempt
  observedAtNs : e.observedAtNs = e'.observedAtNs

theorem sameMaterial_of_eq {e e' : HostEvent} (h : eventMaterial e = eventMaterial e') :
    SameMaterial e e' := by
  simp only [eventMaterial, List.cons_append, List.nil_append, List.cons.injEq, Value.str.injEq,
    Value.int.injEq] at h
  obtain ⟨hhost, hpid, hstart, hepoch, hrole, hordinal, hgroup, hname, hvalue, hevent, hdetail, hocc,
    hplan, hlaunch, hkind, hcontroller, hattempt, hobserved, hsource⟩ := h
  constructor
  case process    => exact Process.ext hhost hrole hordinal hpid hstart hepoch (source_inj hsource)
  case entryPoint => exact EntryPoint.ext hgroup hname hvalue
  case event                => exact hevent
  case detail               => exact ofText_inj hdetail
  case occurrenceId         => exact ofOccurrence_inj hocc
  case planId               => exact ofText_inj hplan
  case launchId             => exact ofText_inj hlaunch
  case observationKind      => exact ObservationKind.value_inj _ _ hkind
  case controllerInstanceId => exact ofText_inj hcontroller
  case deliveryAttempt      => exact hattempt
  case observedAtNs         => exact hobserved

variable [Hashlib] {e e' : HostEvent}

-- The other fields of the scheduler follow from them.
theorem scheduler_eq (h : SameMaterial e e') (hk : checkKind e = .ok ()) (hk' : checkKind e' = .ok ()) :
    e.invocationSeq = e'.invocationSeq ∧ e.dispatchId = e'.dispatchId := by
  have hdispatch : dispatchMaterial e = dispatchMaterial e' := by
    simp only [dispatchMaterial, h.process, h.planId, h.launchId, h.controllerInstanceId,
      h.occurrenceId]
  unfold checkKind at hk hk'
  rw [← h.observationKind, ← h.controllerInstanceId, ← h.occurrenceId, ← hdispatch] at hk'
  cases hkind : e.observationKind <;> simp only [hkind] at hk hk'
  case loaderLifecycle =>
    have ⟨_, _, hs, hd⟩ := require_ok.mp hk
    have ⟨_, _, hs', hd'⟩ := require_ok.mp hk'
    exact ⟨hs.trans hs'.symm, hd.trans hd'.symm⟩
  case schedulerResolution =>
    cases hc : e.controllerInstanceId <;> simp only [hc] at hk hk'
    case none => cases hk
    case some =>
      have ⟨_, _, hs, hd⟩ := require_ok.mp hk
      have ⟨_, _, hs', hd'⟩ := require_ok.mp hk'
      exact ⟨hs.trans hs'.symm, hd.trans hd'.symm⟩
  case schedulerDispatch =>
    rcases hc : e.controllerInstanceId with _ | controller
    all_goals rcases ho : e.occurrenceId with _ | n | t
    all_goals simp only [hc, ho] at hk hk'
    case some.some.number =>
      have ⟨⟨_, hs⟩, hd⟩ := require_seq.mp hk
      have ⟨⟨_, hs'⟩, hd'⟩ := require_seq.mp hk'
      exact ⟨hs.trans hs'.symm, (require_ok.mp hd).trans (require_ok.mp hd').symm⟩
    all_goals cases hk

-- The same but for whether the identity of the process was verified.
def SameObservation (e e' : HostEvent) : Prop :=
  { e with identityStatus := e'.identityStatus } = e'

omit [Hashlib] in
theorem SameObservation.eventId (h : SameObservation e e') : e.eventId = e'.eventId := by
  rw [← show { e with identityStatus := e'.identityStatus } = e' from h]

theorem sameObservation_of_material (h : SameMaterial e e') (ha : Accepted e) (ha' : Accepted e') :
    SameObservation e e' := by
  have ⟨hseq, hdispatch⟩ := scheduler_eq h ha.kind ha'.kind
  have hbinding : e.bindingStatus = e'.bindingStatus := by
    have hb := ha.bound
    rw [h.planId, h.launchId, ha'.bound] at hb
    rcases ha.binding with hs | hs
    · exact hs.trans (hb.mpr hs).symm
    · have hne : e.bindingStatus ≠ "bound".points := hs ▸ by decide
      exact hs.trans (ha'.binding.resolve_left fun hs' => hne (hb.mp hs')).symm
  have hid : e.eventId = e'.eventId := by
    have hm : eventMaterial e = eventMaterial e' := by
      simp only [eventMaterial, h.process, h.entryPoint, h.event, h.detail, h.occurrenceId, h.planId,
        h.launchId, h.observationKind, h.controllerInstanceId, h.deliveryAttempt, h.observedAtNs]
    rw [ha.eventId, ha'.eventId, hm]
  obtain ⟨hprocess, hentry, hevent, hdetail, hocc, hplan, hlaunch, hkind, hcontroller, hattempt,
    hobserved⟩ := h
  cases e
  cases e'
  simp_all [SameObservation]

-- The identifier of an event binds it.
theorem sameObservation_of_eventId (hinj : Function.Injective Hashlib.sha256) (ha : Accepted e)
    (ha' : Accepted e') (h : e.eventId = e'.eventId) : SameObservation e e' := by
  rw [ha.eventId, ha'.eventId] at h
  have hm := Dumps.list_inj ha.flat ha'.flat (hinj h)
  exact sameObservation_of_material (sameMaterial_of_eq hm) ha ha'

end Material

end HostEvidence
