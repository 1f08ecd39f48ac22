import ExtManager.Manifest.Described

-- What the parts of a manifest are read as.
namespace Manifest

open Fallible

variable {raw value : Value} {index : Nat} {fields fields' : Fields} {location t : Text}

-- What stands in a dictionary in order is in order.
theorem ordered_get (hv : (Value.obj fields).Ordered) (key : Text) {default : Value}
    (hd : default.Ordered) : ((fields.get? key).getD default).Ordered := by
  cases hg : fields.get? key
  case none   => exact hd
  case some v =>
    cases hv with | obj _ hall =>
    exact hall _ (Fields.mem_of_get? hg)

theorem isDict_of_ordered (hv : (Value.obj fields).Ordered) : IsDict fields := by
  cases hv with | obj hsorted hitems =>
  exact ⟨hsorted, hitems⟩

theorem get?_eq_none {key : Text} (h : key ∉ fields.keys) : fields.get? key = none := by
  cases hg : fields.get? key
  case none   => rfl
  case some v => exact absurd (List.mem_map_of_mem (Fields.mem_of_get? hg)) h

theorem boolean_ok {message : Text} {b : Bool} :
    boolean value message = .ok b ↔ value = .bool b := by
  cases value
  case bool => exact ⟨fun h => by cases h; rfl, fun h => by cases h; rfl⟩
  all_goals
    constructor <;> intro h <;> cases h

-- An object with these fields, written out.
theorem covers_value (names : List String) {required optional : List String}
    (hk : fields.keys = names.map String.points)
    (h : (∀ k ∈ names.map String.points, k ∈ (required ++ optional).map String.points) ∧
      ∀ n ∈ required, n.points ∈ names.map String.points) : Covers fields required optional :=
  ⟨hk ▸ h.left, fun n hn => hk ▸ h.right n hn⟩

theorem hasFields_value (names : List String) {expected : List String}
    (hk : fields.keys = names.map String.points)
    (h : (∀ k ∈ names.map String.points, k ∈ expected.map String.points) ∧
      ∀ n ∈ expected, n.points ∈ names.map String.points) : Value.HasFields fields expected :=
  ⟨hk ▸ h.left, fun n hn => hk ▸ h.right n hn⟩

section Lists

variable {α β : Type} {items : List Value} {f : Value → Nat → Result α} {as : List α}
variable {P : α → Prop} {R : α → Fields → Prop}

-- A string that is wanted of a field.
theorem string_seq {key : String} {k : Text → Result β} {b : β} :
    (item fields key >>= fun value => string value location >>= k) = .ok b ↔
      ∃ t, fields.get? key.points = some (.str t) ∧ IsWord t ∧ k t = .ok b := by
  rw [item_seq]
  constructor
  · rintro ⟨_, t, hg, hs, hk⟩
    obtain ⟨rfl, hw⟩ := string_ok.mp hs
    exact ⟨t, hg, hw, hk⟩
  · rintro ⟨t, hg, hw, hk⟩
    exact ⟨_, t, hg, string_ok.mpr ⟨rfl, hw⟩, hk⟩

-- The items are read as these if and only if they say this of them, each one.
theorem mapItems_ok (h : ∀ raw ∈ items, ∀ index a, f raw index = .ok a ↔ P a ∧ IsObject (R a) raw) :
    mapItems items f = .ok as ↔
      (∀ a ∈ as, P a) ∧ List.Forall₂ (fun a raw => IsObject (R a) raw) as items := by
  rw [← List.forall₂_and_left, mapItems, mapM_ok]
  generalize 0 = start
  induction items generalizing as start with
  | nil             =>
    rw [List.zipIdx_nil, List.forall₂_nil_left_iff, List.forall₂_nil_right_iff]
  | cons raw items ih =>
    obtain ⟨hraw, h⟩ := List.forall_mem_cons.mp h
    rw [List.zipIdx_cons, List.forall₂_cons_left_iff, List.forall₂_cons_right_iff]
    refine exists_congr fun a => exists_congr fun rest => ?_
    rw [hraw start a, ih h]

theorem array_seq {message : Text} {k : List α → Result β} {b : β}
    (h : ∀ raw, ∀ index a, f raw index = .ok a ↔ P a ∧ IsObject (R a) raw) :
    (array value message >>= fun items => mapItems items f >>= k) = .ok b ↔
      ∃ as, ((∀ a ∈ as, P a) ∧ IsArray R as value) ∧ k as = .ok b := by
  simp only [bind_ok, array_ok, mapItems_ok fun raw _ => h raw]
  constructor
  · rintro ⟨items, hv, as, ⟨hp, ha⟩, hk⟩
    exact ⟨as, ⟨hp, items, hv, ha⟩, hk⟩
  · rintro ⟨as, ⟨hp, items, hv, ha⟩, hk⟩
    exact ⟨items, hv, as, ⟨hp, ha⟩, hk⟩

theorem array_items {message : Text}
    (h : ∀ raw, ∀ index a, f raw index = .ok a ↔ P a ∧ IsObject (R a) raw) :
    (array value message >>= fun items => mapItems items f) = .ok as ↔
      (∀ a ∈ as, P a) ∧ IsArray R as value := by
  refine (bind_ok.trans ⟨?_, ?_⟩)
  · rintro ⟨items, hv, ha⟩
    obtain ⟨hp, ha⟩ := (mapItems_ok fun raw _ => h raw).mp ha
    exact ⟨hp, items, array_ok.mp hv, ha⟩
  · rintro ⟨hp, items, hv, ha⟩
    exact ⟨items, array_ok.mpr hv, (mapItems_ok fun raw _ => h raw).mpr ⟨hp, ha⟩⟩

-- Written one by one, the items make the array.
theorem isArray_map {value : α → Value} (h : ∀ a ∈ as, IsObject (R a) (value a)) :
    IsArray R as (.arr (as.map value)) :=
  ⟨_, rfl, List.forall₂_map_right_iff.mpr (List.forall₂_same.mpr h)⟩

theorem isArray_nil : IsArray R as (.arr []) ↔ as = [] := by
  constructor
  · rintro ⟨_, ho, h⟩
    cases ho
    exact List.forall₂_nil_right_iff.mp h
  · rintro rfl
    exact ⟨[], rfl, .nil⟩

end Lists

section Activation

variable {a : BundleActivation} {e : ActivationEntryPoint}

theorem entryPoint_ok : entryPoint raw index = .ok e ↔ e.Valid ∧ IsObject e.In raw := by
  constructor
  · intro h
    obtain ⟨_, hf, h⟩ := bind_ok.mp h
    obtain ⟨ho, hkeys⟩ := exactly_ok.mp hf
    obtain ⟨group, hgroup, hg, h⟩ := string_seq.mp h
    obtain ⟨name, hname, hn, h⟩ := string_seq.mp h
    cases h
    exact ⟨⟨hg, hn⟩, _, ho, ⟨hkeys, hgroup, hname⟩⟩
  · rintro ⟨hv, fields, rfl, h⟩
    refine bind_ok.mpr ⟨_, exactly_ok.mpr ⟨rfl, h.keys⟩, ?_⟩
    refine string_seq.mpr ⟨_, h.group, hv.group, ?_⟩
    exact string_seq.mpr ⟨_, h.name, hv.name, rfl⟩

theorem ActivationEntryPoint.in_value (e : ActivationEntryPoint) : IsObject e.In e.value :=
  ⟨_, rfl, ⟨hasFields_value ["group", "name"] rfl (by decide), rfl, rfl⟩⟩

theorem entryPoints_ok {es : List ActivationEntryPoint} :
    (∃ raw, iterate value = .ok raw ∧ mapItems raw entryPoint = .ok es) ↔
      (∀ e ∈ es, e.Valid) ∧ EntryPoints es value := by
  have hitems (items : List Value) : mapItems items entryPoint = .ok es ↔ (∀ e ∈ es, e.Valid) ∧
      List.Forall₂ (fun e raw => IsObject (ActivationEntryPoint.In e) raw) es items :=
    mapItems_ok fun _ _ _ _ => entryPoint_ok
  constructor
  · rintro ⟨raw, hr, h⟩
    obtain ⟨hv, h⟩ := (hitems raw).mp h
    refine ⟨hv, ?_⟩
    have hnone {t : Text} {items : List Value}
        (h : List.Forall₂ (fun e raw => IsObject e.In raw) es (.str t :: items)) : False := by
      cases h with | cons he _ =>
      obtain ⟨_, ho, -⟩ := he
      cases ho
    cases value
    case arr items =>
      cases hr
      exact .inl ⟨_, rfl, h⟩
    case obj fields =>
      cases hr
      cases fields
      case nil  => exact .inr ⟨.inl rfl, List.forall₂_nil_right_iff.mp h⟩
      case cons => exact (hnone h).elim
    case str t =>
      cases hr
      cases t
      case nil  => exact .inr ⟨.inr rfl, List.forall₂_nil_right_iff.mp h⟩
      case cons => exact (hnone h).elim
    all_goals cases hr
  · rintro ⟨hv, ⟨items, rfl, h⟩ | ⟨rfl | rfl, rfl⟩⟩
    · exact ⟨items, rfl, (hitems items).mpr ⟨hv, h⟩⟩
    · exact ⟨[], rfl, rfl⟩
    · exact ⟨[], rfl, rfl⟩

theorem environment_ok {environment : List (Text × Text)} :
    fields.mapM environmentItem = .ok environment ↔ fields = environmentFields environment := by
  have hone (f : Text × Value) (p : Text × Text) :
      environmentItem f = .ok p ↔ f = (p.1, .str p.2) := by
    obtain ⟨key, value⟩ := f
    obtain ⟨key', t⟩ := p
    constructor
    · intro h
      cases value
      case str =>
        cases h
        rfl
      all_goals cases h
    · intro h
      cases h
      rfl
  rw [mapM_ok, environmentFields, ← List.forall₂_eq_eq_eq, List.forall₂_map_right_iff]
  exact iff_of_eq (congrArg (List.Forall₂ · fields environment)
    (funext fun f => funext fun p => propext (hone f p)))

theorem parseActivation_ok (hv : value.Ordered) :
    parseActivation value = .ok a ↔ a.Valid ∧ a.Is value := by
  cases value
  case null =>
    constructor
    · intro h
      cases h
      exact ⟨⟨List.forall_mem_nil _, .nil, .nil, List.forall_mem_nil _⟩, .inl ⟨rfl, rfl⟩⟩
    · rintro ⟨-, ⟨-, rfl⟩ | ⟨_, ho, -⟩⟩
      · rfl
      · cases ho
  case obj fields =>
    constructor
    · intro h
      obtain ⟨_, ho, h⟩ := bind_ok.mp h
      cases object_ok.mp ho
      obtain ⟨_, hkeys, h⟩ := bind_ok.mp h
      obtain ⟨raw, hraw, h⟩ := bind_ok.mp h
      obtain ⟨entryPoints, he, h⟩ := bind_ok.mp h
      obtain ⟨environment, hn, h⟩ := bind_ok.mp h
      obtain ⟨environment', hm, h⟩ := bind_ok.mp h
      obtain ⟨additional, ha, h⟩ := bind_ok.mp h
      cases h
      have hempty : (Value.obj []).Ordered := .obj .nil (List.forall_mem_nil _)
      have henvironment : (Value.obj environment).Ordered :=
        object_ok.mp hn ▸ ordered_get hv _ hempty
      have hadditional : (Value.obj additional).Ordered :=
        object_ok.mp ha ▸ ordered_get hv _ hempty
      have heq := environment_ok.mp hm
      have hsorted : (environmentFields environment').Sorted :=
        heq ▸ (isDict_of_ordered henvironment).left
      obtain ⟨hpoints, hin⟩ := entryPoints_ok.mp ⟨raw, hraw, he⟩
      refine ⟨⟨hpoints, environmentFields_sorted.mp hsorted, isDict_of_ordered hadditional⟩, ?_⟩
      exact .inr ⟨fields, rfl, ⟨nothing_ok.mp hkeys, hin, heq ▸ object_ok.mp hn, object_ok.mp ha⟩⟩
    · rintro ⟨h, ⟨hn, -⟩ | ⟨_, ho, hi⟩⟩
      · cases hn
      cases ho
      obtain ⟨raw, hraw, he⟩ := entryPoints_ok.mpr ⟨h.entryPoints, hi.entryPoints⟩
      refine bind_ok.mpr ⟨_, object_ok.mpr rfl, bind_ok.mpr ⟨(), nothing_ok.mpr hi.keys, ?_⟩⟩
      refine bind_ok.mpr ⟨raw, hraw, bind_ok.mpr ⟨_, he, ?_⟩⟩
      refine bind_ok.mpr ⟨_, object_ok.mpr hi.environment, ?_⟩
      refine bind_ok.mpr ⟨_, environment_ok.mpr rfl, ?_⟩
      exact bind_ok.mpr ⟨_, object_ok.mpr hi.additionalConfig, rfl⟩
  all_goals
    constructor
    · intro h
      cases h
    · rintro ⟨-, ⟨hn, -⟩ | ⟨_, ho, -⟩⟩
      · cases hn
      · cases ho

theorem BundleActivation.is_value (a : BundleActivation) : a.Is a.value := by
  have hkeys : ∀ k ∈ ["additional_config", "entry_points", "environment"].map String.points,
      k ∈ ["entry_points".points, "environment".points, "additional_config".points] := by
    decide
  exact .inr ⟨_, rfl, ⟨hkeys, .inl (isArray_map fun e _ => e.in_value), rfl, rfl⟩⟩

end Activation

section Words

theorem word_isolations : ∀ t ∈ ISOLATIONS, IsWord t := by
  decide

theorem word_kinds : ∀ t ∈ KINDS, IsWord t := by
  decide

theorem word_runtimes : ∀ t ∈ RUNTIMES, IsWord t := by
  decide

theorem word_owners : ∀ t ∈ LIFECYCLE_OWNERS, IsWord t := by
  decide

theorem word_carriers : ∀ t ∈ CARRIERS, IsWord t := by
  decide

theorem word_statuses : ∀ t ∈ STATUSES, IsWord t := by
  decide

theorem word_mode (mode : ClaimMode) : IsWord mode.name := by
  cases mode <;> decide

end Words

section Specs

section Versions

variable [Packaging]

theorem parseHost_ok {h : HostSpec} :
    parseHost value = .ok h ↔ h.Valid ∧ IsObject h.In value := by
  constructor
  · intro hr
    obtain ⟨_, hf, hr⟩ := bind_ok.mp hr
    obtain ⟨ho, hkeys⟩ := between_ok.mp hf
    obtain ⟨_, hprovider, hp, hr⟩ := string_seq.mp hr
    obtain ⟨hidentifier, hr⟩ := require_seq.mp hr
    obtain ⟨_, hname, hn, hr⟩ := string_seq.mp hr
    obtain ⟨_, _, hrange, hv, hr⟩ := item_seq.mp hr
    obtain ⟨_, ha, hr⟩ := bind_ok.mp hr
    cases hr
    obtain ⟨rfl, hspecifier⟩ := specifier_ok.mp hv
    obtain ⟨hapi, hoptional⟩ := optionalSpecifier_ok.mp ha
    exact ⟨⟨⟨hp, hidentifier⟩, hn, hspecifier, hoptional⟩, _, ho,
      ⟨hkeys, hprovider, hname, hrange, hapi⟩⟩
  · rintro ⟨hv, fields, rfl, hi⟩
    refine bind_ok.mpr ⟨_, between_ok.mpr ⟨rfl, hi.keys⟩, ?_⟩
    refine string_seq.mpr ⟨_, hi.provider, hv.provider.left, ?_⟩
    refine require_seq.mpr ⟨hv.provider.right, ?_⟩
    refine string_seq.mpr ⟨_, hi.name, hv.name, ?_⟩
    refine item_seq.mpr ⟨_, _, hi.versionRange, specifier_ok.mpr ⟨rfl, hv.versionRange⟩, ?_⟩
    exact bind_ok.mpr ⟨_, optionalSpecifier_ok.mpr ⟨hi.apiRange, hv.apiRange⟩, rfl⟩

omit [Packaging] in
theorem HostSpec.in_value (h : HostSpec) : IsObject h.In h.value :=
  ⟨_, rfl, ⟨covers_value ["api_range", "name", "provider", "version_range"] rfl (by decide), rfl,
    rfl, rfl, rfl⟩⟩

omit [Packaging] in
theorem parseRuntime_ok {r : RuntimeSpec} :
    parseRuntime value = .ok r ↔ r.Valid ∧ IsObject r.In value := by
  constructor
  · intro h
    obtain ⟨_, hf, h⟩ := bind_ok.mp h
    obtain ⟨ho, hkeys⟩ := exactly_ok.mp hf
    obtain ⟨_, htype, -, h⟩ := string_seq.mp h
    obtain ⟨_, ht, h⟩ := bind_ok.mp h
    obtain ⟨_, hscope, hs, h⟩ := string_seq.mp h
    obtain ⟨_, hisolation, hi, h⟩ := string_seq.mp h
    cases h
    exact ⟨⟨known_one.mp ht, hs, hi⟩, _, ho, ⟨hkeys, htype, hscope, hisolation⟩⟩
  · rintro ⟨hv, fields, rfl, hi⟩
    refine bind_ok.mpr ⟨_, exactly_ok.mpr ⟨rfl, hi.keys⟩, ?_⟩
    refine string_seq.mpr ⟨_, hi.type, word_runtimes _ hv.type, ?_⟩
    refine bind_ok.mpr ⟨(), known_one.mpr hv.type, ?_⟩
    refine string_seq.mpr ⟨_, hi.processScope, hv.processScope, ?_⟩
    exact string_seq.mpr ⟨_, hi.isolation, hv.isolation, rfl⟩

omit [Packaging] in
theorem RuntimeSpec.in_value (r : RuntimeSpec) : IsObject r.In r.value :=
  ⟨_, rfl, ⟨hasFields_value ["isolation", "process_scope", "type"] rfl (by decide), rfl, rfl, rfl⟩⟩

theorem protocol_ok {p : ProtocolSpec} :
    protocol raw index = .ok p ↔ p.Valid ∧ IsObject p.In raw := by
  constructor
  · intro h
    obtain ⟨_, hf, h⟩ := bind_ok.mp h
    obtain ⟨ho, hkeys⟩ := exactly_ok.mp hf
    obtain ⟨_, hname, hn, h⟩ := string_seq.mp h
    obtain ⟨_, _, hrange, hr, h⟩ := item_seq.mp h
    cases h
    obtain ⟨rfl, hoptional⟩ := optionalSpecifier_ok.mp hr
    exact ⟨⟨hn, hoptional⟩, _, ho, ⟨hkeys, hname, hrange⟩⟩
  · rintro ⟨hv, fields, rfl, hi⟩
    refine bind_ok.mpr ⟨_, exactly_ok.mpr ⟨rfl, hi.keys⟩, ?_⟩
    refine string_seq.mpr ⟨_, hi.name, hv.name, ?_⟩
    exact item_seq.mpr ⟨_, _, hi.versionRange, optionalSpecifier_ok.mpr ⟨rfl, hv.versionRange⟩, rfl⟩

omit [Packaging] in
theorem ProtocolSpec.in_value (p : ProtocolSpec) : IsObject p.In p.value :=
  ⟨_, rfl, ⟨hasFields_value ["name", "version_range"] rfl (by decide), rfl, rfl⟩⟩

theorem service_ok {s : RequiredService} :
    service raw index = .ok s ↔ s.Valid ∧ IsObject s.In raw := by
  constructor
  · intro h
    obtain ⟨_, hf, h⟩ := bind_ok.mp h
    obtain ⟨ho, hkeys⟩ := between_ok.mp hf
    obtain ⟨_, hoptional, h⟩ := bind_ok.mp h
    obtain ⟨_, hid, hi, h⟩ := string_seq.mp h
    obtain ⟨_, hprotocol, hp, h⟩ := string_seq.mp h
    obtain ⟨_, _, hrange, hr, h⟩ := item_seq.mp h
    obtain ⟨_, hendpoint, he, h⟩ := string_seq.mp h
    cases h
    obtain ⟨rfl, hspecifier⟩ := optionalSpecifier_ok.mp hr
    exact ⟨⟨hi, hp, hspecifier, he⟩, _, ho,
      ⟨hkeys, hid, hprotocol, hrange, hendpoint, boolean_ok.mp hoptional⟩⟩
  · rintro ⟨hv, fields, rfl, hi⟩
    refine bind_ok.mpr ⟨_, between_ok.mpr ⟨rfl, hi.keys⟩, ?_⟩
    refine bind_ok.mpr ⟨_, boolean_ok.mpr hi.optional, ?_⟩
    refine string_seq.mpr ⟨_, hi.serviceId, hv.serviceId, ?_⟩
    refine string_seq.mpr ⟨_, hi.protocol, hv.protocol, ?_⟩
    refine item_seq.mpr ⟨_, _, hi.versionRange,
      optionalSpecifier_ok.mpr ⟨rfl, hv.versionRange⟩, ?_⟩
    exact string_seq.mpr ⟨_, hi.endpointConfig, hv.endpointConfig, rfl⟩

omit [Packaging] in
theorem RequiredService.in_value (s : RequiredService) : IsObject s.In s.value :=
  ⟨_, rfl, ⟨covers_value ["endpoint_config", "optional", "protocol", "service_id", "version_range"]
    rfl (by decide), rfl, rfl, rfl, rfl, rfl⟩⟩

theorem dependency_ok {d : RequiredExtension} :
    dependency raw index = .ok d ↔ d.Valid ∧ IsObject d.In raw := by
  constructor
  · intro h
    obtain ⟨_, hf, h⟩ := bind_ok.mp h
    obtain ⟨ho, hkeys⟩ := exactly_ok.mp hf
    obtain ⟨_, hid, hi, h⟩ := string_seq.mp h
    obtain ⟨hidentifier, h⟩ := require_seq.mp h
    obtain ⟨_, _, hrange, hr, h⟩ := item_seq.mp h
    cases h
    obtain ⟨rfl, hspecifier⟩ := specifier_ok.mp hr
    exact ⟨⟨⟨hi, hidentifier⟩, hspecifier⟩, _, ho, ⟨hkeys, hid, hrange⟩⟩
  · rintro ⟨hv, fields, rfl, hi⟩
    refine bind_ok.mpr ⟨_, exactly_ok.mpr ⟨rfl, hi.keys⟩, ?_⟩
    refine string_seq.mpr ⟨_, hi.extensionId, hv.extensionId.left, ?_⟩
    refine require_seq.mpr ⟨hv.extensionId.right, ?_⟩
    exact item_seq.mpr ⟨_, _, hi.versionRange, specifier_ok.mpr ⟨rfl, hv.versionRange⟩, rfl⟩

omit [Packaging] in
theorem RequiredExtension.in_value (d : RequiredExtension) : IsObject d.In d.value :=
  ⟨_, rfl, ⟨hasFields_value ["extension_id", "version_range"] rfl (by decide), rfl, rfl⟩⟩

theorem parseProtocols_ok {ps : List ProtocolSpec} : parseProtocols value = .ok ps ↔
    (∀ p ∈ ps, p.Valid) ∧ IsArray ProtocolSpec.In ps value :=
  array_items fun _ _ _ => protocol_ok

theorem parseServices_ok {ss : List RequiredService} : parseServices value = .ok ss ↔
    (∀ s ∈ ss, s.Valid) ∧ IsArray RequiredService.In ss value :=
  array_items fun _ _ _ => service_ok

theorem parseExtensionDependencies_ok {ds : List RequiredExtension} :
    parseExtensionDependencies value = .ok ds ↔
      ((∀ d ∈ ds, d.Valid) ∧ (ds.map (·.extensionId)).Nodup) ∧
        IsArray RequiredExtension.In ds value := by
  refine (array_seq fun _ _ _ => dependency_ok).trans ⟨?_, ?_⟩
  · rintro ⟨_, ⟨hv, hi⟩, h⟩
    obtain ⟨hn, h⟩ := require_seq.mp h
    cases h
    exact ⟨⟨hv, hn⟩, hi⟩
  · rintro ⟨⟨hv, hn⟩, hi⟩
    exact ⟨ds, ⟨hv, hi⟩, require_seq.mpr ⟨hn, rfl⟩⟩

end Versions

end Specs

section Claims

variable {c : ResourceClaim}

theorem lookup_mode {mode : ClaimMode} : claimModes.lookup t = some mode ↔ t = mode.name := by
  constructor
  · intro h
    rw [claimModes, List.lookup_cons, List.lookup_cons, List.lookup_nil] at h
    split at h
    case h_1 he =>
      cases h
      exact beq_iff_eq.mp he
    split at h
    case h_1 he =>
      cases h
      exact beq_iff_eq.mp he
    case h_2 => cases h
  · rintro rfl
    cases mode <;> decide

theorem known_mode (mode : ClaimMode) : mode.name ∈ claimModes.map (·.1) := by
  cases mode <;> decide

theorem resourceClaim_ok : resourceClaim raw index = .ok c ↔ c.Valid ∧ IsObject c.In raw := by
  constructor
  · intro h
    obtain ⟨_, hf, h⟩ := bind_ok.mp h
    obtain ⟨ho, hkeys⟩ := exactly_ok.mp hf
    obtain ⟨_, hresource, hr, h⟩ := string_seq.mp h
    obtain ⟨_, hscope, hs, h⟩ := string_seq.mp h
    obtain ⟨_, hmode, -, h⟩ := string_seq.mp h
    obtain ⟨⟨hr', hs'⟩, h⟩ := require_seq.mp h
    obtain ⟨_, -, h⟩ := bind_ok.mp h
    split at h
    case h_1 mode hl =>
      cases h
      rw [lookup_mode.mp hl] at hmode
      exact ⟨⟨⟨hr, hr'⟩, ⟨hs, hs'⟩⟩, _, ho, ⟨hkeys, hresource, hscope, hmode⟩⟩
    case h_2 => cases h
  · rintro ⟨hv, fields, rfl, hi⟩
    refine bind_ok.mpr ⟨_, exactly_ok.mpr ⟨rfl, hi.keys⟩, ?_⟩
    refine string_seq.mpr ⟨_, hi.resource, hv.resource.left, ?_⟩
    refine string_seq.mpr ⟨_, hi.scope, hv.scope.left, ?_⟩
    refine string_seq.mpr ⟨_, hi.mode, word_mode c.mode, ?_⟩
    refine require_seq.mpr ⟨⟨hv.resource.right, hv.scope.right⟩, ?_⟩
    refine bind_ok.mpr ⟨(), known_one.mpr (known_mode c.mode), ?_⟩
    rw [lookup_mode.mpr rfl]
    rfl

theorem ResourceClaim.in_value (c : ResourceClaim) : IsObject c.In c.value :=
  ⟨_, rfl, ⟨hasFields_value ["mode", "resource", "scope"] rfl (by decide), rfl, rfl, rfl⟩⟩

theorem parseResourceClaims_ok {cs : List ResourceClaim} : parseResourceClaims value = .ok cs ↔
    ((∀ c ∈ cs, c.Valid) ∧ cs.Nodup) ∧ IsArray ResourceClaim.In cs value := by
  refine (array_seq fun _ _ _ => resourceClaim_ok).trans ⟨?_, ?_⟩
  · rintro ⟨_, ⟨hv, hi⟩, h⟩
    obtain ⟨hn, h⟩ := require_seq.mp h
    cases h
    exact ⟨⟨hv, hn⟩, hi⟩
  · rintro ⟨⟨hv, hn⟩, hi⟩
    exact ⟨cs, ⟨hv, hi⟩, require_seq.mpr ⟨hn, rfl⟩⟩

end Claims

section Components

variable [Alphanumeric]

theorem component_ok {c : BundleComponent} :
    component raw index = .ok c ↔ c.Valid ∧ IsObject c.In raw := by
  constructor
  · intro h
    obtain ⟨_, hf, h⟩ := bind_ok.mp h
    obtain ⟨ho, hkeys⟩ := between_ok.mp hf
    obtain ⟨_, hid, hi, h⟩ := string_seq.mp h
    obtain ⟨hidentifier, h⟩ := require_seq.mp h
    obtain ⟨_, _, hcontracts, hc, h⟩ := item_seq.mp h
    obtain ⟨hstart, h⟩ := require_seq.mp h
    obtain ⟨_, _, hplanes, hp, h⟩ := item_seq.mp h
    obtain ⟨_, hknown, h⟩ := bind_ok.mp h
    obtain ⟨_, hisolation, -, h⟩ := string_seq.mp h
    obtain ⟨_, hone, h⟩ := bind_ok.mp h
    obtain ⟨_, href, hr, h⟩ := string_seq.mp h
    obtain ⟨himplementation, h⟩ := require_seq.mp h
    obtain ⟨_, hpermissions, h⟩ := bind_ok.mp h
    obtain ⟨_, hallowed, h⟩ := bind_ok.mp h
    cases h
    obtain ⟨rfl, hdistinct⟩ := strings_ok.mp hc
    obtain ⟨rfl, hplanes'⟩ := strings_ok.mp hp
    obtain ⟨hget, hnodup⟩ := strings_ok.mp hpermissions
    refine ⟨?valid, _, ho, ⟨hkeys, hid, hcontracts, hplanes, hisolation, href, hget⟩⟩
    exact {
      componentId       := ⟨hi, hidentifier⟩
      contracts         := ⟨hdistinct, hstart⟩
      executionPlanes   := ⟨hplanes', known_ok.mp hknown⟩
      isolation         := known_one.mp hone
      implementationRef := ⟨hr, himplementation⟩
      permissions       := ⟨hnodup, known_ok.mp hallowed⟩
    }
  · rintro ⟨hv, fields, rfl, hi⟩
    refine bind_ok.mpr ⟨_, between_ok.mpr ⟨rfl, hi.keys⟩, ?_⟩
    refine string_seq.mpr ⟨_, hi.componentId, hv.componentId.left, ?_⟩
    refine require_seq.mpr ⟨hv.componentId.right, ?_⟩
    refine item_seq.mpr ⟨_, _, hi.contracts, strings_ok.mpr ⟨rfl, hv.contracts.left⟩, ?_⟩
    refine require_seq.mpr ⟨hv.contracts.right, ?_⟩
    refine item_seq.mpr ⟨_, _, hi.executionPlanes,
      strings_ok.mpr ⟨rfl, hv.executionPlanes.left⟩, ?_⟩
    refine bind_ok.mpr ⟨(), known_ok.mpr hv.executionPlanes.right, ?_⟩
    refine string_seq.mpr ⟨_, hi.isolation, word_isolations _ hv.isolation, ?_⟩
    refine bind_ok.mpr ⟨(), known_one.mpr hv.isolation, ?_⟩
    refine string_seq.mpr ⟨_, hi.implementationRef, hv.implementationRef.left, ?_⟩
    refine require_seq.mpr ⟨hv.implementationRef.right, ?_⟩
    refine bind_ok.mpr ⟨_, strings_ok.mpr ⟨hi.permissions, hv.permissions.left⟩, ?_⟩
    exact bind_ok.mpr ⟨(), known_ok.mpr hv.permissions.right, rfl⟩

omit [Alphanumeric] in
theorem BundleComponent.in_value (c : BundleComponent) : IsObject c.In c.value :=
  ⟨_, rfl, ⟨covers_value ["component_id", "contracts", "execution_planes", "implementation_ref",
    "isolation", "permissions"] rfl (by decide), rfl, rfl, rfl, rfl, rfl, rfl⟩⟩

theorem checkModule_ok {attributes : Fields} {here : Text} {u : Unit} :
    checkModule attributes here = .ok u ↔ IsModule attributes := by
  constructor
  · intro h
    obtain ⟨hfields, h⟩ := require_seq.mp h
    obtain ⟨_, _, hmodule, hm, h⟩ := item_seq.mp h
    obtain ⟨_, _, hobject, ho, h⟩ := item_seq.mp h
    obtain ⟨_, _, hstatus, hs, h⟩ := item_seq.mp h
    obtain ⟨hpath, h⟩ := require_seq.mp h
    obtain ⟨hname, h⟩ := require_seq.mp h
    obtain ⟨rfl, hword⟩ := string_ok.mp hm
    obtain ⟨rfl, hword'⟩ := string_ok.mp ho
    obtain ⟨rfl, -⟩ := string_ok.mp hs
    exact ⟨hfields, ⟨_, hmodule, hword, hpath⟩, ⟨_, hobject, hword', hname⟩,
      ⟨_, hstatus, require_ok.mp h⟩⟩
  · intro h
    obtain ⟨module', hmodule, hm, hpath⟩ := h.module
    obtain ⟨object, hobject, ho, hname⟩ := h.object
    obtain ⟨status, hstatus, hs⟩ := h.status
    refine require_seq.mpr ⟨h.fields, ?_⟩
    refine item_seq.mpr ⟨_, _, hmodule, string_ok.mpr ⟨rfl, hm⟩, ?_⟩
    refine item_seq.mpr ⟨_, _, hobject, string_ok.mpr ⟨rfl, ho⟩, ?_⟩
    refine item_seq.mpr ⟨_, _, hstatus, string_ok.mpr ⟨rfl, word_statuses _ hs⟩, ?_⟩
    exact require_seq.mpr ⟨hpath, require_seq.mpr ⟨hname, require_ok.mpr hs⟩⟩

omit [Alphanumeric] in
theorem keys_without {key k : Text} :
    k ∈ Fields.keys (fields.filter (·.1 ≠ key)) ↔ k ∈ fields.keys ∧ k ≠ key := by
  simp [Fields.keys]

theorem carrier_ok {c : ImplementationCarrier} (hv : raw.Ordered) :
    carrier raw index = .ok c ↔ c.Valid ∧ IsObject c.In raw := by
  constructor
  · intro h
    obtain ⟨fields, ho, h⟩ := bind_ok.mp h
    have ho := object_ok.mp ho
    obtain ⟨hsorted, hitems⟩ := isDict_of_ordered (ho ▸ hv)
    obtain ⟨type, hget, h⟩ := bind_ok.mp h
    obtain ⟨hget, -⟩ := string_ok.mp hget
    obtain ⟨_, htype, h⟩ := bind_ok.mp h
    dsimp only at h
    obtain ⟨hne, h⟩ := require_seq.mp h
    have hdict : IsDict (fields.filter (·.1 ≠ "type".points)) :=
      ⟨hsorted.filter _, fun f hf => hitems f (List.mem_filter.mp hf).left⟩
    have hno : "type".points ∉ Fields.keys (fields.filter (·.1 ≠ "type".points)) :=
      fun hk => (keys_without.mp hk).right rfl
    split at h
    case isTrue  =>
      obtain ⟨_, hmodule, h⟩ := bind_ok.mp h
      cases h
      exact ⟨⟨known_one.mp htype, ⟨hdict, hne, hno⟩, fun _ => checkModule_ok.mp hmodule⟩,
        fields, ho, ⟨hget, rfl⟩⟩
    case isFalse hm =>
      cases h
      exact ⟨⟨known_one.mp htype, ⟨hdict, hne, hno⟩, fun he => absurd he hm⟩,
        fields, ho, ⟨hget, rfl⟩⟩
  · rintro ⟨h, fields, rfl, hi⟩
    refine bind_ok.mpr ⟨_, object_ok.mpr rfl, ?_⟩
    refine bind_ok.mpr ⟨_, string_ok.mpr ⟨hi.type, word_carriers _ h.type⟩, ?_⟩
    refine bind_ok.mpr ⟨(), known_one.mpr h.type, ?_⟩
    dsimp only
    rw [hi.attributes]
    refine require_seq.mpr ⟨h.attributes.right.left, ?_⟩
    split
    case isTrue hm  => exact bind_ok.mpr ⟨(), checkModule_ok.mpr (h.module hm), rfl⟩
    case isFalse    => rfl

-- The attributes are what is left without the type.
theorem attributes_value {c : ImplementationCarrier} (h : c.Valid) :
    (Fields.insert c.attributes "type".points (.str c.type)).filter (·.1 ≠ "type".points) =
      c.attributes := by
  obtain ⟨⟨hsorted, -⟩, -, hno⟩ := h.attributes
  refine Fields.eq_of_get? ((Fields.insert_sorted hsorted hno).filter _) hsorted fun k => ?_
  rw [Fields.get?_without, Fields.get?_insert hno]
  split
  case isTrue hk  => exact hk ▸ (get?_eq_none hno).symm
  case isFalse hk => rfl

theorem ImplementationCarrier.in_value {c : ImplementationCarrier} (h : c.Valid) :
    IsObject c.In c.value := by
  obtain ⟨-, -, hno⟩ := h.attributes
  refine ⟨_, rfl, ⟨?_, attributes_value h⟩⟩
  rw [get, Fields.get?_insert hno, if_pos rfl]
  rfl

theorem parseImplementation_ok {cs : List ImplementationCarrier} (hv : value.Ordered) :
    parseImplementation value = .ok cs ↔
      (cs ≠ [] ∧ ∀ c ∈ cs, c.Valid) ∧ IsArray ImplementationCarrier.In cs value := by
  have hitems {items : List Value} (hv : (Value.arr items).Ordered) :
      mapItems items carrier = .ok cs ↔ (∀ c ∈ cs, c.Valid) ∧
        List.Forall₂ (fun c raw => IsObject (ImplementationCarrier.In c) raw) cs items := by
    cases hv with | arr hall =>
    exact mapItems_ok fun raw hm _ _ => carrier_ok (hall raw hm)
  constructor
  · intro h
    obtain ⟨items, harray, h⟩ := bind_ok.mp h
    obtain ⟨hne, hcarriers⟩ := require_seq.mp h
    cases array_ok.mp harray
    obtain ⟨hvalid, hi⟩ := (hitems hv).mp hcarriers
    refine ⟨⟨?_, hvalid⟩, items, rfl, hi⟩
    rintro rfl
    exact hne (List.forall₂_nil_left_iff.mp hi)
  · rintro ⟨⟨hne, hvalid⟩, items, rfl, hi⟩
    refine bind_ok.mpr ⟨_, array_ok.mpr rfl, require_seq.mpr ⟨?_, (hitems hv).mpr ⟨hvalid, hi⟩⟩⟩
    rintro rfl
    exact hne (List.forall₂_nil_right_iff.mp hi)

end Components

end Manifest
