import ExtManager.Manifest.Items
import ExtManager.Provider.Launch

-- What is read is valid, and what is valid is read as it has been written.
namespace Manifest

open Fallible

variable [Packaging] [Alphanumeric]
variable {m : BundleManifest} {payload value : Value} {fields : Fields} {t : Text}

section Legacy

-- The manifest of the first schema with this range.
def BundleManifest.legacy (m : BundleManifest) (hostApiRange : Text) : BundleManifest := { m with
  hostApiRange
  schemaVersion      := "1.0".points
  kind               := "legacy_vllm_bundle".points
  host               := ⟨"vllm".points, "vllm".points, ">=0".points, some ">=1,<2".points⟩
  runtime            := ⟨"python".points, "vllm_processes".points, "trusted_in_process".points⟩
  lifecycleOwner     := "vllm".points
  protocols          := []
  implementation     := []
  requiresServices   := []
  requiresExtensions := []
  resourceClaims     := [] }

omit [Alphanumeric] in
theorem legacy_eq (hl : m.Legacy) : m.legacy m.hostApiRange = m := by
  obtain ⟨hprotocols, himplementation, hservices, hextensions, hclaims⟩ := hl.nothing
  rw [BundleManifest.legacy, ← hl.schemaVersion, ← hl.kind, ← hl.host, ← hl.runtime, ← hl.owner]
  rw [← hprotocols, ← himplementation, ← hservices, ← hextensions, ← hclaims]

omit [Packaging] [Alphanumeric] in
theorem mem_legacyFields {k : Text} : k ∈ ["activation".points, "schema_version".points,
      "bundle_id".points, "bundle_version".points, "host_api_range".points, "components".points] ↔
    k ∈ (["schema_version", "bundle_id", "bundle_version", "host_api_range", "components"] ++
      ["activation"]).map String.points :=
  (List.perm_append_singleton "activation".points _).mem_iff.symm

theorem parseLegacyManifest_of (hv : (Value.obj fields).Ordered) (h : m.Valid) (hl : m.Legacy)
    (hi : m.LegacyIn fields) : parseLegacyManifest (.obj fields) = .ok m := by
  obtain ⟨_, hraw, items, rfl, hitems⟩ := hi.components
  have hne : items ≠ [] := by
    rintro rfl
    exact hl.components (List.forall₂_nil_right_iff.mp hitems)
  have hcomponents : mapItems items component = .ok m.components :=
    (mapItems_ok fun _ _ _ _ => component_ok).mpr ⟨h.components.left, hitems⟩
  have hactivation := (parseActivation_ok (ordered_get hv _ .null)).mpr
    ⟨h.activation, hi.activation⟩
  refine bind_ok.mpr ⟨_, object_ok.mpr rfl, bind_ok.mpr ⟨(), nothing_ok.mpr ?known, ?_⟩⟩
  case known   => exact fun k hk => mem_legacyFields.mpr (hi.keys.left k hk)
  refine bind_ok.mpr ⟨(), nothing_ok.mpr ?present, ?_⟩
  case present => exact List.forall_mem_map.mpr hi.keys.right
  refine item_seq.mpr ⟨_, (), hi.schemaVersion, require_ok.mpr (hl.schemaVersion ▸ rfl), ?_⟩
  refine string_seq.mpr ⟨_, hi.bundleId, h.bundleId.left, ?_⟩
  refine require_seq.mpr ⟨h.bundleId.right, ?_⟩
  refine item_seq.mpr ⟨_, _, hi.bundleVersion, version_ok.mpr ⟨rfl, h.bundleVersion⟩, ?_⟩
  refine item_seq.mpr ⟨_, _, hi.hostApiRange, hostApiRange_ok.mpr ⟨rfl, hl.hostApiRange⟩, ?_⟩
  refine item_seq.mpr ⟨_, _, hraw, array_ok.mpr rfl, require_seq.mpr ⟨hne, ?_⟩⟩
  refine bind_ok.mpr ⟨_, hcomponents, require_seq.mpr ⟨h.components.right, ?_⟩⟩
  exact bind_ok.mpr ⟨_, hactivation, congrArg Except.ok (legacy_eq hl)⟩

theorem parseLegacyManifest_ok (hv : payload.Ordered) : parseLegacyManifest payload = .ok m ↔
    m.Valid ∧ m.Legacy ∧ IsObject m.LegacyIn payload := by
  constructor
  · intro h
    obtain ⟨fields, ho, h⟩ := bind_ok.mp h
    have ho := object_ok.mp ho
    have hv : (Value.obj fields).Ordered := ho ▸ hv
    obtain ⟨_, hknown, h⟩ := bind_ok.mp h
    obtain ⟨_, hpresent, h⟩ := bind_ok.mp h
    obtain ⟨_, _, hschema, hs, h⟩ := item_seq.mp h
    cases require_ok.mp hs
    obtain ⟨_, hid, hi, h⟩ := string_seq.mp h
    obtain ⟨hidentifier, h⟩ := require_seq.mp h
    obtain ⟨_, _, hbundle, hv', h⟩ := item_seq.mp h
    obtain ⟨rfl, hversion⟩ := version_ok.mp hv'
    obtain ⟨_, _, hget, hr, h⟩ := item_seq.mp h
    obtain ⟨rfl, hrange⟩ := hostApiRange_ok.mp hr
    obtain ⟨_, items, hraw, harray, h⟩ := item_seq.mp h
    cases array_ok.mp harray
    obtain ⟨hne, h⟩ := require_seq.mp h
    obtain ⟨components, hcomponents, h⟩ := bind_ok.mp h
    obtain ⟨hnodup, h⟩ := require_seq.mp h
    obtain ⟨_, hactivation, h⟩ := bind_ok.mp h
    obtain ⟨hcomponents, hitems⟩ := (mapItems_ok fun _ _ _ _ => component_ok).mp hcomponents
    obtain ⟨hactivation, his⟩ := (parseActivation_ok (ordered_get hv _ .null)).mp hactivation
    have hcs : components ≠ [] := by
      rintro rfl
      exact hne (List.forall₂_nil_left_iff.mp hitems)
    have hkeys : Covers fields ["schema_version", "bundle_id", "bundle_version", "host_api_range",
        "components"] ["activation"] :=
      ⟨fun k hk => mem_legacyFields.mp (nothing_ok.mp hknown k hk),
        List.forall_mem_map.mp (nothing_ok.mp hpresent)⟩
    have hm := Except.ok.inj h
    have hl : m.Legacy := by
      rw [← hm]
      exact ⟨rfl, hrange, hcs, rfl, rfl, rfl, rfl, ⟨rfl, rfl, rfl, rfl, rfl⟩⟩
    subst hm
    refine ⟨?valid, hl, fields, ho, ⟨hkeys, hschema, hid, hbundle, hget, ?_, his⟩⟩
    case valid => exact ⟨⟨hi, hidentifier⟩, hversion, ⟨hcomponents, hnodup⟩, hactivation, .inl hl⟩
    exact ⟨_, hraw, items, rfl, hitems⟩
  · rintro ⟨h, hl, fields, rfl, hi⟩
    exact parseLegacyManifest_of hv h hl hi

omit [Packaging] [Alphanumeric] in
theorem BundleManifest.legacyIn_value (hs : m.schemaVersion = "1.0".points) :
    IsObject m.LegacyIn m.legacyValue := by
  have hcomponents : IsArray BundleComponent.In m.components (.arr (m.components.map (·.value))) :=
    isArray_map fun c _ => c.in_value
  refine ⟨_, rfl, ⟨?_, hs ▸ rfl, rfl, rfl, rfl, ⟨_, rfl, hcomponents⟩, m.activation.is_value⟩⟩
  exact covers_value ["activation", "bundle_id", "bundle_version", "components", "host_api_range",
    "schema_version"] rfl (by decide)

end Legacy

section Experimental

variable [PythonJson]

omit [Packaging] [Alphanumeric] [PythonJson] in
theorem experimentalSchema_ok : experimentalSchema value = .ok t ↔
    value = .str t ∧ t ∈ experimentalSchemas := by
  cases value
  case str s =>
    refine require_seq.trans ⟨?_, ?_⟩
    · rintro ⟨hs, h⟩
      cases h
      exact ⟨rfl, hs⟩
    · rintro ⟨h, hs⟩
      cases h
      exact ⟨hs, rfl⟩
  all_goals
    constructor
    · intro h
      cases h
    · rintro ⟨h, -⟩
      cases h

omit [PythonJson] in
-- The components are read as those of a manifest of the first schema.
theorem legacy_valid (h : m.Valid) (he : m.Experimental) (hc : m.components ≠ []) :
    (m.legacy ">=1,<2".points).Valid ∧ (m.legacy ">=1,<2".points).Legacy := by
  have hl : (m.legacy ">=1,<2".points).Legacy := {
    schemaVersion := rfl
    hostApiRange  := ⟨(by decide : IsWord ">=1,<2".points), he.components hc⟩
    components    := hc
    kind          := rfl
    host          := rfl
    runtime       := rfl
    owner         := rfl
    nothing       := ⟨rfl, rfl, rfl, rfl, rfl⟩
  }
  exact ⟨⟨h.bundleId, h.bundleVersion, h.components, h.activation, .inl hl⟩, hl⟩

omit [Packaging] [Alphanumeric] [PythonJson] in
theorem legacy_ordered {extensionId version : Text} (hv : (Value.obj fields).Ordered) :
    (Value.obj [("activation".points, get fields "activation"),
      ("bundle_id".points, .str extensionId), ("bundle_version".points, .str version),
      ("components".points, get fields "components"),
      ("host_api_range".points, .str ">=1,<2".points),
      ("schema_version".points, .str "1.0".points)]).Ordered := by
  have hactivation : (get fields "activation").Ordered := ordered_get hv _ .null
  have hcomponents : (get fields "components").Ordered := ordered_get hv _ .null
  exact ordered_obj ["activation", "bundle_id", "bundle_version", "components", "host_api_range",
    "schema_version"] rfl (by decide) (by simp [hactivation, hcomponents, Value.Ordered.str])

theorem parseComponents_ok {extensionId version : Text} {cs : List BundleComponent}
    (hv : (Value.obj fields).Ordered) (h : parseComponents fields extensionId version = .ok cs) :
    ((∀ c ∈ cs, c.Valid) ∧ (cs.map (·.componentId)).Nodup) ∧
      (cs ≠ [] → hostApi? ">=1,<2".points = some true) ∧
      (IsArray BundleComponent.In cs (get fields "components") ∨
        ¬truthy (get fields "components") ∧ cs = []) := by
  rw [parseComponents] at h
  split at h
  case isTrue  =>
    obtain ⟨legacy, hlegacy, h⟩ := bind_ok.mp h
    cases h
    obtain ⟨hvalid, hl, _, ho, hi⟩ := (parseLegacyManifest_ok (legacy_ordered hv)).mp hlegacy
    cases ho
    have hr : ">=1,<2".points = legacy.hostApiRange :=
      Value.str.inj (Option.some.inj hi.hostApiRange)
    obtain ⟨_, hget, hin⟩ := hi.components
    cases hget
    exact ⟨hvalid.components, fun _ => hr ▸ hl.hostApiRange.right, .inl hin⟩
  case isFalse ht =>
    cases h
    exact ⟨⟨List.forall_mem_nil _, .nil⟩, fun hne => absurd rfl hne, .inr ⟨ht, rfl⟩⟩

theorem parseComponents_of (h : m.Valid) (he : m.Experimental) (hv : (Value.obj fields).Ordered)
    (hi : m.ExperimentalIn fields) :
    parseComponents fields m.bundleId m.bundleVersion = .ok m.components := by
  rw [parseComponents]
  rcases hi.components with ⟨items, hget, hitems⟩ | ⟨ht, hm⟩
  case inr =>
    rw [if_neg ht, hm]
  case inl =>
    by_cases hm : m.components = []
    case pos =>
      rw [hm] at hitems
      rw [hget, List.forall₂_nil_left_iff.mp hitems, hm]
      rfl
    case neg =>
      have hne : items ≠ [] := by
        rintro rfl
        exact hm (List.forall₂_nil_right_iff.mp hitems)
      obtain ⟨hvalid, hl⟩ := legacy_valid h he hm
      have hlegacy := (parseLegacyManifest_ok (legacy_ordered hv)).mpr
        ⟨hvalid, hl, _, rfl, ⟨covers_value ["activation", "bundle_id", "bundle_version",
          "components", "host_api_range", "schema_version"] rfl (by decide), rfl, rfl, rfl, rfl,
          ⟨_, rfl, items, hget, hitems⟩, hi.activation⟩⟩
      rw [if_pos (hget ▸ show truthy (.arr items) from decide_eq_true hne)]
      exact bind_ok.mpr ⟨_, hlegacy, rfl⟩

theorem parseExperimentalManifest_of (hv : (Value.obj fields).Ordered) (h : m.Valid)
    (he : m.Experimental) (hi : m.ExperimentalIn fields) :
    parseExperimentalManifest (.obj fields) = .ok m := by
  obtain ⟨_, hgethost, hinhost⟩ := hi.host
  obtain ⟨_, hgetruntime, hinruntime⟩ := hi.runtime
  obtain ⟨_, hgetprotocols, hinprotocols⟩ := hi.protocols
  obtain ⟨_, hgetimplementation, hinimplementation⟩ := hi.implementation
  obtain ⟨_, hgetservices, hinservices⟩ := hi.requiresServices
  have hordered : (Value.Ordered _) := ordered_get hv "implementation".points .null
  rw [hgetimplementation, Option.getD_some] at hordered
  have hactivation := (parseActivation_ok (ordered_get hv _ .null)).mpr
    ⟨h.activation, hi.activation⟩
  have himplementation := (parseImplementation_ok hordered).mpr
    ⟨he.implementation, hinimplementation⟩
  have hextensions := parseExtensionDependencies_ok.mpr
    ⟨he.requiresExtensions, hi.requiresExtensions⟩
  have hclaims := parseResourceClaims_ok.mpr ⟨he.resourceClaims, hi.resourceClaims⟩
  refine bind_ok.mpr ⟨_, object_ok.mpr rfl, ?_⟩
  refine bind_ok.mpr ⟨_, between_ok.mpr ⟨rfl, hi.keys⟩, ?_⟩
  refine string_seq.mpr ⟨_, hi.bundleId, h.bundleId.left, ?_⟩
  refine require_seq.mpr ⟨h.bundleId.right, ?_⟩
  refine item_seq.mpr ⟨_, _, hi.bundleVersion, version_ok.mpr ⟨rfl, h.bundleVersion⟩, ?_⟩
  refine string_seq.mpr ⟨_, hi.kind, word_kinds _ he.kind, ?_⟩
  refine bind_ok.mpr ⟨(), known_one.mpr he.kind, ?_⟩
  refine string_seq.mpr ⟨_, hi.lifecycleOwner, word_owners _ he.lifecycleOwner, ?_⟩
  refine bind_ok.mpr ⟨(), known_one.mpr he.lifecycleOwner, ?_⟩
  refine bind_ok.mpr ⟨_, parseComponents_of h he hv hi, ?_⟩
  refine item_seq.mpr ⟨_, _, hi.schemaVersion,
    experimentalSchema_ok.mpr ⟨rfl, he.schemaVersion⟩, ?_⟩
  refine require_seq.mpr ⟨fun hs => (hi.older hs.left).right hs.right, ?_⟩
  refine require_seq.mpr ⟨fun hs => (hi.older hs.left).left hs.right, ?_⟩
  refine bind_ok.mpr ⟨_, hactivation, ?_⟩
  refine item_seq.mpr ⟨_, _, hgethost, parseHost_ok.mpr ⟨he.host, hinhost⟩, ?_⟩
  refine item_seq.mpr ⟨_, _, hgetruntime, parseRuntime_ok.mpr ⟨he.runtime, hinruntime⟩, ?_⟩
  refine item_seq.mpr ⟨_, _, hgetprotocols,
    parseProtocols_ok.mpr ⟨he.protocols, hinprotocols⟩, ?_⟩
  refine item_seq.mpr ⟨_, _, hgetimplementation, himplementation, ?_⟩
  refine item_seq.mpr ⟨_, _, hgetservices,
    parseServices_ok.mpr ⟨he.requiresServices, hinservices⟩, ?_⟩
  refine bind_ok.mpr ⟨_, hextensions, bind_ok.mpr ⟨_, hclaims, ?_⟩⟩
  have hm : { m with hostApiRange := ">=0".points } = m := by
    rw [← he.hostApiRange]
  exact congrArg Except.ok hm

theorem parseExperimentalManifest_ok (hv : payload.Ordered) :
    parseExperimentalManifest payload = .ok m ↔
      m.Valid ∧ m.Experimental ∧ IsObject m.ExperimentalIn payload := by
  constructor
  · intro h
    obtain ⟨_, ho, h⟩ := bind_ok.mp h
    obtain ⟨fields, hb, h⟩ := bind_ok.mp h
    obtain ⟨hfields, hkeys⟩ := between_ok.mp hb
    have ho : payload = .obj fields := (object_ok.mp ho).trans hfields
    have hv : (Value.obj fields).Ordered := ho ▸ hv
    have hitem {key : Text} {v : Value} (hg : fields.get? key = some v) : v.Ordered := by
      have hget := ordered_get hv key .null
      rwa [hg] at hget
    obtain ⟨_, hid, hi, h⟩ := string_seq.mp h
    obtain ⟨hidentifier, h⟩ := require_seq.mp h
    obtain ⟨_, _, hbundle, hv', h⟩ := item_seq.mp h
    obtain ⟨rfl, hversion⟩ := version_ok.mp hv'
    obtain ⟨_, hgetkind, -, h⟩ := string_seq.mp h
    obtain ⟨_, hkind, h⟩ := bind_ok.mp h
    obtain ⟨_, hgetowner, -, h⟩ := string_seq.mp h
    obtain ⟨_, howner, h⟩ := bind_ok.mp h
    obtain ⟨_, hcomponents, h⟩ := bind_ok.mp h
    obtain ⟨_, schemaVersion, hgetschema, hs, h⟩ := item_seq.mp h
    obtain ⟨rfl, hschema⟩ := experimentalSchema_ok.mp hs
    obtain ⟨hnoclaims, h⟩ := require_seq.mp h
    obtain ⟨hnoextensions, h⟩ := require_seq.mp h
    obtain ⟨_, hactivation, h⟩ := bind_ok.mp h
    obtain ⟨_, _, hgethost, hhost, h⟩ := item_seq.mp h
    obtain ⟨_, _, hgetruntime, hruntime, h⟩ := item_seq.mp h
    obtain ⟨_, _, hgetprotocols, hprotocols, h⟩ := item_seq.mp h
    obtain ⟨_, _, hgetimplementation, himplementation, h⟩ := item_seq.mp h
    obtain ⟨_, _, hgetservices, hservices, h⟩ := item_seq.mp h
    obtain ⟨requiresExtensions, hextensions, h⟩ := bind_ok.mp h
    obtain ⟨resourceClaims, hclaims, h⟩ := bind_ok.mp h
    cases h
    obtain ⟨hvalid, hrange, hcomponents⟩ := parseComponents_ok hv hcomponents
    obtain ⟨hactivation, his⟩ := (parseActivation_ok (ordered_get hv _ .null)).mp hactivation
    obtain ⟨hhost, hinhost⟩ := parseHost_ok.mp hhost
    obtain ⟨hruntime, hinruntime⟩ := parseRuntime_ok.mp hruntime
    obtain ⟨hprotocols, hinprotocols⟩ := parseProtocols_ok.mp hprotocols
    obtain ⟨himplementation, hinimplementation⟩ :=
      (parseImplementation_ok (hitem hgetimplementation)).mp himplementation
    obtain ⟨hservices, hinservices⟩ := parseServices_ok.mp hservices
    obtain ⟨hextensions, hinextensions⟩ := parseExtensionDependencies_ok.mp hextensions
    obtain ⟨hclaims, hinclaims⟩ := parseResourceClaims_ok.mp hclaims
    have holder (hs : schemaVersion = "0.2-experimental".points) :
        "requires_extensions".points ∉ fields.keys ∧ "resource_claims".points ∉ fields.keys :=
      ⟨fun hk => hnoextensions ⟨hs, hk⟩, fun hk => hnoclaims ⟨hs, hk⟩⟩
    have hnothing (hs : schemaVersion = "0.2-experimental".points) :
        requiresExtensions = [] ∧ resourceClaims = [] := by
      rw [get?_eq_none (holder hs).left] at hinextensions
      rw [get?_eq_none (holder hs).right] at hinclaims
      exact ⟨isArray_nil.mp hinextensions, isArray_nil.mp hinclaims⟩
    refine ⟨⟨⟨hi, hidentifier⟩, hversion, hvalid, hactivation, .inr ?experimental⟩, ?experimental,
      fields, ho, ?described⟩
    case experimental =>
      exact ⟨hschema, rfl, hrange, known_one.mp hkind, hhost, hruntime, known_one.mp howner,
        hprotocols, himplementation, hservices, hextensions, hclaims, hnothing⟩
    case described    =>
      exact ⟨hkeys, hgetschema, hid, hbundle, hgetkind, hgetowner, hcomponents, his,
        ⟨_, hgethost, hinhost⟩, ⟨_, hgetruntime, hinruntime⟩, ⟨_, hgetprotocols, hinprotocols⟩,
        ⟨_, hgetimplementation, hinimplementation⟩, ⟨_, hgetservices, hinservices⟩, hinextensions,
        hinclaims, holder⟩
  · rintro ⟨h, he, fields, rfl, hi⟩
    exact parseExperimentalManifest_of hv h he hi

theorem BundleManifest.experimentalIn_value (he : m.Experimental) {older : Bool}
    (ho : older = true ↔ m.schemaVersion = "0.2-experimental".points) :
    m.ExperimentalIn (m.experimentalFields older) := by
  have himplementation : IsArray ImplementationCarrier.In m.implementation
      (.arr (m.implementation.map (·.value))) :=
    isArray_map fun c hc => ImplementationCarrier.in_value (he.implementation.right c hc)
  have hkeys : (m.experimentalFields true).keys = ["activation", "components", "extension_id",
      "extension_version", "host", "implementation", "kind", "lifecycle_owner", "protocols",
      "requires_services", "runtime", "schema_version"].map String.points := rfl
  have hcovers : Covers (m.experimentalFields older) requiredFields optionalFields := by
    cases older
    case true  => exact covers_value _ hkeys (by decide)
    case false =>
      exact covers_value ["activation", "components", "extension_id", "extension_version", "host",
        "implementation", "kind", "lifecycle_owner", "protocols", "requires_extensions",
        "requires_services", "resource_claims", "runtime", "schema_version"] rfl (by decide)
  have hextensions : ((m.experimentalFields older).get? "requires_extensions".points).getD (.arr []) =
      .arr (m.requiresExtensions.map (·.value)) := by
    cases older
    case true  =>
      rw [(he.older (ho.mp rfl)).left]
      rfl
    case false => rfl
  have hclaims : ((m.experimentalFields older).get? "resource_claims".points).getD (.arr []) =
      .arr (m.resourceClaims.map (·.value)) := by
    cases older
    case true  =>
      rw [(he.older (ho.mp rfl)).right]
      rfl
    case false => rfl
  exact {
    keys               := hcovers
    schemaVersion      := by cases older <;> rfl
    bundleId           := by cases older <;> rfl
    bundleVersion      := by cases older <;> rfl
    kind               := by cases older <;> rfl
    lifecycleOwner     := by cases older <;> rfl
    components         := .inl (by cases older <;> exact isArray_map fun c _ => c.in_value)
    activation         := by cases older <;> exact m.activation.is_value
    host               := ⟨_, by cases older <;> rfl, m.host.in_value⟩
    runtime            := ⟨_, by cases older <;> rfl, m.runtime.in_value⟩
    protocols          := ⟨_, by cases older <;> rfl, isArray_map fun p _ => p.in_value⟩
    implementation     := ⟨_, by cases older <;> rfl, himplementation⟩
    requiresServices   := ⟨_, by cases older <;> rfl, isArray_map fun s _ => s.in_value⟩
    requiresExtensions := hextensions ▸ isArray_map fun d _ => d.in_value
    resourceClaims     := hclaims ▸ isArray_map fun c _ => c.in_value
    older              := fun hs => by
      cases ho.mpr hs
      rw [hkeys]
      decide
  }

end Experimental

section Manifests

variable [PythonJson]

omit [PythonJson] in
-- No manifest is of both kinds of schema.
theorem schema_ne (he : m.Experimental) : m.schemaVersion ≠ "1.0".points := by
  intro hs
  exact absurd (hs ▸ he.schemaVersion) (by decide)

theorem parseManifest_ok (hv : payload.Ordered) :
    parseManifest payload = .ok m ↔ m.Valid ∧ IsObject m.In payload := by
  constructor
  · intro h
    obtain ⟨fields, -, h⟩ := bind_ok.mp h
    split at h
    case h_1 =>
      split at h
      case isTrue  =>
        obtain ⟨hvalid, hl, fields, ho, hi⟩ := (parseLegacyManifest_ok hv).mp h
        exact ⟨hvalid, fields, ho, (if_pos hl.schemaVersion).mpr hi⟩
      split at h
      case isTrue  =>
        obtain ⟨hvalid, he, fields, ho, hi⟩ := (parseExperimentalManifest_ok hv).mp h
        exact ⟨hvalid, fields, ho, (if_neg (schema_ne he)).mpr hi⟩
      case isFalse => cases h
    case h_2 =>
      split at h <;> cases h
  · rintro ⟨h, fields, rfl, hi⟩
    refine bind_ok.mpr ⟨_, object_ok.mpr rfl, ?_⟩
    rcases h.schema with hl | he
    case inl =>
      have hi : m.LegacyIn fields := (if_pos hl.schemaVersion).mp hi
      have hget : get fields "schema_version" = .str m.schemaVersion := by
        rw [get, hi.schemaVersion, Option.getD_some]
      rw [hget]
      refine (if_pos hl.schemaVersion).trans ?_
      exact (parseLegacyManifest_ok hv).mpr ⟨h, hl, fields, rfl, hi⟩
    case inr =>
      have hi : m.ExperimentalIn fields := (if_neg (schema_ne he)).mp hi
      have hget : get fields "schema_version" = .str m.schemaVersion := by
        rw [get, hi.schemaVersion, Option.getD_some]
      rw [hget]
      refine ((if_neg (schema_ne he)).trans (if_pos he.schemaVersion)).trans ?_
      exact (parseExperimentalManifest_ok hv).mpr ⟨h, he, fields, rfl, hi⟩

theorem BundleManifest.in_value (h : m.Valid) : IsObject m.In m.value := by
  rw [BundleManifest.value]
  rcases h.schema with hl | he
  case inl =>
    obtain ⟨fields, ho, hi⟩ := BundleManifest.legacyIn_value hl.schemaVersion
    rw [if_pos hl.schemaVersion]
    exact ⟨fields, ho, (if_pos hl.schemaVersion).mpr hi⟩
  case inr =>
    rw [if_neg (schema_ne he)]
    have hi := BundleManifest.experimentalIn_value he decide_eq_true_iff
    exact ⟨_, rfl, (if_neg (schema_ne he)).mpr hi⟩

-- The manifests that are read are the valid ones, each is read from what it is written as, and what
-- it is read from says this of it, field by field, and nothing else.
theorem parse_exact :
    ((∃ payload, payload.Ordered ∧ parseManifest payload = .ok m) ↔ m.Valid) ∧
    (m.Valid ↔ m.value.Ordered ∧ parseManifest m.value = .ok m) ∧
    (payload.Ordered ∧ parseManifest payload = .ok m ↔
      payload.Ordered ∧ m.Valid ∧ IsObject m.In payload) := by
  have hvalue (h : m.Valid) : m.value.Ordered ∧ parseManifest m.value = .ok m := by
    have hv := BundleManifest.ordered h
    exact ⟨hv, (parseManifest_ok hv).mpr ⟨h, BundleManifest.in_value h⟩⟩
  have hread {payload : Value} (hv : payload.Ordered) (h : parseManifest payload = .ok m) :
      m.Valid :=
    ((parseManifest_ok hv).mp h).left
  refine ⟨⟨?read, fun h => ⟨m.value, hvalue h⟩⟩, ⟨hvalue, fun h => hread h.left h.right⟩, ?_⟩
  case read =>
    rintro ⟨payload, hv, h⟩
    exact hread hv h
  exact and_congr_right fun hv => parseManifest_ok hv

end Manifests

-- What a launch takes for granted of its manifests.
theorem BundleManifest.Valid.wellFormed (h : m.Valid) : Provider.WellFormed m where
  refs c hc   := (h.components.left c hc).implementationRef.right
  environment := (List.pairwise_map.mpr h.activation.environment).imp ne_of_lt
  additional  := h.activation.additionalConfig.left

end Manifest
