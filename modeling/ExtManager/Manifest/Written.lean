import ExtManager.Manifest.Valid

-- How a manifest is written out.
namespace Manifest

-- An object with these keys, which are in order.
theorem ordered_obj {fields : Fields} (names : List String)
    (hk : fields.keys = names.map String.points) (hn : (names.map String.points).Pairwise (· < ·))
    (hv : ∀ f ∈ fields, f.2.Ordered) : (Value.obj fields).Ordered := by
  have hsorted : fields.keys.Pairwise (· < ·) := by
    rw [hk]
    exact hn
  exact .obj (List.pairwise_map.mp hsorted) hv

def texts (ts : List Text) : Value :=
  .arr (ts.map .str)

theorem ordered_texts {ts : List Text} : (texts ts).Ordered :=
  .arr (List.forall_mem_map.mpr fun _ _ => .str)

theorem ordered_optionalValue {o : Option Text} : (optionalValue o).Ordered := by
  cases o
  · exact .null
  · exact .str

-- What is in a list is in order if each item is.
theorem ordered_map {α : Type} {as : List α} {value : α → Value} (h : ∀ a ∈ as, (value a).Ordered) :
    (Value.arr (as.map value)).Ordered :=
  .arr (List.forall_mem_map.mpr h)

def ActivationEntryPoint.value (e : ActivationEntryPoint) : Value :=
  .obj [("group".points, .str e.group), ("name".points, .str e.name)]

-- The values of an environment are written as strings.
def environmentFields (environment : List (Text × Text)) : Fields :=
  environment.map fun p => (p.1, .str p.2)

def BundleActivation.value (a : BundleActivation) : Value :=
  .obj [("additional_config".points, .obj a.additionalConfig),
    ("entry_points".points, .arr (a.entryPoints.map (·.value))),
    ("environment".points, .obj (environmentFields a.environment))]

def BundleComponent.value (c : BundleComponent) : Value :=
  .obj [("component_id".points, .str c.componentId), ("contracts".points, texts c.contracts),
    ("execution_planes".points, texts c.executionPlanes),
    ("implementation_ref".points, .str c.implementationRef),
    ("isolation".points, .str c.isolation), ("permissions".points, texts c.permissions)]

def HostSpec.value (h : HostSpec) : Value :=
  .obj [("api_range".points, optionalValue h.apiRange), ("name".points, .str h.name),
    ("provider".points, .str h.provider), ("version_range".points, .str h.versionRange)]

def RuntimeSpec.value (r : RuntimeSpec) : Value :=
  .obj [("isolation".points, .str r.isolation), ("process_scope".points, .str r.processScope),
    ("type".points, .str r.type)]

def ProtocolSpec.value (p : ProtocolSpec) : Value :=
  .obj [("name".points, .str p.name), ("version_range".points, optionalValue p.versionRange)]

def ImplementationCarrier.value (c : ImplementationCarrier) : Value :=
  .obj (Fields.insert c.attributes "type".points (.str c.type))

def RequiredService.value (s : RequiredService) : Value :=
  .obj [("endpoint_config".points, .str s.endpointConfig), ("optional".points, .bool s.optional),
    ("protocol".points, .str s.protocol), ("service_id".points, .str s.serviceId),
    ("version_range".points, optionalValue s.versionRange)]

def RequiredExtension.value (d : RequiredExtension) : Value :=
  .obj [("extension_id".points, .str d.extensionId), ("version_range".points, .str d.versionRange)]

def ClaimMode.name : ClaimMode → Text
  | exclusive => "exclusive".points
  | shared    => "shared".points

def ResourceClaim.value (c : ResourceClaim) : Value :=
  .obj [("mode".points, .str c.mode.name), ("resource".points, .str c.resource),
    ("scope".points, .str c.scope)]

namespace BundleManifest

def legacyValue (m : BundleManifest) : Value :=
  .obj [("activation".points, m.activation.value), ("bundle_id".points, .str m.bundleId),
    ("bundle_version".points, .str m.bundleVersion),
    ("components".points, .arr (m.components.map (·.value))),
    ("host_api_range".points, .str m.hostApiRange), ("schema_version".points, .str "1.0".points)]

-- The older schema does without two of the fields.
def experimentalFields (m : BundleManifest) (older : Bool) : Fields :=
  [("activation".points, m.activation.value),
    ("components".points, .arr (m.components.map (·.value))),
    ("extension_id".points, .str m.bundleId), ("extension_version".points, .str m.bundleVersion),
    ("host".points, m.host.value),
    ("implementation".points, .arr (m.implementation.map (·.value))),
    ("kind".points, .str m.kind), ("lifecycle_owner".points, .str m.lifecycleOwner),
    ("protocols".points, .arr (m.protocols.map (·.value)))] ++
  (bif older then []
    else [("requires_extensions".points, .arr (m.requiresExtensions.map (·.value)))]) ++
  [("requires_services".points, .arr (m.requiresServices.map (·.value)))] ++
  (bif older then [] else [("resource_claims".points, .arr (m.resourceClaims.map (·.value)))]) ++
  [("runtime".points, m.runtime.value), ("schema_version".points, .str m.schemaVersion)]

def value (m : BundleManifest) : Value :=
  if m.schemaVersion = "1.0".points then m.legacyValue
  else .obj (m.experimentalFields (m.schemaVersion = "0.2-experimental".points))

end BundleManifest

theorem environmentFields_sorted {environment : List (Text × Text)} :
    (environmentFields environment).Sorted ↔ environment.Pairwise (·.1 < ·.1) := by
  rw [Fields.Sorted, environmentFields, List.pairwise_map]

section Ordered

theorem ActivationEntryPoint.ordered (e : ActivationEntryPoint) : e.value.Ordered :=
  ordered_obj ["group", "name"] rfl (by decide) (by simp [Value.Ordered.str])

theorem BundleActivation.ordered {a : BundleActivation} (h : a.Valid) : a.value.Ordered := by
  have hconfig : (Value.obj a.additionalConfig).Ordered :=
    .obj h.additionalConfig.left h.additionalConfig.right
  have hpoints : (Value.arr (a.entryPoints.map (·.value))).Ordered :=
    ordered_map fun e _ => e.ordered
  have henvironment : (Value.obj (environmentFields a.environment)).Ordered :=
    .obj (environmentFields_sorted.mpr h.environment) (List.forall_mem_map.mpr fun _ _ => .str)
  exact ordered_obj ["additional_config", "entry_points", "environment"] rfl (by decide)
    (by simp [hconfig, hpoints, henvironment])

theorem BundleComponent.ordered (c : BundleComponent) : c.value.Ordered :=
  ordered_obj ["component_id", "contracts", "execution_planes", "implementation_ref", "isolation",
    "permissions"] rfl (by decide) (by simp [Value.Ordered.str, ordered_texts])

theorem HostSpec.ordered (h : HostSpec) : h.value.Ordered :=
  ordered_obj ["api_range", "name", "provider", "version_range"] rfl (by decide)
    (by simp [Value.Ordered.str, ordered_optionalValue])

theorem RuntimeSpec.ordered (r : RuntimeSpec) : r.value.Ordered :=
  ordered_obj ["isolation", "process_scope", "type"] rfl (by decide) (by simp [Value.Ordered.str])

theorem ProtocolSpec.ordered (p : ProtocolSpec) : p.value.Ordered :=
  ordered_obj ["name", "version_range"] rfl (by decide)
    (by simp [Value.Ordered.str, ordered_optionalValue])

theorem ImplementationCarrier.ordered [Alphanumeric] {c : ImplementationCarrier} (h : c.Valid) :
    c.value.Ordered := by
  obtain ⟨⟨hsorted, hitems⟩, -, htype⟩ := h.attributes
  refine .obj (Fields.insert_sorted hsorted htype) fun f hf => ?_
  rcases Fields.mem_insert.mp hf with rfl | hf
  · exact .str
  · exact hitems f hf

theorem RequiredService.ordered (s : RequiredService) : s.value.Ordered :=
  ordered_obj ["endpoint_config", "optional", "protocol", "service_id", "version_range"] rfl
    (by decide) (by simp [Value.Ordered.str, Value.Ordered.bool, ordered_optionalValue])

theorem RequiredExtension.ordered (d : RequiredExtension) : d.value.Ordered :=
  ordered_obj ["extension_id", "version_range"] rfl (by decide) (by simp [Value.Ordered.str])

theorem ResourceClaim.ordered (c : ResourceClaim) : c.value.Ordered :=
  ordered_obj ["mode", "resource", "scope"] rfl (by decide) (by simp [Value.Ordered.str])

variable [Packaging] [Alphanumeric] {m : BundleManifest}

theorem BundleManifest.ordered_legacyValue (h : m.Valid) : m.legacyValue.Ordered := by
  have hactivation := BundleActivation.ordered h.activation
  have hcomponents : (Value.arr (m.components.map (·.value))).Ordered :=
    ordered_map fun c _ => c.ordered
  exact ordered_obj ["activation", "bundle_id", "bundle_version", "components", "host_api_range",
    "schema_version"] rfl (by decide) (by simp [hactivation, hcomponents, Value.Ordered.str])

theorem BundleManifest.ordered_experimentalFields (h : m.Valid) (he : m.Experimental) (older : Bool) :
    (Value.obj (m.experimentalFields older)).Ordered := by
  have hactivation := BundleActivation.ordered h.activation
  have hcomponents : (Value.arr (m.components.map (·.value))).Ordered :=
    ordered_map fun c _ => c.ordered
  have himplementation : (Value.arr (m.implementation.map (·.value))).Ordered :=
    ordered_map fun c hc => ImplementationCarrier.ordered (he.implementation.right c hc)
  have hprotocols : (Value.arr (m.protocols.map (·.value))).Ordered :=
    ordered_map fun p _ => p.ordered
  have hservices : (Value.arr (m.requiresServices.map (·.value))).Ordered :=
    ordered_map fun s _ => s.ordered
  have hextensions : (Value.arr (m.requiresExtensions.map (·.value))).Ordered :=
    ordered_map fun d _ => d.ordered
  have hclaims : (Value.arr (m.resourceClaims.map (·.value))).Ordered :=
    ordered_map fun c _ => c.ordered
  cases older
  case true  =>
    exact ordered_obj ["activation", "components", "extension_id", "extension_version", "host",
      "implementation", "kind", "lifecycle_owner", "protocols", "requires_services", "runtime",
      "schema_version"] rfl (by decide) (by simp [BundleManifest.experimentalFields, hactivation,
        hcomponents, himplementation, hprotocols, hservices, Value.Ordered.str, m.host.ordered,
        m.runtime.ordered])
  case false =>
    exact ordered_obj ["activation", "components", "extension_id", "extension_version", "host",
      "implementation", "kind", "lifecycle_owner", "protocols", "requires_extensions",
      "requires_services", "resource_claims", "runtime", "schema_version"] rfl (by decide)
      (by simp [BundleManifest.experimentalFields, hactivation, hcomponents, himplementation,
        hprotocols, hservices, hextensions, hclaims, Value.Ordered.str, m.host.ordered,
        m.runtime.ordered])

theorem BundleManifest.ordered (h : m.Valid) : m.value.Ordered := by
  rw [BundleManifest.value]
  rcases h.schema with hl | he
  case inl =>
    rw [if_pos hl.schemaVersion]
    exact BundleManifest.ordered_legacyValue h
  case inr =>
    split
    case isTrue  => exact BundleManifest.ordered_legacyValue h
    case isFalse => exact BundleManifest.ordered_experimentalFields h he _

end Ordered

end Manifest
