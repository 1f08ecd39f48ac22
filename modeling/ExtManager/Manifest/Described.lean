import ExtManager.Manifest.Written

-- What a value has to say of a manifest, record by record.
namespace Manifest

-- An object with these fields, and maybe the others.
def Covers (fields : Fields) (required optional : List String) : Prop :=
  (∀ k ∈ fields.keys, k ∈ (required ++ optional).map String.points) ∧
    ∀ n ∈ required, n.points ∈ fields.keys

def Field (fields : Fields) (key : String) (P : Value → Prop) : Prop :=
  ∃ value, fields.get? key.points = some value ∧ P value

def IsObject (P : Fields → Prop) (value : Value) : Prop :=
  ∃ fields, value = .obj fields ∧ P fields

-- The array that has an object for each of these records.
def IsArray {α : Type} (P : α → Fields → Prop) (as : List α) (value : Value) : Prop :=
  ∃ items, value = .arr items ∧ List.Forall₂ (fun a raw => IsObject (P a) raw) as items

structure ActivationEntryPoint.In (e : ActivationEntryPoint) (fields : Fields) : Prop where
  keys  : Value.HasFields fields ["group", "name"]
  group : fields.get? "group".points = some (.str e.group)
  name  : fields.get? "name".points = some (.str e.name)

-- No entry points are as well an empty object or an empty string, which can be gone through too.
def EntryPoints (es : List ActivationEntryPoint) (value : Value) : Prop :=
  IsArray ActivationEntryPoint.In es value ∨ (value = .obj [] ∨ value = .str []) ∧ es = []

structure BundleActivation.In (a : BundleActivation) (fields : Fields) : Prop where
  keys             : ∀ k ∈ fields.keys,
    k ∈ ["entry_points".points, "environment".points, "additional_config".points]
  entryPoints      :
    EntryPoints a.entryPoints ((fields.get? "entry_points".points).getD (.arr []))
  environment      : (fields.get? "environment".points).getD (.obj []) =
    .obj (environmentFields a.environment)
  additionalConfig : (fields.get? "additional_config".points).getD (.obj []) =
    .obj a.additionalConfig

def BundleActivation.Is (a : BundleActivation) (value : Value) : Prop :=
  value = .null ∧ a = .empty ∨ IsObject a.In value

structure BundleComponent.In (c : BundleComponent) (fields : Fields) : Prop where
  keys              : Covers fields ["component_id", "contracts", "execution_planes", "isolation",
    "implementation_ref"] ["permissions"]
  componentId       : fields.get? "component_id".points = some (.str c.componentId)
  contracts         : fields.get? "contracts".points = some (texts c.contracts)
  executionPlanes   : fields.get? "execution_planes".points = some (texts c.executionPlanes)
  isolation         : fields.get? "isolation".points = some (.str c.isolation)
  implementationRef : fields.get? "implementation_ref".points = some (.str c.implementationRef)
  permissions       : (fields.get? "permissions".points).getD (.arr []) = texts c.permissions

structure HostSpec.In (h : HostSpec) (fields : Fields) : Prop where
  keys         : Covers fields ["provider", "name", "version_range"] ["api_range"]
  provider     : fields.get? "provider".points = some (.str h.provider)
  name         : fields.get? "name".points = some (.str h.name)
  versionRange : fields.get? "version_range".points = some (.str h.versionRange)
  apiRange     : get fields "api_range" = optionalValue h.apiRange

structure RuntimeSpec.In (r : RuntimeSpec) (fields : Fields) : Prop where
  keys         : Value.HasFields fields ["type", "process_scope", "isolation"]
  type         : fields.get? "type".points = some (.str r.type)
  processScope : fields.get? "process_scope".points = some (.str r.processScope)
  isolation    : fields.get? "isolation".points = some (.str r.isolation)

structure ProtocolSpec.In (p : ProtocolSpec) (fields : Fields) : Prop where
  keys         : Value.HasFields fields ["name", "version_range"]
  name         : fields.get? "name".points = some (.str p.name)
  versionRange : fields.get? "version_range".points = some (optionalValue p.versionRange)

structure ImplementationCarrier.In (c : ImplementationCarrier) (fields : Fields) : Prop where
  type       : get fields "type" = .str c.type
  attributes : fields.filter (·.1 ≠ "type".points) = c.attributes

structure RequiredService.In (s : RequiredService) (fields : Fields) : Prop where
  keys           : Covers fields ["service_id", "protocol", "version_range", "endpoint_config"]
    ["optional"]
  serviceId      : fields.get? "service_id".points = some (.str s.serviceId)
  protocol       : fields.get? "protocol".points = some (.str s.protocol)
  versionRange   : fields.get? "version_range".points = some (optionalValue s.versionRange)
  endpointConfig : fields.get? "endpoint_config".points = some (.str s.endpointConfig)
  optional       : (fields.get? "optional".points).getD (.bool false) = .bool s.optional

structure RequiredExtension.In (d : RequiredExtension) (fields : Fields) : Prop where
  keys         : Value.HasFields fields ["extension_id", "version_range"]
  extensionId  : fields.get? "extension_id".points = some (.str d.extensionId)
  versionRange : fields.get? "version_range".points = some (.str d.versionRange)

structure ResourceClaim.In (c : ResourceClaim) (fields : Fields) : Prop where
  keys     : Value.HasFields fields ["resource", "scope", "mode"]
  resource : fields.get? "resource".points = some (.str c.resource)
  scope    : fields.get? "scope".points = some (.str c.scope)
  mode     : fields.get? "mode".points = some (.str c.mode.name)

namespace BundleManifest

structure LegacyIn (m : BundleManifest) (fields : Fields) : Prop where
  keys          : Covers fields ["schema_version", "bundle_id", "bundle_version", "host_api_range",
    "components"] ["activation"]
  schemaVersion : fields.get? "schema_version".points = some (.str m.schemaVersion)
  bundleId      : fields.get? "bundle_id".points = some (.str m.bundleId)
  bundleVersion : fields.get? "bundle_version".points = some (.str m.bundleVersion)
  hostApiRange  : fields.get? "host_api_range".points = some (.str m.hostApiRange)
  components    : Field fields "components" (IsArray BundleComponent.In m.components)
  activation    : m.activation.Is (get fields "activation")

variable [PythonJson]

-- Whatever is false stands for no components.
structure ExperimentalIn (m : BundleManifest) (fields : Fields) : Prop where
  keys               : Covers fields requiredFields optionalFields
  schemaVersion      : fields.get? "schema_version".points = some (.str m.schemaVersion)
  bundleId           : fields.get? "extension_id".points = some (.str m.bundleId)
  bundleVersion      : fields.get? "extension_version".points = some (.str m.bundleVersion)
  kind               : fields.get? "kind".points = some (.str m.kind)
  lifecycleOwner     : fields.get? "lifecycle_owner".points = some (.str m.lifecycleOwner)
  components         : IsArray BundleComponent.In m.components (get fields "components") ∨
    ¬truthy (get fields "components") ∧ m.components = []
  activation         : m.activation.Is (get fields "activation")
  host               : Field fields "host" (IsObject m.host.In)
  runtime            : Field fields "runtime" (IsObject m.runtime.In)
  protocols          : Field fields "protocols" (IsArray ProtocolSpec.In m.protocols)
  implementation     : Field fields "implementation"
    (IsArray ImplementationCarrier.In m.implementation)
  requiresServices   : Field fields "requires_services"
    (IsArray RequiredService.In m.requiresServices)
  requiresExtensions : IsArray RequiredExtension.In m.requiresExtensions
    ((fields.get? "requires_extensions".points).getD (.arr []))
  resourceClaims     : IsArray ResourceClaim.In m.resourceClaims
    ((fields.get? "resource_claims".points).getD (.arr []))
  older              : m.schemaVersion = "0.2-experimental".points →
    "requires_extensions".points ∉ fields.keys ∧ "resource_claims".points ∉ fields.keys

-- The value says this of the manifest, and nothing else.
def In (m : BundleManifest) (fields : Fields) : Prop :=
  if m.schemaVersion = "1.0".points then m.LegacyIn fields else m.ExperimentalIn fields

end BundleManifest

end Manifest
