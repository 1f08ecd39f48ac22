import ExtManager.Codec.Canonical
import ExtManager.Manifest.Basic

-- How a manifest is read.
namespace Manifest

inductive Failure
  -- A `ManifestError` with this message.
  | manifest (message : Text)
  -- One whose message ends with the list of these strings.
  | listed (message : Text) (values : List Text)
  -- One about the unknown and the missing fields of an object.
  | fields (location : Text) (unknown missing : List Text)
  -- A `KeyError`.
  | key
  -- A `TypeError`.
  | type
  deriving DecidableEq

abbrev Result (α : Type) :=
  Except Failure α

def fail {α : Type} (message : Text) : Result α :=
  .error (.manifest message)

def require (p : Prop) [Decidable p] (message : Text) : Result Unit :=
  if p then .ok () else fail message

def at' (location : String) (index : Nat) : Text :=
  location.points ++ "[".points ++ Text.ofNat index ++ "]".points

def sub (location : Text) (field : String) : Text :=
  location ++ ".".points ++ field.points

def KINDS : List Text :=
  ["in_process_plugin".points, "scheduler_policy".points, "kv_connector".points,
    "kv_service_adapter".points, "control_plane_extension".points, "runtime_bridge".points]

def RUNTIMES : List Text :=
  ["python".points, "external_service".points, "oci".points, "kubernetes".points, "composite".points]

def LIFECYCLE_OWNERS : List Text :=
  ["vllm".points, "host".points, "external_operator".points, "kubernetes".points, "user".points]

def CARRIERS : List Text :=
  ["host_builtin".points, "python_entry_point".points, "python_module".points,
    "external_service".points, "oci_image".points, "helm_values".points,
    "kubernetes_manifest".points, "crd".points, "controller".points]

def ISOLATIONS : List Text :=
  ["trusted_in_process".points, "process_isolated".points, "sandboxed_process".points]

def PLANES : List Text :=
  ["api".points, "scheduler".points, "worker".points, "native".points, "device".points,
    "bridge".points]

def PERMISSIONS : List Text :=
  ["device_access".points, "filesystem_read".points, "filesystem_write".points, "ipc".points,
    "network_egress".points, "shared_memory".points, "subprocess".points]

def STATUSES : List Text :=
  ["active".points, "import_only".points, "legacy_unregistered".points]

-- `[a-z0-9]`
def isLowerAlnum (p : Nat) : Bool :=
  (0x61 ≤ p && p ≤ 0x7A) || (0x30 ≤ p && p ≤ 0x39)

-- `^[a-z0-9][a-z0-9.-]*$`
def isIdentifier : Text → Bool
  | p :: t => isLowerAlnum p && t.all fun q => isLowerAlnum q || q = '.'.toNat || q = '-'.toNat
  | []     => false

-- `^[a-z0-9][a-z0-9._:/-]*$`
def isResource : Text → Bool
  | p :: t => isLowerAlnum p && t.all fun q => isLowerAlnum q || q = '.'.toNat || q = '_'.toNat ||
    q = ':'.toNat || q = '/'.toNat || q = '-'.toNat
  | []     => false

-- `value[key]`
def item (fields : Fields) (key : String) : Result Value :=
  match fields.get? key.points with
  | some value => .ok value
  | none       => .error .key

-- `value.get(key)`
def get (fields : Fields) (key : String) : Value :=
  (fields.get? key.points).getD .null

def object (value : Value) (location : Text) : Result Fields :=
  match value with
  | .obj fields => .ok fields
  | _           => fail (location ++ " must be an object with string keys".points)

def string (value : Value) (location : Text) : Result Text :=
  match value with
  | .str t => do
    require (t.strip ≠ []) (location ++ " must be a non-empty string".points)
    return t
  | _      => fail (location ++ " must be a non-empty string".points)

-- An item that has to be a string.
def text (message : Text) (value : Value) : Result Text :=
  match value with
  | .str t => .ok t
  | _      => fail message

def strings (value : Value) (location : Text) : Result (List Text) :=
  match value with
  | .arr items => do
    let result ← items.mapM (text (location ++ " must be an array of strings".points))
    require result.Nodup (location ++ " must not contain duplicates".points)
    return result
  | _          => fail (location ++ " must be an array of strings".points)

def boolean (value : Value) (message : Text) : Result Bool :=
  match value with
  | .bool b => .ok b
  | _       => fail message

-- There are to be no such strings.
def nothing (values : List Text) (message : Text) : Result Unit :=
  if values = [] then .ok () else .error (.listed message (sortedSet values))

def known (values allowed : List Text) (location : Text) : Result Unit :=
  nothing (values.filter (· ∉ allowed)) (location ++ " contains unsupported values: ".points)

-- The array, and `f` of its items with their indices.
def mapItems {α : Type} (items : List Value) (f : Value → Nat → Result α) : Result (List α) :=
  items.zipIdx.mapM fun p => f p.1 p.2

def array (value : Value) (message : Text) : Result (List Value) :=
  match value with
  | .arr items => .ok items
  | _          => fail message

-- The object with exactly these fields.
def exactly (value : Value) (location : Text) (names : List String) (message : Text) :
    Result Fields := do
  let fields ← object value location
  require (Value.HasFields fields names) message
  return fields

-- The object with these fields, and maybe the others.
def between (value : Value) (location : Text) (required optional : List String) : Result Fields := do
  let fields ← object value location
  let unknown := fields.keys.filter (· ∉ (required ++ optional).map String.points)
  let missing := (required.map String.points).filter (· ∉ fields.keys)
  if unknown = [] ∧ missing = [] then .ok fields
  else .error (.fields location (sortedSet unknown) (sortedSet missing))

-- `for raw in value`
def iterate (value : Value) : Result (List Value) :=
  match value with
  | .arr items  => .ok items
  | .obj fields => .ok ((Fields.keys fields).map .str)
  | .str t      => .ok (t.map fun p => .str [p])
  | _           => .error .type

def entryPoint (raw : Value) (index : Nat) : Result ActivationEntryPoint := do
  let here := at' "activation.entry_points" index
  let fields ← exactly raw here ["group", "name"] (here ++ " requires group and name".points)
  let group ← string (← item fields "group") (sub here "group")
  let name ← string (← item fields "name") (sub here "name")
  return ⟨group, name⟩

-- What is set in the environment has to be a string.
def environmentItem (field : Text × Value) : Result (Text × Text) :=
  (field.1, ·) <$> text "activation.environment values must be strings".points field.2

def parseActivation (value : Value) : Result BundleActivation :=
  match value with
  | .null => .ok .empty
  | value => do
    let activation ← object value "activation".points
    nothing (activation.keys.filter
        (· ∉ ["entry_points".points, "environment".points, "additional_config".points]))
      "activation contains unknown fields: ".points
    let raw ← iterate ((activation.get? "entry_points".points).getD (.arr []))
    let entryPoints ← mapItems raw entryPoint
    let environment ← object ((activation.get? "environment".points).getD (.obj []))
      "activation.environment".points
    let environment ← environment.mapM environmentItem
    let additional ← object ((activation.get? "additional_config".points).getD (.obj []))
      "activation.additional_config".points
    return { entryPoints, environment, additionalConfig := additional }

section Versions

variable [Packaging]

def version (value : Value) (location : Text) : Result Text := do
  let result ← string value location
  require (Packaging.version? result).isSome (location ++ " is not a valid version".points)
  return result

def specifier (value : Value) (location : Text) : Result Text := do
  let result ← string value location
  require (Packaging.specifiers? result).isSome (location ++ " is not a valid version range".points)
  return result

def optionalSpecifier (value : Value) (location : Text) : Result (Option Text) :=
  match value with
  | .null => .ok none
  | value => some <$> specifier value location

-- `HOST_API_VERSION in SpecifierSet(versionRange)`
def hostApi? (versionRange : Text) : Option Bool := do
  let specifiers ← Packaging.specifiers? versionRange
  let version ← Packaging.version? "1.0".points
  return Packaging.contains specifiers version

def hostApiRange (value : Value) : Result Text := do
  let result ← string value "host_api_range".points
  match hostApi? result with
  | none       => fail "host_api_range is not a valid specifier".points
  | some false => fail ("bundle requires host API ".points ++ result ++ ", host provides 1.0".points)
  | some true  => return result

end Versions

section Components

variable [Alphanumeric]

def component (raw : Value) (index : Nat) : Result BundleComponent := do
  let here := at' "components" index
  let fields ← between raw here
    ["component_id", "contracts", "execution_planes", "isolation", "implementation_ref"]
    ["permissions"]
  let componentId ← string (← item fields "component_id") (sub here "component_id")
  require (isIdentifier componentId) (sub here "component_id is invalid")
  let contracts ← strings (← item fields "contracts") (sub here "contracts")
  require (contracts ≠ [] ∧ ∀ contract ∈ contracts, "vllm.".points.isPrefixOf contract)
    (sub here "contracts is invalid")
  let executionPlanes ← strings (← item fields "execution_planes") (sub here "execution_planes")
  known executionPlanes PLANES (sub here "execution_planes")
  let isolation ← string (← item fields "isolation") (sub here "isolation")
  known [isolation] ISOLATIONS (sub here "isolation")
  let implementationRef ← string (← item fields "implementation_ref")
    (sub here "implementation_ref")
  require (isImplementation implementationRef) (sub here "implementation_ref is invalid")
  let permissions ← strings ((fields.get? "permissions".points).getD (.arr []))
    (sub here "permissions")
  known permissions PERMISSIONS (sub here "permissions")
  return { componentId, contracts, executionPlanes, isolation, implementationRef, permissions }

variable [Packaging]

def parseLegacyManifest (payload : Value) : Result BundleManifest := do
  let manifest ← object payload "manifest".points
  let names := ["schema_version".points, "bundle_id".points, "bundle_version".points,
    "host_api_range".points, "components".points]
  nothing (manifest.keys.filter (· ∉ "activation".points :: names))
    "manifest contains unknown fields: ".points
  nothing (names.filter (· ∉ manifest.keys)) "manifest is missing fields: ".points
  require ((← item manifest "schema_version") = .str "1.0".points)
    "unsupported schema_version".points
  let bundleId ← string (← item manifest "bundle_id") "bundle_id".points
  require (isIdentifier bundleId)
    "bundle_id must use lowercase letters, digits, dots, or hyphens".points
  let bundleVersion ← version (← item manifest "bundle_version") "bundle_version".points
  let hostApiRange ← hostApiRange (← item manifest "host_api_range")
  let message := "components must be a non-empty array".points
  let raw ← array (← item manifest "components") message
  require (raw ≠ []) message
  let components ← mapItems raw component
  require (components.map (·.componentId)).Nodup "component_id values must be unique".points
  let activation ← parseActivation (get manifest "activation")
  return {
    bundleId
    bundleVersion
    hostApiRange
    components
    activation
    schemaVersion      := "1.0".points
    kind               := "legacy_vllm_bundle".points
    host               := ⟨"vllm".points, "vllm".points, ">=0".points, some ">=1,<2".points⟩
    runtime            := ⟨"python".points, "vllm_processes".points, "trusted_in_process".points⟩
    lifecycleOwner     := "vllm".points
    protocols          := []
    implementation     := []
    requiresServices   := []
    requiresExtensions := []
    resourceClaims     := []
  }

end Components

section Experimental

variable [Packaging]

def parseHost (value : Value) : Result HostSpec := do
  let host ← between value "host".points ["provider", "name", "version_range"] ["api_range"]
  let provider ← string (← item host "provider") "host.provider".points
  require (isIdentifier provider) "host.provider is invalid".points
  let name ← string (← item host "name") "host.name".points
  let versionRange ← specifier (← item host "version_range") "host.version_range".points
  let apiRange ← optionalSpecifier (get host "api_range") "host.api_range".points
  return { provider, name, versionRange, apiRange }

omit [Packaging] in
def parseRuntime (value : Value) : Result RuntimeSpec := do
  let runtime ← exactly value "runtime".points ["type", "process_scope", "isolation"]
    "runtime requires type, process_scope, and isolation".points
  let type ← string (← item runtime "type") "runtime.type".points
  known [type] RUNTIMES "runtime.type".points
  let processScope ← string (← item runtime "process_scope") "runtime.process_scope".points
  let isolation ← string (← item runtime "isolation") "runtime.isolation".points
  return { type, processScope, isolation }

def protocol (raw : Value) (index : Nat) : Result ProtocolSpec := do
  let here := at' "protocols" index
  let fields ← exactly raw here ["name", "version_range"]
    (here ++ " requires name and version_range".points)
  let name ← string (← item fields "name") (sub here "name")
  let versionRange ← optionalSpecifier (← item fields "version_range") (sub here "version_range")
  return { name, versionRange }

def parseProtocols (value : Value) : Result (List ProtocolSpec) := do
  mapItems (← array value "protocols must be an array".points) protocol

def service (raw : Value) (index : Nat) : Result RequiredService := do
  let here := at' "requires_services" index
  let fields ← between raw here ["service_id", "protocol", "version_range", "endpoint_config"]
    ["optional"]
  let optional ← boolean ((fields.get? "optional".points).getD (.bool false))
    (sub here "optional must be boolean")
  let serviceId ← string (← item fields "service_id") (sub here "service_id")
  let protocol ← string (← item fields "protocol") (sub here "protocol")
  let versionRange ← optionalSpecifier (← item fields "version_range") (sub here "version_range")
  let endpointConfig ← string (← item fields "endpoint_config") (sub here "endpoint_config")
  return { serviceId, protocol, versionRange, endpointConfig, optional }

def parseServices (value : Value) : Result (List RequiredService) := do
  mapItems (← array value "requires_services must be an array".points) service

def dependency (raw : Value) (index : Nat) : Result RequiredExtension := do
  let here := at' "requires_extensions" index
  let fields ← exactly raw here ["extension_id", "version_range"]
    (here ++ " requires extension_id and version_range".points)
  let extensionId ← string (← item fields "extension_id") (sub here "extension_id")
  require (isIdentifier extensionId) (sub here "extension_id is invalid")
  let versionRange ← specifier (← item fields "version_range") (sub here "version_range")
  return { extensionId, versionRange }

def parseExtensionDependencies (value : Value) : Result (List RequiredExtension) := do
  let result ← mapItems (← array value "requires_extensions must be an array".points) dependency
  require (result.map (·.extensionId)).Nodup
    "requires_extensions must not contain duplicate IDs".points
  return result

end Experimental

section Implementation

-- The modes of a claim by their names.
def claimModes : List (Text × ClaimMode) :=
  [("exclusive".points, .exclusive), ("shared".points, .shared)]

def resourceClaim (raw : Value) (index : Nat) : Result ResourceClaim := do
  let here := at' "resource_claims" index
  let fields ← exactly raw here ["resource", "scope", "mode"]
    (here ++ " requires resource, scope, and mode".points)
  let resource ← string (← item fields "resource") (sub here "resource")
  let scope ← string (← item fields "scope") (sub here "scope")
  let mode ← string (← item fields "mode") (sub here "mode")
  require (isResource resource ∧ isResource scope) (here ++ " has an invalid identifier".points)
  known [mode] (claimModes.map (·.1)) (sub here "mode")
  match claimModes.lookup mode with
  | some mode => return { resource, scope, mode }
  | none      => .error .key

def parseResourceClaims (value : Value) : Result (List ResourceClaim) := do
  let result ← mapItems (← array value "resource_claims must be an array".points) resourceClaim
  require result.Nodup "resource_claims must not contain duplicates".points
  return result

variable [Alphanumeric]

def checkModule (attributes : Fields) (here : Text) : Result Unit := do
  require (Value.HasFields attributes ["module", "object", "status"])
    (here ++ " python_module requires module, object, and status".points)
  let module' ← string (← item attributes "module") (sub here "module")
  let object ← string (← item attributes "object") (sub here "object")
  let status ← string (← item attributes "status") (sub here "status")
  require (isModulePath module') (sub here "module is invalid")
  require (isName object) (sub here "object is invalid")
  require (status ∈ STATUSES) (sub here "status is unsupported")

def carrier (raw : Value) (index : Nat) : Result ImplementationCarrier := do
  let here := at' "implementation" index
  let fields ← object raw here
  let type ← string (get fields "type") (sub here "type")
  known [type] CARRIERS (sub here "type")
  let attributes := fields.filter (·.1 ≠ "type".points)
  require (attributes ≠ []) (here ++ " has no carrier attributes".points)
  if type = "python_module".points then checkModule attributes here
  return { type, attributes }

def parseImplementation (value : Value) : Result (List ImplementationCarrier) := do
  let message := "implementation must be a non-empty array".points
  let raw ← array value message
  require (raw ≠ []) message
  mapItems raw carrier

end Implementation

-- `bool(value)`
def truthy [PythonJson] : Value → Bool
  | .null       => false
  | .bool b     => b
  | .int n      => n ≠ 0
  | .float t    => !PythonJson.floatEqInt t 0
  | .str t      => t ≠ []
  | .arr items  => items ≠ []
  | .obj fields => fields ≠ []

def requiredFields : List String :=
  ["schema_version", "extension_id", "extension_version", "kind", "host", "runtime",
    "lifecycle_owner", "protocols", "implementation", "requires_services"]

def optionalFields : List String :=
  ["components", "activation", "requires_extensions", "resource_claims"]

def experimentalSchemas : List Text :=
  ["0.2-experimental".points, "0.3-experimental".points]

def experimentalSchema (value : Value) : Result Text :=
  match value with
  | .str t => do
    require (t ∈ experimentalSchemas) "unsupported experimental schema_version".points
    return t
  | value  =>
    if value.hashable then fail "unsupported experimental schema_version".points else .error .type

section Manifests

variable [Packaging] [Alphanumeric] [PythonJson]

-- What `_parse_legacy_manifest` makes of the components.
def parseComponents (manifest : Fields) (extensionId version : Text) :
    Result (List BundleComponent) :=
  if truthy (get manifest "components") then do
    let legacy ← parseLegacyManifest (.obj [("activation".points, get manifest "activation"),
      ("bundle_id".points, .str extensionId), ("bundle_version".points, .str version),
      ("components".points, get manifest "components"),
      ("host_api_range".points, .str ">=1,<2".points),
      ("schema_version".points, .str "1.0".points)])
    return legacy.components
  else .ok []

def parseExperimentalManifest (payload : Value) : Result BundleManifest := do
  let manifest ← object payload "manifest".points
  let manifest ← between (.obj manifest) "experimental manifest".points requiredFields optionalFields
  let bundleId ← string (← item manifest "extension_id") "extension_id".points
  require (isIdentifier bundleId) "extension_id is invalid".points
  let bundleVersion ← version (← item manifest "extension_version") "extension_version".points
  let kind ← string (← item manifest "kind") "kind".points
  known [kind] KINDS "kind".points
  let lifecycleOwner ← string (← item manifest "lifecycle_owner") "lifecycle_owner".points
  known [lifecycleOwner] LIFECYCLE_OWNERS "lifecycle_owner".points
  let components ← parseComponents manifest bundleId bundleVersion
  let schemaVersion ← experimentalSchema (← item manifest "schema_version")
  require (¬(schemaVersion = "0.2-experimental".points ∧ "resource_claims".points ∈ manifest.keys))
    "resource_claims requires schema_version 0.3-experimental".points
  require (¬(schemaVersion = "0.2-experimental".points ∧ "requires_extensions".points ∈ manifest.keys))
    "requires_extensions requires schema_version 0.3-experimental".points
  let activation ← parseActivation (get manifest "activation")
  let host ← parseHost (← item manifest "host")
  let runtime ← parseRuntime (← item manifest "runtime")
  let protocols ← parseProtocols (← item manifest "protocols")
  let implementation ← parseImplementation (← item manifest "implementation")
  let requiresServices ← parseServices (← item manifest "requires_services")
  let requiresExtensions ← parseExtensionDependencies
    ((manifest.get? "requires_extensions".points).getD (.arr []))
  let resourceClaims ← parseResourceClaims
    ((manifest.get? "resource_claims".points).getD (.arr []))
  return {
    bundleId
    bundleVersion
    hostApiRange := ">=0".points
    components
    activation
    schemaVersion
    kind
    host
    runtime
    lifecycleOwner
    protocols
    implementation
    requiresServices
    requiresExtensions
    resourceClaims
  }

def parseManifest (payload : Value) : Result BundleManifest := do
  let manifest ← object payload "manifest".points
  match get manifest "schema_version" with
  | .str t =>
    if t = "1.0".points then parseLegacyManifest payload
    else if t ∈ experimentalSchemas then parseExperimentalManifest payload
    else fail "unsupported schema_version".points
  | value  =>
    if value.hashable then fail "unsupported schema_version".points else .error .type

end Manifests

end Manifest
