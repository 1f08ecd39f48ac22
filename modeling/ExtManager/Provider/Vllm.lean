import ExtManager.Manager.Basic

open Manifest (BundleManifest BundleComponent InstalledBundle activationBlocker)

-- The plans of the provider for the extension points of vLLM.
namespace Provider

def jsonLaunchOptions : List (Text × Text) :=
  [("batch_admission_policy_config".points, "--batch-admission-policy-config".points),
    ("speculative_config".points, "--speculative-config".points)]

def booleanLaunchOptions : List (Text × Text) :=
  [("scheduler_reserve_output_budget".points, "--scheduler-reserve-output-budget".points)]

def runtimeQualificationKey : Text :=
  "_manager_runtime_qualification".points

def pluginEntryPointGroups : List Text :=
  ["vllm.general_plugins".points, "vllm.platform_plugins".points]

def preemptionContract : Text :=
  "vllm.preemption-policy.v1".points

def admissionContract : Text :=
  "vllm.batch-admission-policy.v1".points

inductive PlanFailure
  | otherProvider
  | typeError
  | launchOptions
  | unsupported (names : List Text)
  | notBoolean (option : Text)
  | notObject (option : Text)
  | environment
  | undeclared (names : List Text)
  | notStrings
  | notOne (contract : Text)
  | implementationRef
  deriving DecidableEq

-- `dict.fromkeys`: each item where it stands first.
def fromKeys (ts : List Text) : List Text :=
  ts.foldl (fun seen t => if t ∈ seen then seen else seen ++ [t]) []

def declaredVllmPluginNames (manifest : BundleManifest) : List Text :=
  fromKeys <| (manifest.activation.entryPoints.filter (·.group ∈ pluginEntryPointGroups)).map (·.name)

-- `module:object` in the syntax of vLLM.
def qualname? (implementationRef : Text) : Option Text :=
  let module' := implementationRef.takeWhile (· ≠ ':'.toNat)
  match implementationRef.dropWhile (· ≠ ':'.toNat) with
  | _ :: object => if module' ≠ [] ∧ object ≠ [] then some (module' ++ '.'.toNat :: object) else none
  | []          => none

def text (s : String) : Value :=
  .str s.points

def texts (ts : List Text) : Value :=
  .arr (ts.map .str)

def nativeComponent (component : BundleComponent) : Value :=
  .obj [("component_id".points, .str component.componentId),
    ("contracts".points, texts component.contracts),
    ("execution_planes".points, texts component.executionPlanes),
    ("isolation".points, .str component.isolation),
    ("implementation_ref".points, .str component.implementationRef),
    ("permissions".points, texts component.permissions)]

def nativeManifest? (manifest : BundleManifest) : Option Value :=
  manifest.host.apiRange.map fun apiRange =>
    .obj [("schema_version".points, text "1.0"),
      ("bundle_id".points, .str manifest.bundleId),
      ("bundle_version".points, .str manifest.bundleVersion),
      ("host_api_range".points, .str apiRange),
      ("components".points, .arr (manifest.components.map nativeComponent))]

-- What the launch options ask for: options with an object, and flags.
structure LaunchOptions where
  json  : Fields
  flags : List Text

def launchOption (options : LaunchOptions) (item : Text × Value) : Except PlanFailure LaunchOptions :=
  match booleanLaunchOptions.lookup item.1 with
  | some flag => match item.2 with
    | .bool true  => .ok { options with flags := options.flags ++ [flag] }
    | .bool false => .ok options
    | _           => .error (.notBoolean item.1)
  | none      => match item.2 with
    | .obj fields =>
      .ok { options with
        json := options.json ++ [((jsonLaunchOptions.lookup item.1).getD [], .obj fields)] }
    | _           => .error (.notObject item.1)

-- `configuration.get(name, {})`, if it is an object.
def objectOf? (configuration : Fields) (name : String) : Option Fields :=
  match configuration.get? name.points with
  | none              => some []
  | some (.obj items) => some items
  | _                 => none

def knownOptions : List Text :=
  (jsonLaunchOptions ++ booleanLaunchOptions).map (·.1)

def launchOptions (configuration : Fields) : Except PlanFailure LaunchOptions :=
  match objectOf? configuration "launch_options" with
  | none       => .error .launchOptions
  | some items =>
    let unknown := items.keys.filter (· ∉ knownOptions)
    if unknown ≠ [] then .error (.unsupported (sortedSet unknown))
    else items.foldlM launchOption ⟨[], []⟩

def isText : Value → Bool
  | .str _ => true
  | _      => false

-- The declared variables, each with its own value or with the one of the configuration.
def overridden (declared : List (Text × Text)) (overrides : Fields) : List (Text × Text) :=
  declared.map fun item => match overrides.get? item.1 with
    | some (.str value) => (item.1, value)
    | _                 => item

def environment (manifest : BundleManifest) (configuration : Fields) :
    Except PlanFailure (List (Text × Text)) :=
  match objectOf? configuration "environment" with
  | none           => .error .environment
  | some overrides =>
    let declared := manifest.activation.environment
    let unknown := overrides.keys.filter (· ∉ declared.map (·.1))
    if unknown ≠ [] then .error (.undeclared (sortedSet unknown))
    else if ¬overrides.all (isText ·.2) then .error .notStrings
    else .ok (overridden declared overrides)

-- The option that names the policy of a contract, if there is a component for it.
def policyOption (manifest : BundleManifest) (contract : Text) (option : String) :
    Except PlanFailure (List (Text × Text)) :=
  match manifest.components.filter (contract ∈ ·.contracts) with
  | []          => .ok []
  | [component] => match qualname? component.implementationRef with
    | some name => .ok [(option.points, name)]
    | none      => .error .implementationRef
  | _           => .error (.notOne contract)

def vllmOptions (manifest : BundleManifest) : Except PlanFailure (List (Text × Text)) := do
  let preemption ← policyOption manifest preemptionContract "--preemption-policy"
  let admission ← policyOption manifest admissionContract "--batch-admission-policy"
  .ok (preemption ++ admission)

def strings (items : List (Text × Text)) : Value :=
  .obj (items.map fun item => (item.1, .str item.2))

def additionalConfig (manifest : BundleManifest) : Fields :=
  manifest.activation.additionalConfig.filter (·.1 ≠ runtimeQualificationKey)

-- A key that is there if something has been generated for it.
def optional (name : String) (generated : Bool) (value : Value) : Fields :=
  if generated then [(name.points, value)] else []

-- What is generated for a launch. The flags and options are kept in the order in which they are
-- generated, which is the same for all plans.
structure Generated where
  environment      : List (Text × Text)
  additionalConfig : Fields
  userConfig       : Fields
  launchOptions    : LaunchOptions
  plugins          : List Text
  options          : List (Text × Text)
  nativeManifest   : Option Value

def Generated.config (g : Generated) : Fields :=
  [("environment".points, strings g.environment),
    ("additional_config".points, .obj g.additionalConfig),
    ("user_config".points, .obj g.userConfig),
    ("vllm_json_options".points, .obj g.launchOptions.json)] ++
  optional "vllm_plugins" (g.plugins ≠ []) (texts g.plugins) ++
  optional "vllm_flags" (g.launchOptions.flags ≠ []) (texts g.launchOptions.flags) ++
  optional "vllm_options" (g.options ≠ []) (strings g.options) ++
  optional "native_extension_manifest" g.nativeManifest.isSome (g.nativeManifest.getD .null)

def generated (manifest : BundleManifest) (configuration : Fields) : Except PlanFailure Generated := do
  let launchOptions ← launchOptions configuration
  let environment ← environment manifest configuration
  let options ← vllmOptions manifest
  .ok {
    environment
    additionalConfig := additionalConfig manifest
    userConfig       := configuration
    launchOptions
    plugins          := declaredVllmPluginNames manifest
    options
    nativeManifest   := nativeManifest? manifest
  }

-- What a plan is made of: nothing is generated for a bundle that cannot be enabled.
inductive Planned
  | inspectOnly (blocker : Text)
  | launch (g : Generated)

def planned (manifest : BundleManifest) (configuration : Fields) : Except PlanFailure Planned :=
  match activationBlocker manifest with
  | .error _           => .error .typeError
  | .ok (some blocker) => .ok (.inspectOnly blocker)
  | .ok none           => (generated manifest configuration).map .launch

def inProcessWarnings (manifest : BundleManifest) : List Text :=
  if manifest.kind = "scheduler_policy".points ∧ manifest.protocols ≠ [] then
    [("in-process scheduler activation requires explicit host and " ++
      "protocol compatibility evidence; run refuses unverified policies").points]
  else []

def action (operation target : Text) (manifest : BundleManifest) (enabled : Bool) : PlanAction where
  operation      := operation
  target         := target
  lifecycleOwner := manifest.lifecycleOwner
  mutating       := false
  details        := [("enabled".points, .bool enabled)]

-- `VllmProvider.plan`, with the resource claims of the manifest.
def plan (manifest : BundleManifest) (enabled : Bool) : Planned → ProviderPlan
  | .inspectOnly blocker => {
      extensionId     := manifest.bundleId
      provider        := "vllm".points
      actions         := [action "inspect_only".points manifest.bundleId manifest false]
      generatedConfig := []
      warnings        := [blocker]
      resourceClaims  := manifest.resourceClaims
    }
  | .launch g            => {
      extensionId     := manifest.bundleId
      provider        := "vllm".points
      actions         := [action "configure_launch".points "vllm".points manifest enabled]
      generatedConfig := g.config
      warnings        := inProcessWarnings manifest
      resourceClaims  := manifest.resourceClaims
    }

-- `plan_for`, of a bundle whose provider is the one of vLLM.
def planFor (bundle : InstalledBundle) (extension : Manager.ExtensionConfig) :
    Except PlanFailure ProviderPlan :=
  if bundle.manifest.host.provider ≠ "vllm".points then .error .otherProvider
  else (planned bundle.manifest extension.configuration).map (plan bundle.manifest extension.enabled)

end Provider
