import ExtManager.Provider.Vllm

open Manifest (BundleManifest InstalledBundle isImplementation)

-- What `run` makes of the plans of the enabled bundles.
namespace Provider

inductive LaunchFailure
  | blocked (f : Manager.Failure)
  | noCommand
  | json
  | additionalConfig (keys : List Text)
  | disagree (key : Text)
  | plan (f : PlanFailure)
  | conflict (c : Conflict)
  | noValue (option : Text)
  | option (option : Text)
  | pluginOwners (owner bundleId name : Text)
  | environment (key : Text)
  | malformed (key : Text)
  | unsupported (option : Text)
  deriving DecidableEq

abbrev Command :=
  List Text

-- `argument.partition("=")[2]` of `--option=value`.
def assigned? (option argument : Text) : Option Text :=
  if (option ++ "=".points).isPrefixOf argument then some (argument.dropWhile (· ≠ '='.toNat)).tail
  else none

-- Where an option stands first: what is before it, the option, and what is behind it.
inductive Found
  | absent
  | separate (before behind : Command)
  | joined (before : Command) (value : Text) (behind : Command)

def find (option : Text) : Command → Found
  | []               => .absent
  | argument :: rest =>
    if argument = option then .separate [] rest
    else match assigned? option argument with
      | some value => .joined [] value rest
      | none       => match find option rest with
        | .absent                     => .absent
        | .separate before behind     => .separate (argument :: before) behind
        | .joined before value behind => .joined (argument :: before) value behind

def additionalConfigOption : Text :=
  "--additional-config".points

section Merge

variable [PythonJson]

-- `json.dumps(value, separators=(",", ":"), sort_keys=True)`
def dumps (value : Value) : Text :=
  Dumps.value (Dumps.ascii PythonJson.floatRepr) value

def loads (text : Text) : Except LaunchFailure Value :=
  match PythonJson.loads text with
  | .ok value => .ok value
  | .error _  => .error .json

def loadsObject (text : Text) : Except LaunchFailure Fields := do
  match ← loads text with
  | .obj fields => .ok fields
  | _           => .error .json

-- `existing.update(activation)`
def update (existing activation : Fields) : Fields :=
  activation.foldl (fun fields item =>
    Fields.insert (fields.filter (·.1 ≠ item.1)) item.1 item.2) existing

def mergeConfig (existing activation : Fields) : Except LaunchFailure Fields :=
  let conflicts := activation.filter fun item =>
    ((existing.get? item.1).map fun value => !value.same item.2).getD false
  if conflicts ≠ [] then .error (.additionalConfig (sortedSet (conflicts.map (·.1))))
  else .ok (update existing activation)

def mergeCommandConfig (command : Command) (activation : Fields) : Except LaunchFailure Command :=
  if activation = [] then .ok command
  else match find additionalConfigOption command with
    | .absent                     => do
      let merged ← mergeConfig [] activation
      .ok (command ++ [additionalConfigOption, dumps (.obj merged)])
    | .separate _ []              => .error .json
    | .separate before (raw :: behind) => do
      let existing ← loadsObject raw
      let merged ← mergeConfig existing activation
      .ok (before ++ [additionalConfigOption, dumps (.obj merged)] ++ behind)
    | .joined before raw behind   => do
      let existing ← loadsObject raw
      let merged ← mergeConfig existing activation
      .ok (before ++ [additionalConfigOption ++ "=".points ++ dumps (.obj merged)] ++ behind)

def mergeJsonOption (command : Command) (option : Text) (generated : Value) :
    Except LaunchFailure Command :=
  match find option command with
  | .absent               => .ok (command ++ [option, dumps generated])
  | .separate _ []        => .error (.noValue option)
  | .separate _ (raw :: _) | .joined _ raw _ => do
    let existing ← loads raw
    if existing.same generated then .ok command else .error (.option option)

def mergeScalarOption (command : Command) (option generated : Text) : Except LaunchFailure Command :=
  match find option command with
  | .absent        => .ok (command ++ [option, generated])
  | .separate _ [] => .error (.noValue option)
  | .separate _ (value :: _) | .joined _ value _ =>
    if value = generated then .ok command else .error (.option option)

def jsonOptions : List Text :=
  [additionalConfigOption, "--batch-admission-policy-config".points, "--speculative-config".points]

def scalarOptions : List Text :=
  ["--batch-admission-policy".points, "--preemption-policy".points]

def reserveFlag : Text :=
  "--scheduler-reserve-output-budget".points

-- `generated_config.get(key, {})`, if it is an object.
def objectAt (plan : ProviderPlan) (key : String) : Except LaunchFailure Fields :=
  match objectOf? plan.generatedConfig key with
  | some fields => .ok fields
  | none        => .error (.malformed key.points)

def arrayAt (plan : ProviderPlan) (key : String) : Except LaunchFailure (List Value) :=
  match plan.generatedConfig.get? key.points with
  | none              => .ok []
  | some (.arr items) => .ok items
  | _                 => .error (.malformed key.points)

def mergeJson (command : Command) (item : Text × Value) : Except LaunchFailure Command :=
  match item.2 with
  | .obj _ =>
    if item.1 ∈ jsonOptions then mergeJsonOption command item.1 item.2
    else .error (.unsupported item.1)
  | _      => .error (.unsupported item.1)

def mergeScalar (command : Command) (item : Text × Value) : Except LaunchFailure Command :=
  match item.2 with
  | .str value =>
    if item.1 ∈ scalarOptions then mergeScalarOption command item.1 value
    else .error (.unsupported item.1)
  | _          => .error (.unsupported item.1)

def mergeFlag (command : Command) (flag : Value) : Except LaunchFailure Command :=
  if flag ≠ .str reserveFlag then .error (.unsupported reserveFlag)
  else .ok (if reserveFlag ∈ command then command else command ++ [reserveFlag])

-- `_merge_provider_plan`, for a plan of the provider of vLLM.
def mergeProviderPlan (command : Command) (plan : ProviderPlan) : Except LaunchFailure Command := do
  let json ← objectAt plan "vllm_json_options"
  let command ← json.foldlM mergeJson command
  let scalars ← objectAt plan "vllm_options"
  let command ← scalars.foldlM mergeScalar command
  let flags ← arrayAt plan "vllm_flags"
  flags.foldlM mergeFlag command

-- One entry of an additional configuration.
def mergeEntry (merged : Dict Text Value) (item : Text × Value) :
    Except LaunchFailure (Dict Text Value) :=
  match merged.get? item.1 with
  | some value =>
    if value.same item.2 then .ok (merged.set item.1 item.2) else .error (.disagree item.1)
  | none       => .ok (merged.set item.1 item.2)

def activationConfig (bundles : List InstalledBundle) : Except LaunchFailure (Dict Text Value) :=
  bundles.foldlM (fun merged bundle =>
    bundle.manifest.activation.additionalConfig.foldlM mergeEntry merged) .empty

end Merge

section Environment

-- `text.split(",")`, stripped and without empty parts.
def commaSeparatedNames (value : Option Text) : List Text :=
  (((value.getD []).splitOn ','.toNat).map Text.strip).filter (· ≠ [])

def builtinPlugin : Text :=
  "ascend".points

def ownName (bundleId : Text) (owned : Dict Text Text × List Text) (name : Text) :
    Except LaunchFailure (Dict Text Text × List Text) :=
  match owned.1.get? name with
  | some owner => if owner ≠ bundleId then .error (.pluginOwners owner bundleId name) else .ok owned
  | none       => .ok (owned.1.set name bundleId, owned.2 ++ [name])

def declaredVllmPlugins (bundles : List InstalledBundle) : Except LaunchFailure (List Text) := do
  let sorted := bundles.insertionSort (·.bundleId ≤ ·.bundleId)
  let owned ← sorted.foldlM (fun owned bundle =>
    (declaredVllmPluginNames bundle.manifest).foldlM (ownName bundle.bundleId) owned) (.empty, [])
  .ok owned.2

def setVariable (environment : Dict Text Text) (item : Text × Value) :
    Except LaunchFailure (Dict Text Text) :=
  match item.2 with
  | .str value => match environment.get? item.1 with
    | some value' =>
      if value' ≠ value then .error (.environment item.1) else .ok (environment.set item.1 value)
    | none        => .ok (environment.set item.1 value)
  | _          => .error (.malformed item.1)

-- The variables of a bundle: those of its plan, or those of its manifest.
def bundleEnvironment (plans : Dict Text ProviderPlan) (bundle : InstalledBundle) :
    Except LaunchFailure Fields :=
  match plans.get? bundle.bundleId with
  | some plan => objectAt plan "environment"
  | none      => .ok (bundle.manifest.activation.environment.map fun item => (item.1, .str item.2))

def pluginsVariable : Text :=
  "VLLM_PLUGINS".points

def bundlesVariable : Text :=
  "VLLMHUST_EXT_ENABLED_BUNDLES".points

def commas (names : List Text) : Text :=
  ",".points.intercalate names

def mergePlugins (outer : Option Text) (environment : Dict Text Text) (activated : List Text) :
    Dict Text Text :=
  if activated = [] then environment
  else
    let names := commaSeparatedNames outer ++
      commaSeparatedNames (environment.get? pluginsVariable)
    let names := if builtinPlugin ∈ names then names else names ++ [builtinPlugin]
    (environment.erase pluginsVariable).set pluginsVariable (commas (fromKeys (names ++ activated)))

-- `outer` is the variable `VLLM_PLUGINS` of the manager's own environment.
def activationEnvironment (outer : Option Text) (bundles : List InstalledBundle)
    (plans : List ProviderPlan) : Except LaunchFailure (Dict Text Text) := do
  let planned := Dict.ofList (plans.map fun plan => (plan.extensionId, plan))
  let environment ← bundles.foldlM (fun environment bundle => do
    let items ← bundleEnvironment planned bundle
    items.foldlM setVariable environment) .empty
  let activated ← declaredVllmPlugins bundles
  .ok <| (mergePlugins outer environment activated).set bundlesVariable
    (commas (bundles.map (·.bundleId)))

end Environment

structure Launch where
  command         : Command
  environment     : Dict Text Text
  nativeManifests : List (Text × Value)

def nativeManifest (plan : ProviderPlan) : Option (Text × Value) :=
  (plan.generatedConfig.get? "native_extension_manifest".points).map (plan.extensionId, ·)

variable [PythonJson]

-- The command behind `--`, if there is one.
def started (arguments : Command) : Command :=
  let command := if arguments = [] then ["vllm".points] else arguments
  if command.head? = some "--".points then command.tail else command

-- What `_run_command` does behind its checks of the host: a launch of bundles with their
-- configurations.
def runCommand (outer : Option Text) (arguments : Command)
    (enabled : List (InstalledBundle × Manager.ExtensionConfig)) : Except LaunchFailure Launch := do
  let bundles := enabled.map (·.1)
  (bundles.forM Manager.requireUnblocked).mapError .blocked
  let command := started arguments
  if command = [] then .error .noCommand
  else do
    let activation ← activationConfig bundles
    let command ← mergeCommandConfig command (activation.items.insertionSort (·.1 ≤ ·.1))
    let plans ← enabled.mapM fun (bundle, extension) =>
      (planFor bundle extension).mapError .plan
    (rejectConflictingPlans plans).mapError .conflict
    let command ← plans.foldlM mergeProviderPlan command
    let environment ← activationEnvironment outer bundles plans
    .ok { command, environment, nativeManifests := plans.filterMap nativeManifest }

-- What `parse_manifest` lets through.
structure WellFormed [Alphanumeric] (manifest : BundleManifest) : Prop where
  refs       : ∀ c ∈ manifest.components, isImplementation c.implementationRef
  environment : (manifest.activation.environment.map (·.1)).Nodup
  additional : manifest.activation.additionalConfig.Sorted

end Provider
