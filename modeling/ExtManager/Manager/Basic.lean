import ExtManager.Order.Dfs
import ExtManager.Provider.Basic

open Manifest (BundleManifest InstalledBundle RequiredExtension activationBlocker)

-- The saved intent to run extensions, and the commands that change it.
namespace Manager

structure ExtensionConfig where
  enabled       : Bool
  configuration : Fields
  deriving DecidableEq

structure UserConfig where
  extensions : Dict Text ExtensionConfig

namespace UserConfig

def empty : UserConfig :=
  ⟨.empty⟩

def enabled (config : UserConfig) : List Text :=
  (config.extensions.items.filter (·.2.enabled)).map (·.1)

def extension (config : UserConfig) (extensionId : Text) : ExtensionConfig :=
  (config.extensions.get? extensionId).getD ⟨false, []⟩

def withExtension (config : UserConfig) (extensionId : Text) (extension : ExtensionConfig) :
    UserConfig :=
  ⟨config.extensions.set extensionId extension⟩

def withoutExtension (config : UserConfig) (extensionId : Text) : UserConfig :=
  ⟨config.extensions.erase extensionId⟩

-- What `load_config` reads of what `save_config` has written: the same, by extension.
def saved (config : UserConfig) : UserConfig :=
  ⟨⟨config.extensions.items.insertionSort (·.1 ≤ ·.1),
    ((List.perm_insertionSort _ _).map _).nodup_iff.mpr config.extensions.nodup⟩⟩

end UserConfig

inductive Failure
  | notInstalled (missing : List Text)
  | blocked (bundleId blocker : Text)
  | notEnabled (bundleId : Text) (dependency : RequiredExtension)
  | outOfRange (bundleId : Text) (dependency : RequiredExtension) (found : Text)
  | invalidVersion
  | search (f : Dfs.Failure Text)
  | owners (bundleIds : List Text)
  | conflict (c : Provider.Conflict)
  | dependents (extensionId : Text) (bundleIds : List Text)
  | notStored (extensionId : Text)
  | stillEnabled (extensionId : Text)
  -- The configuration cannot be read, or is not an object.
  | configuration
  | typeError
  deriving DecidableEq

-- The installed bundles, each under its name.
structure Inventory where
  find?    : Text → Option InstalledBundle
  bundleId : ∀ name b, find? name = some b → b.bundleId = name

-- `discover_bundles` of these names.
def discoverBundles (inventory : Inventory) (selected : List Text) :
    Except Failure (List InstalledBundle) :=
  let missing := selected.filter fun name => (inventory.find? name).isNone
  if missing = [] then .ok (selected.filterMap inventory.find?)
  else .error (.notInstalled (sortedSet missing))

def requireUnblocked (bundle : InstalledBundle) : Except Failure Unit :=
  match activationBlocker bundle.manifest with
  | .ok none           => .ok ()
  | .ok (some blocker) => .error (.blocked bundle.bundleId blocker)
  | .error _           => .error .typeError

def ownsProcessTree (bundle : InstalledBundle) : Bool :=
  bundle.manifest.host.provider = "stateaxis".points ∧
    bundle.manifest.runtime.processScope = "stateaxis_processes".points ∧
    bundle.manifest.runtime.isolation = "trusted_in_process".points

def validateProcessOwnership (bundles : List InstalledBundle) : Except Failure Unit :=
  let owners := (bundles.filter ownsProcessTree).map (·.bundleId)
  if 1 < owners.length then .error (.owners (owners.insertionSort (· ≤ ·))) else .ok ()

def resourcePlan (bundle : InstalledBundle) : Provider.ProviderPlan where
  extensionId     := bundle.bundleId
  provider        := bundle.manifest.host.provider
  actions         := []
  generatedConfig := []
  warnings        := []
  resourceClaims  := bundle.manifest.resourceClaims

def validateResourceOwnership [PythonJson] (bundles : List InstalledBundle) : Except Failure Unit :=
  (Provider.rejectConflictingPlans (bundles.map resourcePlan)).mapError .conflict

section Dependencies

variable [Packaging]

-- `Version(version) in SpecifierSet(versionRange)`
def inRange (version versionRange : Text) : Except Failure Bool :=
  match Packaging.version? version, Packaging.specifiers? versionRange with
  | some v, some s => .ok (Packaging.contains s v)
  | _, _           => .error .invalidVersion

def checkDependency (selected : Dict Text InstalledBundle) (bundleId : Text)
    (dependency : RequiredExtension) : Except Failure Unit :=
  match selected.get? dependency.extensionId with
  | none          => .error (.notEnabled bundleId dependency)
  | some required => do
    let satisfied ← inRange required.manifest.bundleVersion dependency.versionRange
    if satisfied then .ok ()
    else .error (.outOfRange bundleId dependency required.manifest.bundleVersion)

def dependencyIds (manifest : BundleManifest) : List Text :=
  manifest.requiresExtensions.map (·.extensionId)

def validateExtensionDependencies (bundles : List InstalledBundle) : Except Failure Unit := do
  let selected := Dict.ofList (bundles.map fun bundle => (bundle.bundleId, bundle))
  let edges := Dict.ofList
    (bundles.map fun bundle => (bundle.bundleId, dependencyIds bundle.manifest))
  bundles.forM fun bundle =>
    bundle.manifest.requiresExtensions.forM (checkDependency selected bundle.bundleId)
  let _ ← (Dfs.visitAll (fun extensionId => (edges.get? extensionId).getD [])
    (edges.keys.insertionSort (· ≤ ·))).mapError .search
  .ok ()

end Dependencies

def validateDependencyRemoval (extensionId : Text) (bundles : List InstalledBundle) :
    Except Failure Unit :=
  let dependents := bundles.filter fun bundle =>
    bundle.bundleId ≠ extensionId ∧ extensionId ∈ dependencyIds bundle.manifest
  if dependents = [] then .ok ()
  else .error (.dependents extensionId ((dependents.map (·.bundleId)).insertionSort (· ≤ ·)))

inductive Command
  | enable (bundleId : Text)
  | disable (bundleId : Text)
  | forget (bundleId : Text)
  -- What the configuration file holds, if it can be read.
  | configure (bundleId : Text) (file : Option Value)

variable [Packaging] [PythonJson] (inventory : Inventory)

def enable (config : UserConfig) (bundleId : Text) : Except Failure UserConfig := do
  let found ← discoverBundles inventory [bundleId]
  found.forM requireUnblocked
  let prospectiveBundles ← discoverBundles inventory (sortedSet (bundleId :: config.enabled))
  validateExtensionDependencies prospectiveBundles
  validateProcessOwnership prospectiveBundles
  validateResourceOwnership prospectiveBundles
  .ok (config.withExtension bundleId ⟨true, (config.extension bundleId).configuration⟩)

def disable (config : UserConfig) (bundleId : Text) : Except Failure UserConfig := do
  let enabledBundles ← discoverBundles inventory config.enabled
  validateDependencyRemoval bundleId enabledBundles
  .ok (config.withExtension bundleId ⟨false, (config.extension bundleId).configuration⟩)

def forget (config : UserConfig) (bundleId : Text) : Except Failure UserConfig :=
  match config.extensions.get? bundleId with
  | none        => .error (.notStored bundleId)
  | some stored =>
    if stored.enabled then .error (.stillEnabled bundleId)
    else do
      let enabledBundles ← discoverBundles inventory config.enabled
      validateDependencyRemoval bundleId enabledBundles
      .ok (config.withoutExtension bundleId)

def configure (config : UserConfig) (bundleId : Text) (file : Option Value) :
    Except Failure UserConfig := do
  let _ ← discoverBundles inventory [bundleId]
  match file with
  | some (.obj configuration) =>
    .ok (config.withExtension bundleId ⟨(config.extension bundleId).enabled, configuration⟩)
  | _                         => .error .configuration

def extensionCommand (config : UserConfig) : Command → Except Failure UserConfig
  | .enable bundleId         => enable inventory config bundleId
  | .disable bundleId        => disable inventory config bundleId
  | .forget bundleId         => forget inventory config bundleId
  | .configure bundleId file => configure inventory config bundleId file

-- A command saves the configuration, or refuses.
def next (config : UserConfig) (command : Command) : UserConfig :=
  match extensionCommand inventory config command with
  | .ok config' => config'.saved
  | .error _    => config

def run (commands : List Command) : UserConfig :=
  commands.foldl (next inventory) .empty

-- What `_run_command` checks of the enabled bundles alone.
def staticChecks (config : UserConfig) : Except Failure Unit := do
  let bundles ← discoverBundles inventory config.enabled
  validateExtensionDependencies bundles
  validateProcessOwnership bundles
  bundles.forM requireUnblocked
  validateResourceOwnership bundles

end Manager
