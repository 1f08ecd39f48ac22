import ExtManager.Codec.Loads
import ExtManager.Manager.Enabled

open Unicode

-- The file that the configuration is kept in.
namespace Manager

-- The interpreter's stack: what `json.dump` and `json.loads` get through, and up to which depth of
-- nesting they get through anything. Beyond it they may raise a `RecursionError`.
class Stack where
  dumps  : Value → Bool
  loads  : Text → Bool
  levels : Nat

variable [PythonJson]

inductive ExtensionFailure
  | notObject
  | unknownKeys (keys : List Text)
  | enabled
  | configuration
  deriving DecidableEq

-- How `load_config` fails.
inductive LoadFailure
  | decode
  -- A `RecursionError`.
  | recursion
  | json (f : LoadsFailure)
  | notObject
  | legacy
  | schema
  | extensions
  | extension (extensionId : Text) (f : ExtensionFailure)
  deriving DecidableEq

def extensionConfig (extensionId : Text) (value : Value) : Except LoadFailure ExtensionConfig :=
  match value with
  | .obj fields => do
    let unknown := (Fields.keys fields).filter (· ∉ ["enabled".points, "configuration".points])
    if unknown ≠ [] then .error (.extension extensionId (.unknownKeys unknown))
    let enabled ← match (Fields.get? fields "enabled".points).getD (.bool false) with
      | .bool b => .ok b
      | _       => .error (.extension extensionId .enabled)
    let configuration ← match (Fields.get? fields "configuration".points).getD (.obj []) with
      | .obj c => .ok c
      | _      => .error (.extension extensionId .configuration)
    .ok ⟨enabled, configuration⟩
  | _           => .error (.extension extensionId .notObject)

def legacyId (item : Value) : Except LoadFailure Text :=
  match item with
  | .str t => .ok t
  | _      => .error .legacy

def legacyConfig (payload : Fields) : Except LoadFailure UserConfig :=
  match (payload.get? "enabled".points).getD (.arr []) with
  | .arr items => do
    let ids ← items.mapM legacyId
    .ok ⟨.ofList (ids.map (·, ⟨true, []⟩))⟩
  | _          => .error .legacy

-- `payload.get("schema_version") == n`.
def isVersion (payload : Fields) (n : Int) : Bool :=
  (payload.get? "schema_version".points).any (·.same (.int n))

def loadPayload (payload : Value) : Except LoadFailure UserConfig :=
  match payload with
  | .obj payload =>
    if isVersion payload 1 then legacyConfig payload
    else if !isVersion payload 2 then .error .schema
    else match (Fields.get? payload "extensions".points).getD (.obj []) with
      | .obj extensions => do
        let extensions ← extensions.mapM fun (extensionId, value) =>
          (extensionId, ·) <$> extensionConfig extensionId value
        .ok ⟨.ofList extensions⟩
      | _               => .error .extensions
  | _            => .error .notObject

-- Without a file nothing is configured.
def loadConfig [Stack] (file : Option Bytes) : Except LoadFailure UserConfig :=
  match file with
  | none     => .ok .empty
  | some raw => do
    let text ← match utf8 false raw with
      | none      => .error .decode
      | some text => .ok text
    if !Stack.loads text then .error .recursion
    let payload ← (Scanner.read PythonJson.reader text).mapError .json
    loadPayload payload

-- The object that `save_config` writes for an extension.
def extensionValue (state : ExtensionConfig) : Value :=
  .obj [("configuration".points, .obj state.configuration), ("enabled".points, .bool state.enabled)]

def payload (config : UserConfig) : Value :=
  .obj [("extensions".points, .obj (config.saved.extensions.items.map fun (extensionId, state) =>
    (extensionId, extensionValue state))), ("schema_version".points, .int 2)]

def configText (config : UserConfig) : Text :=
  Dumps.written (.indented 2) PythonJson.style 0 (payload config) ++ ['\n'.toNat]

-- What `save_config` writes, `none` where the stack is exhausted or the text has no encoding.
def configBytes [Stack] (config : UserConfig) : Option Bytes :=
  if Stack.dumps (payload config) then encode (configText config) else none

-- What is not nested too deep is written, and what is written for it is read. There are at least as
-- many levels as a file has for an extension that is not configured.
class LawfulStack [Stack] : Prop where
  levels : 4 ≤ Stack.levels
  dumps (v : Value) : v.depth ≤ Stack.levels → Stack.dumps v
  loads (v : Value) : v.Dumpable → v.depth ≤ Stack.levels →
    Stack.loads (Dumps.written (.indented 2) PythonJson.style 0 v ++ ['\n'.toNat])

-- A configuration that has been read from JSON, with room for the levels of the file around it.
structure Storing [Stack] (configuration : Fields) : Prop where
  dumpable : (Value.obj configuration).Dumpable
  depth    : (Value.obj configuration).depth + 3 ≤ Stack.levels

-- What is configured can be written to the file.
def Storable [Stack] (config : UserConfig) : Prop :=
  ∀ item ∈ config.extensions.items, item.1.Spelled ∧ Storing item.2.configuration

variable {config : UserConfig}

omit [PythonJson] in
theorem spelled_of_ascii {t : Text} (h : ∀ p ∈ t, p < 0x80) : t.Spelled where
  points p hp := (h p hp).trans (by decide)
  unpaired    := by
    apply List.Pairwise.isChain
    apply List.pairwise_of_forall_mem_list
    intro p hp q _
    have hhigh : isHigh p = false := by
      have := h p hp
      simp only [isHigh, Bool.and_eq_false_iff, decide_eq_false_iff_not]
      omega
    simp [hhigh]

section Keys

omit [PythonJson]

theorem spelled_extensionKeys :
    ("configuration".points).Spelled ∧ ("enabled".points).Spelled :=
  ⟨spelled_of_ascii (by decide), spelled_of_ascii (by decide)⟩

theorem spelled_payloadKeys :
    ("extensions".points).Spelled ∧ ("schema_version".points).Spelled :=
  ⟨spelled_of_ascii (by decide), spelled_of_ascii (by decide)⟩

theorem sorted_pair {a b : Text} {v w : Value} (h : a < b) : Fields.Sorted [(a, v), (b, w)] :=
  List.pairwise_pair.mpr h

end Keys

omit [PythonJson] in
theorem mem_saved {item : Text × ExtensionConfig} :
    item ∈ config.saved.extensions.items ↔ item ∈ config.extensions.items :=
  (List.perm_insertionSort _ _).mem_iff

variable [Stack]

omit [PythonJson] [Stack] in
-- No extension is saved twice, and each after those before it.
theorem saved_sorted (config : UserConfig) :
    config.saved.extensions.items.Pairwise (·.1 < ·.1) := by
  have hle : config.saved.extensions.items.Pairwise (·.1 ≤ ·.1) :=
    List.pairwise_insertionSort (fun x y : Text × ExtensionConfig => x.1 ≤ y.1) _
  have hne : config.saved.extensions.items.Pairwise (·.1 ≠ ·.1) :=
    List.pairwise_map.mp config.saved.extensions.nodup
  exact hle.imp₂ (fun _ _ hle hne => lt_of_le_of_ne hle hne) hne

omit [Stack] in
theorem extensionValue_dumpable {state : ExtensionConfig}
    (h : (Value.obj state.configuration).Dumpable) : (extensionValue state).Dumpable := by
  apply Value.Dumpable.obj
  · exact sorted_pair (by decide)
  · exact List.forall_mem_cons.mpr ⟨spelled_extensionKeys.left,
      List.forall_mem_singleton.mpr spelled_extensionKeys.right⟩
  · exact List.forall_mem_cons.mpr ⟨h, List.forall_mem_singleton.mpr .bool⟩

theorem payload_dumpable (h : Storable config) : (payload config).Dumpable := by
  have hitems : ∀ item ∈ config.saved.extensions.items,
      item.1.Spelled ∧ Storing item.2.configuration :=
    fun item hm => h item (mem_saved.mp hm)
  have hextensions : (Value.obj (config.saved.extensions.items.map fun (extensionId, state) =>
      (extensionId, extensionValue state))).Dumpable := by
    apply Value.Dumpable.obj
    · exact List.pairwise_map.mpr (saved_sorted config)
    · exact List.forall_mem_map.mpr fun item hm => (hitems item hm).left
    · exact List.forall_mem_map.mpr fun item hm =>
        extensionValue_dumpable (hitems item hm).right.dumpable
  apply Value.Dumpable.obj
  · exact sorted_pair (by decide)
  · exact List.forall_mem_cons.mpr ⟨spelled_payloadKeys.left,
      List.forall_mem_singleton.mpr spelled_payloadKeys.right⟩
  · exact List.forall_mem_cons.mpr ⟨hextensions, List.forall_mem_singleton.mpr (.int (by decide))⟩

-- An extension with its configuration stands three levels down.
theorem depth_payload [LawfulStack] (h : Storable config) :
    (payload config).depth ≤ Stack.levels := by
  have hlevels := LawfulStack.levels
  have hitem : ∀ item ∈ config.saved.extensions.items,
      (extensionValue item.2).depth + 2 ≤ Stack.levels := by
    intro item hm
    have hd := (h item (mem_saved.mp hm)).right.depth
    simp only [extensionValue, Value.depth_obj, Value.depthFields_cons, Value.depthFields_nil, Value.depth_bool]
    rw [Value.depth_obj] at hd
    omega
  let fields : Fields := config.saved.extensions.items.map fun (extensionId, state) =>
    (extensionId, extensionValue state)
  have hfields : Value.depthFields fields ≤ Stack.levels - 2 :=
    Value.depthFields_le.mpr <| List.forall_mem_map.mpr fun item hm =>
      Nat.le_sub_of_add_le (hitem item hm)
  change max (Value.depthFields fields + 1) (max 0 0) + 1 ≤ Stack.levels
  omega

omit [Stack] in
theorem loadPayload_payload (config : UserConfig) :
    loadPayload (payload config) = .ok config.saved := by
  have hitems : (config.saved.extensions.items.map fun (extensionId, state) =>
      (extensionId, extensionValue state)).mapM (fun (extensionId, value) =>
        (extensionId, ·) <$> extensionConfig extensionId value) =
          .ok config.saved.extensions.items := by
    generalize config.saved.extensions.items = items
    induction items with
    | nil             => rfl
    | cons item _ ih  =>
      rw [List.map_cons, List.mapM_cons, ih]
      rfl
  have hlist : Dict.ofList config.saved.extensions.items = config.saved.extensions := by
    rw [Dict.mk.injEq, Dict.items_ofList config.saved.extensions.nodup]
  change (do
    let extensions ← (config.saved.extensions.items.map fun (extensionId, state) =>
      (extensionId, extensionValue state)).mapM fun (extensionId, value) =>
        (extensionId, ·) <$> extensionConfig extensionId value
    .ok ⟨.ofList extensions⟩ : Except LoadFailure UserConfig) = _
  rw [hitems]
  exact congrArg (fun extensions => Except.ok (UserConfig.mk extensions)) hlist

theorem exists_configBytes [LawfulFloat] [LawfulStack] (h : Storable config) :
    ∃ raw, configBytes config = some raw ∧ loadConfig (some raw) = .ok config.saved := by
  have ⟨raw, he, hd, hr⟩ := @PythonJson.loads_written _ _ ['\n'.toNat] _ _
    (Dumps.Layout.blank_indented 2) (payload_dumpable h) rfl 0
  have hdumps : Stack.dumps (payload config) := LawfulStack.dumps _ (depth_payload h)
  have hloads : Stack.loads (configText config) :=
    LawfulStack.loads _ (payload_dumpable h) (depth_payload h)
  refine ⟨raw, (if_pos hdumps).trans he, ?_⟩
  calc
    loadConfig (some raw) = loadPayload (payload config) := by
      change (do
        let text ← match utf8 false raw with
          | none      => .error .decode
          | some text => .ok text
        if !Stack.loads text then .error .recursion
        let payload ← (Scanner.read PythonJson.reader text).mapError .json
        loadPayload payload : Except LoadFailure UserConfig) = _
      rw [hd]
      change (do
        if !Stack.loads (configText config) then .error .recursion
        let payload ← (Scanner.read PythonJson.reader (configText config)).mapError .json
        loadPayload payload : Except LoadFailure UserConfig) = _
      rw [hloads, configText, hr]
      rfl
    _ = .ok config.saved := loadPayload_payload config

section Saved

omit [PythonJson] [Stack]

theorem saved_saved : config.saved.saved = config.saved := by
  have hitems : config.saved.saved.extensions.items = config.saved.extensions.items :=
    ((saved_sorted config).imp le_of_lt).insertionSort_eq
  have hext {c c' : UserConfig} (h : c.extensions.items = c'.extensions.items) : c = c' := by
    cases c with | mk d =>
    cases c' with | mk d' =>
    cases d
    cases d'
    cases h
    rfl
  exact hext hitems

end Saved

-- What is saved depends on the order of the extensions no more than what is loaded.
theorem configBytes_saved : configBytes config.saved = configBytes config := by
  have hp : payload config.saved = payload config := by rw [payload, payload, saved_saved]
  rw [configBytes, configBytes, configText, configText, hp]

section Storable

-- What a command brings into the configuration can be written to the file.
def Command.Storable : Command → Prop
  | .enable bundleId | .disable bundleId | .forget bundleId => bundleId.Spelled
  | .configure bundleId file => bundleId.Spelled ∧ ∀ fields, file = some (.obj fields) →
    Storing fields

variable {config' : UserConfig} {extensionId : Text} {state : ExtensionConfig}

theorem storable_empty : Storable .empty :=
  fun _ hm => absurd hm List.not_mem_nil

theorem Storable.saved (h : Storable config) : Storable config.saved :=
  fun item hm => h item (mem_saved.mp hm)

theorem storing_nil [LawfulStack] : Storing [] where
  dumpable := .obj .nil (List.forall_mem_nil _) (List.forall_mem_nil _)
  depth    := LawfulStack.levels

theorem Storable.configuration [LawfulStack] (h : Storable config) (extensionId : Text) :
    Storing (config.extension extensionId).configuration := by
  rw [UserConfig.extension]
  cases hg : config.extensions.get? extensionId
  case none       => exact storing_nil
  case some state => exact (h (extensionId, state) (Dict.mem_items_iff.mpr hg)).right

theorem Storable.withExtension (h : Storable config) (hi : extensionId.Spelled)
    (hs : Storing state.configuration) :
    Storable (config.withExtension extensionId state) := by
  intro (key, value) hm
  have hg := Dict.mem_items_iff.mp hm
  rw [UserConfig.withExtension, Dict.get?_set] at hg
  split at hg
  case isTrue hk =>
    cases hk
    cases hg
    exact ⟨hi, hs⟩
  case isFalse => exact h (key, value) (Dict.mem_items_iff.mpr hg)

theorem Storable.withoutExtension (h : Storable config) :
    Storable (config.withoutExtension extensionId) :=
  fun item hm => h item (Dict.mem_items_erase.mp hm).left

variable [Packaging] {inventory : Inventory} {command : Command}

theorem Storable.extensionCommand [LawfulStack] (h : Storable config) (hc : command.Storable)
    (he : extensionCommand inventory config command = .ok config') : Storable config' := by
  cases command with
  | enable bundleId =>
    have ⟨_, _, he⟩ := Fallible.bind_ok.mp he
    have ⟨_, _, he⟩ := Fallible.bind_ok.mp he
    have ⟨_, _, he⟩ := Fallible.bind_ok.mp he
    have ⟨_, _, he⟩ := Fallible.bind_ok.mp he
    have ⟨_, _, he⟩ := Fallible.bind_ok.mp he
    have ⟨_, _, he⟩ := Fallible.bind_ok.mp he
    cases he
    exact h.withExtension hc (h.configuration bundleId)
  | disable bundleId =>
    have ⟨_, _, he⟩ := Fallible.bind_ok.mp he
    have ⟨_, _, he⟩ := Fallible.bind_ok.mp he
    cases he
    exact h.withExtension hc (h.configuration bundleId)
  | forget bundleId =>
    rw [Manager.extensionCommand, forget] at he
    split at he
    case h_1 => cases he
    case h_2 =>
      split at he
      case isTrue  => cases he
      case isFalse =>
        have ⟨_, _, he⟩ := Fallible.bind_ok.mp he
        have ⟨_, _, he⟩ := Fallible.bind_ok.mp he
        cases he
        exact h.withoutExtension
  | configure bundleId file =>
    have ⟨_, _, he⟩ := Fallible.bind_ok.mp he
    split at he
    case h_1 =>
      cases he
      exact h.withExtension hc.left (hc.right _ rfl)
    case h_2 => cases he

theorem Storable.next [LawfulStack] (h : Storable config) (hc : command.Storable) :
    Storable (next inventory config command) := by
  rw [Manager.next]
  split
  case h_1 he => exact (h.extensionCommand hc he).saved
  case h_2    => exact h

end Storable

end Manager

namespace Manager.Stored

theorem ordered_decode (_ : Text) (v : Value)
    (h : (.error .decode : Except LoadsFailure Value) = .ok v) : v.Ordered := by
  cases h

scoped instance : PythonJson where
  loads _ := .error .decode
  ordered := ordered_decode
  floatRepr := id
  isFinite t := t = "0.5".points
  floatEq t u := t = u
  floatEqInt _ _ := false

scoped instance : LawfulFloat where
  token t h := by
    have he : t = "0.5".points := of_decide_eq_true h
    cases he
    exact ⟨⟨"0".points, ".5".points, [], []⟩, rfl, rfl, by decide, rfl⟩
  bare t h := by
    have he : t = "0.5".points := of_decide_eq_true h
    cases he
    decide
  repr_repr _ _ := rfl

theorem decide_depth (v : Value) (h : v.depth ≤ 900) : decide (v.depth ≤ 900) = true :=
  decide_eq_true h

-- A text as short as those here exhausts no stack.
scoped instance : Stack where
  dumps v := v.depth ≤ 900
  loads _ := true
  levels  := 900

scoped instance : LawfulStack where
  levels := by decide
  dumps v h := decide_depth v h
  loads _ _ _ := rfl

def configuration : Fields :=
  [("paths".points, .arr [.str "a\nb".points, .null]), ("ratio".points, .float "0.5".points)]

-- Two extensions, the later one first.
def config : UserConfig where
  extensions := .ofList
    [("remote".points, ⟨true, configuration⟩), ("local".points, ⟨false, []⟩)]

end Manager.Stored
