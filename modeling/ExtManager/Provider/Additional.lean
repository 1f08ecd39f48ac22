import ExtManager.Provider.Command

open Manifest (BundleManifest InstalledBundle isImplementation isModulePath isName)

namespace Dumps

variable {s : Style} {fs : Fields} {q : Text × Value → Bool} {item : Text × Value}

theorem length_fields_cons : (fields s (item :: fs)).length =
    (string s item.1).length + (value s item.2).length + (fields s fs).length + 2 := by
  rw [fields]
  simp only [List.cons_append, List.length_cons, List.length_append]
  omega

theorem length_fields_filter : (fields s (fs.filter q)).length ≤ (fields s fs).length := by
  induction fs with
  | nil               => exact le_rfl
  | cons item rest ih =>
    rw [List.filter_cons]
    split
    case isTrue  =>
      rw [length_fields_cons, length_fields_cons]
      omega
    case isFalse =>
      rw [length_fields_cons]
      omega

theorem length_fields_filter_lt (hm : item ∈ fs) (hq : ¬q item) :
    (fields s (fs.filter q)).length + 2 ≤ (fields s fs).length := by
  induction fs with
  | nil                => cases hm
  | cons item' rest ih =>
    rw [List.filter_cons]
    rcases List.mem_cons.mp hm with rfl | hm
    · have : (fields s (rest.filter q)).length ≤ (fields s rest).length := length_fields_filter
      rw [if_neg hq, length_fields_cons]
      omega
    · have := ih hm
      split
      case isTrue  =>
        rw [length_fields_cons, length_fields_cons]
        omega
      case isFalse =>
        rw [length_fields_cons]
        omega

theorem length_obj : (value s (.obj fs)).length ≤ (fields s fs).length + 1 ∧
    (fs ≠ [] → (value s (.obj fs)).length = (fields s fs).length) := by
  cases fs
  case nil  => exact ⟨by simp [value, fields, String.points], fun h => absurd rfl h⟩
  case cons =>
    rw [value, fields]
    simp

-- A text becomes shorter when a field is left out.
theorem obj_filter_ne (hm : item ∈ fs) (hq : ¬q item) :
    value s (.obj (fs.filter q)) ≠ value s (.obj fs) := by
  intro he
  have hlt := length_fields_filter_lt (s := s) hm hq
  have hle : (value s (.obj (fs.filter q))).length ≤ (fields s (fs.filter q)).length + 1 :=
    length_obj.left
  have heq : (value s (.obj fs)).length = (fields s fs).length :=
    length_obj.right (List.ne_nil_of_mem hm)
  have := congrArg List.length he
  omega

end Dumps

namespace Provider

section Merge

variable {l : List (Text × Value)} {merged merged' : Dict Text Value} {item : Text × Value}
  {key key' : Text} {bundles : List InstalledBundle}

theorem get?_ofList_filter : (Dict.ofList (l.filter (·.1 ≠ key))).get? key' =
    if key' = key then none else (Dict.ofList l).get? key' := by
  have hrun : ∀ d d' : Dict Text Value, (∀ k, d'.get? k = if k = key then none else d.get? k) → ∀ k,
      ((l.filter (·.1 ≠ key)).foldl (fun d x => d.set x.1 x.2) d').get? k =
        if k = key then none else (l.foldl (fun d x => d.set x.1 x.2) d).get? k := by
    induction l with
    | nil               => exact fun d d' h => h
    | cons item rest ih =>
      intro d d' h
      rw [List.filter_cons, List.foldl_cons]
      by_cases hi : item.1 = key
      case pos =>
        rw [if_neg (by simpa using hi)]
        refine ih _ _ fun k => ?_
        rw [h, Dict.get?_set, hi]
        split <;> rfl
      case neg =>
        rw [if_pos (by simpa using hi), List.foldl_cons]
        refine ih _ _ fun k => ?_
        rw [Dict.get?_set, Dict.get?_set, h]
        by_cases hk : k = item.1
        case pos => rw [if_pos hk, if_neg (hk ▸ hi), if_pos hk]
        case neg => rw [if_neg hk, if_neg hk]
  exact hrun .empty .empty (fun k => (ite_self _).symm) key'

theorem get?_sorted :
    Fields.get? (merged.items.insertionSort (·.1 ≤ ·.1)) key = merged.get? key := by
  have hp := List.perm_insertionSort (·.1 ≤ ·.1) merged.items
  have hn : ((merged.items.insertionSort (·.1 ≤ ·.1)).map (·.1)).Nodup :=
    (hp.map _).nodup_iff.mpr merged.nodup
  refine Option.ext fun v => ?_
  rw [← Dict.mem_items_iff, ← hp.mem_iff]
  exact ⟨Assoc.mem_of_lookup, Assoc.lookup_of_nodup hn⟩

variable [PythonJson]

theorem mergeEntry_ok (h : mergeEntry merged item = .ok merged') : merged' = merged.set item.1 item.2 := by
  unfold mergeEntry at h
  split at h
  case h_1 =>
    split at h
    case isTrue  => exact (Except.ok.inj h).symm
    case isFalse => cases h
  case h_2 => exact (Except.ok.inj h).symm

theorem activationConfig_ok (h : activationConfig bundles = .ok merged) :
    merged = .ofList (bundles.flatMap (·.manifest.activation.additionalConfig)) := by
  rw [Dict.ofList, List.foldl_flatMap]
  exact Fallible.foldlM_eq (fun _ _ _ h => Fallible.foldlM_eq (fun _ _ _ h => mergeEntry_ok h) h) h

end Merge

section Appended

variable {option argument : Text} {command command' behind : Command}

theorem find_free (h : Free option command) : find option command = .absent := by
  induction command with
  | nil                  => rfl
  | cons argument _ ih =>
    have ⟨⟨hne, hv⟩, h⟩ := List.forall_mem_cons.mp h
    rw [find, if_neg hne, hv, ih h]

-- Only arguments that have nothing to do with the option have been appended.
def Appends (option : Text) (command command' : Command) : Prop :=
  ∃ behind, command' = command ++ behind ∧ Free option behind

theorem Appends.refl (command : Command) : Appends option command command :=
  ⟨[], (List.append_nil _).symm, nofun⟩

theorem Appends.trans (c₁ c₂ c₃ : Command) (h₁ : Appends option c₁ c₂) (h₂ : Appends option c₂ c₃) :
    Appends option c₁ c₃ := by
  obtain ⟨b₁, rfl, h₁⟩ := h₁
  obtain ⟨b₂, rfl, h₂⟩ := h₂
  exact ⟨b₁ ++ b₂, List.append_assoc .., List.forall_mem_append.mpr ⟨h₁, h₂⟩⟩

theorem occurrences_nil (h : Free option command) : occurrences option command = [] := by
  rw [← List.append_nil command, occurrences_free h]
  rfl

theorem Appends.pair {option' value : Text} (ho : Absent option option') (hv : Absent option value) :
    Appends option command (command ++ [option', value]) :=
  ⟨_, rfl, List.forall_mem_cons.mpr ⟨ho, List.forall_mem_singleton.mpr hv⟩⟩

-- An option starts with a dash.
theorem absent_of_head {c : Nat} (h : argument.head? = some c) (hc : c ≠ '-'.toNat) :
    Absent additionalConfigOption argument := by
  match argument with
  | c' :: rest =>
    cases h
    have hne {t : Text} (he : c :: rest = '-'.toNat :: t) : False := hc (List.cons.inj he).left
    refine ⟨fun he => hne he, ?_⟩
    have hp : ¬(additionalConfigOption ++ "=".points).isPrefixOf (c :: rest) := by
      intro hp
      obtain ⟨t, ht⟩ := List.isPrefixOf_iff_prefix.mp hp
      exact hne ht.symm
    rw [assigned?, if_neg hp]

-- None of the options that a launch writes by itself is the one for the additional config.
theorem options_absent :
    (∀ option ∈ scalarOptions, Absent additionalConfigOption option) ∧
    (∀ x ∈ jsonLaunchOptions, Absent additionalConfigOption x.2) ∧
    Absent additionalConfigOption reserveFlag ∧ Absent additionalConfigOption "vllm".points ∧
    Absent additionalConfigOption [] := by
  decide +kernel

variable [PythonJson] {fields : Fields} {item : Text × Value} {generated flag : Text} {value : Value}

theorem mergeJsonOption_appends (ho : Absent additionalConfigOption option)
    (h : mergeJsonOption command option (.obj fields) = .ok command') :
    Appends additionalConfigOption command command' := by
  have hobj : Absent additionalConfigOption (dumps (.obj fields)) := by
    refine absent_of_head (c := '\x7b'.toNat) ?_ (by decide)
    cases fields
    all_goals rfl
  rcases mergeJsonOption_ok h with ⟨-, rfl⟩ | ⟨rfl, -⟩
  · exact .pair ho hobj
  · exact .refl _

omit [PythonJson] in
theorem mergeScalarOption_appends (ho : Absent additionalConfigOption option)
    (hg : Absent additionalConfigOption generated)
    (h : mergeScalarOption command option generated = .ok command') :
    Appends additionalConfigOption command command' := by
  rcases mergeScalarOption_ok h with ⟨-, rfl⟩ | ⟨rfl, -⟩
  · exact .pair ho hg
  · exact .refl _

theorem mergeJson_appends (ho : Absent additionalConfigOption item.1)
    (h : mergeJson command item = .ok command') : Appends additionalConfigOption command command' := by
  unfold mergeJson at h
  split at h
  case h_1 hv =>
    split at h
    case isTrue  => exact mergeJsonOption_appends ho (hv ▸ h)
    case isFalse => cases h
  case h_2    => cases h

omit [PythonJson] in
theorem mergeScalar_appends (hg : ∀ t, item.2 = .str t → Absent additionalConfigOption t)
    (h : mergeScalar command item = .ok command') : Appends additionalConfigOption command command' := by
  unfold mergeScalar at h
  split at h
  case h_1 hv =>
    split at h
    case isTrue ho => exact mergeScalarOption_appends (options_absent.left _ ho) (hg _ hv) h
    case isFalse   => cases h
  case h_2    => cases h

omit [PythonJson] in
theorem mergeFlag_appends (h : mergeFlag command value = .ok command') :
    Appends additionalConfigOption command command' := by
  obtain ⟨-, -, hflag, -⟩ := options_absent
  unfold mergeFlag at h
  split at h
  case isTrue  => cases h
  case isFalse =>
    cases h
    split
    case isTrue  => exact .refl _
    case isFalse => exact ⟨_, rfl, List.forall_mem_singleton.mpr hflag⟩

end Appended

section Planned

variable {name : String} {b : Bool} {v : Value} {rest : Fields} {key : Text} {g : Generated}
  {manifest : BundleManifest} {configuration : Fields} {options options' : LaunchOptions}
  {bundle : InstalledBundle} {extension : Manager.ExtensionConfig} {plan : ProviderPlan}

theorem lookup_optional : (optional name b v ++ rest).lookup key =
    if b ∧ key = name.points then some v else rest.lookup key := by
  cases b
  case false => simp [optional]
  case true  =>
    simp only [optional, if_true, List.singleton_append, List.lookup_cons, true_and]
    split
    case h_1 hk => rw [if_pos (beq_iff_eq.mp hk)]
    case h_2 hk => rw [if_neg (beq_eq_false_iff_ne.mp hk)]

theorem Generated.config_json :
    objectOf? g.config "vllm_json_options" = some g.launchOptions.json :=
  rfl

theorem Generated.config_additional : objectOf? g.config "additional_config" = some g.additionalConfig :=
  rfl

theorem Generated.config_options :
    objectOf? g.config "vllm_options" = some (g.options.map fun item => (item.1, .str item.2)) := by
  have hfirst : [("environment".points, strings g.environment),
      ("additional_config".points, .obj g.additionalConfig), ("user_config".points, .obj g.userConfig),
      ("vllm_json_options".points, .obj g.launchOptions.json)].lookup "vllm_options".points = none := rfl
  have hplugins : "vllm_options".points ≠ "vllm_plugins".points := by decide
  have hflags : "vllm_options".points ≠ "vllm_flags".points := by decide
  have hnative : "vllm_options".points ≠ "native_extension_manifest".points := by decide
  have hget : Fields.get? g.config "vllm_options".points =
      if g.options ≠ [] then some (strings g.options) else none := by
    unfold Fields.get? Generated.config
    rw [← List.append_nil (_ ++ optional "native_extension_manifest" _ _)]
    rw [List.append_assoc, List.append_assoc, List.append_assoc, List.append_assoc,
      List.lookup_append, hfirst, Option.none_or, lookup_optional, if_neg (hplugins ·.right),
      lookup_optional, if_neg (hflags ·.right), lookup_optional, lookup_optional]
    simp [hnative]
  rw [objectOf?, hget]
  by_cases ho : g.options = []
  case pos =>
    rw [if_neg (not_not.mpr ho), ho]
    rfl
  case neg =>
    rw [if_pos ho]
    rfl

theorem planFor_ok (hu : Manager.requireUnblocked bundle = .ok ()) (h : planFor bundle extension = .ok plan) :
    ∃ g, generated bundle.manifest extension.configuration = .ok g ∧ plan.generatedConfig = g.config := by
  unfold Manager.requireUnblocked at hu
  unfold planFor at h
  split at h
  case isTrue  => cases h
  case isFalse =>
    split at hu
    case h_1 hb =>
      unfold planned at h
      rw [hb] at h
      cases hg : generated bundle.manifest extension.configuration
      all_goals rw [hg] at h
      case error => cases h
      case ok g  =>
        cases h
        exact ⟨g, rfl, rfl⟩
    case h_2    => cases hu
    case h_3    => cases hu

theorem launchOption_absent {item : Text × Value}
    (h : ∀ item ∈ options.json, Absent additionalConfigOption item.1)
    (hr : launchOption options item = .ok options') :
    ∀ item ∈ options'.json, Absent additionalConfigOption item.1 := by
  obtain ⟨-, hnames, -, -, hnil⟩ := options_absent
  unfold launchOption at hr
  split at hr
  case h_1 =>
    split at hr
    all_goals cases hr
    all_goals exact h
  case h_2 =>
    split at hr
    case h_1 =>
      cases hr
      refine List.forall_mem_append.mpr ⟨h, List.forall_mem_singleton.mpr ?_⟩
      dsimp only
      cases hl : jsonLaunchOptions.lookup item.1
      case none   => exact hnil
      case some o => exact hnames _ (Assoc.mem_of_lookup hl)
    case h_2 => cases hr

theorem launchOptions_absent (h : launchOptions configuration = .ok options) :
    ∀ item ∈ options.json, Absent additionalConfigOption item.1 := by
  unfold launchOptions at h
  split at h
  case h_1 => cases h
  case h_2 items _ =>
    dsimp only at h
    split at h
    case isTrue  => cases h
    case isFalse =>
      exact Fallible.foldlM_related (R := fun st st' : LaunchOptions =>
        (∀ item ∈ st.json, Absent additionalConfigOption item.1) →
          ∀ item ∈ st'.json, Absent additionalConfigOption item.1) (fun _ h => h)
        (fun _ _ _ h₁ h₂ hs => h₂ (h₁ hs)) (fun _ _ _ _ hr hs => launchOption_absent hs hr) h nofun

variable [Alphanumeric]

theorem head_of_isModulePath {t : Text} (h : isModulePath t) : ∃ c, t.head? = some c ∧ Manifest.isNameStart c := by
  cases t
  case nil        => cases h
  case cons c t =>
    unfold isModulePath at h
    rw [List.splitOn_cons_eq_if_modifyHead] at h
    split at h
    case isTrue  => cases h
    case isFalse =>
      refine ⟨c, rfl, ?_⟩
      cases hs : t.splitOn '.'.toNat
      case nil         => exact absurd hs (List.splitOn_ne_nil _ _)
      case cons x rest =>
        rw [hs] at h
        simp only [List.modifyHead_cons, List.all_cons, isName, Bool.and_eq_true] at h
        exact h.left.left

theorem qualname?_absent {ref name : Text} (hi : isImplementation ref) (h : qualname? ref = some name) :
    Absent additionalConfigOption name := by
  have hdash : ¬Manifest.isNameStart '-'.toNat := by decide
  unfold isImplementation at hi
  unfold qualname? at h
  dsimp only at h
  split at hi
  case h_1 hd =>
    rw [hd] at h
    dsimp only at h
    split at h
    case isTrue hne =>
      have ⟨hm, _⟩ := Bool.and_eq_true_iff.mp hi
      have ⟨c, hc, hs⟩ := head_of_isModulePath hm
      cases h
      refine absent_of_head (c := c) ?_ (fun he => hdash (he ▸ hs))
      rw [List.head?_append, hc]
      rfl
    case isFalse    => cases h
  case h_2    => cases hi

theorem policyOption_absent {contract : Text} {option : String} {items : List (Text × Text)}
    (hw : WellFormed manifest) (h : policyOption manifest contract option = .ok items) :
    ∀ item ∈ items, Absent additionalConfigOption item.2 := by
  unfold policyOption at h
  split at h
  case h_1             =>
    cases h
    exact nofun
  case h_2 component hc =>
    have hm : component ∈ manifest.components.filter (contract ∈ ·.contracts) :=
      hc ▸ List.mem_singleton_self _
    split at h
    case h_1 hq =>
      cases h
      exact List.forall_mem_singleton.mpr (qualname?_absent (hw.refs _ (List.mem_of_mem_filter hm)) hq)
    case h_2    => cases h
  case h_3             => cases h

theorem generated_ok (hw : WellFormed manifest) (h : generated manifest configuration = .ok g) :
    g.additionalConfig = additionalConfig manifest ∧
      (∀ item ∈ g.launchOptions.json, Absent additionalConfigOption item.1) ∧
      ∀ item ∈ g.options, Absent additionalConfigOption item.2 := by
  obtain ⟨options, hl, h⟩ := Fallible.bind_ok.mp h
  obtain ⟨environment, -, h⟩ := Fallible.bind_ok.mp h
  obtain ⟨policies, hp, h⟩ := Fallible.bind_ok.mp h
  cases h
  refine ⟨rfl, launchOptions_absent hl, ?_⟩
  obtain ⟨preemption, hpre, hp⟩ := Fallible.bind_ok.mp hp
  obtain ⟨admission, hadm, hp⟩ := Fallible.bind_ok.mp hp
  cases hp
  exact List.forall_mem_append.mpr ⟨policyOption_absent hw hpre, policyOption_absent hw hadm⟩

variable [PythonJson] {command command' : Command}

omit [Alphanumeric] in
-- What the plan of a bundle brings has nothing to do with the additional configuration.
theorem mergeProviderPlan_appends (hj : ∀ item ∈ g.launchOptions.json, Absent additionalConfigOption item.1)
    (ho : ∀ item ∈ g.options, Absent additionalConfigOption item.2) (hp : plan.generatedConfig = g.config)
    (h : mergeProviderPlan command plan = .ok command') :
    Appends additionalConfigOption command command' := by
  have hjson : objectAt plan "vllm_json_options" = .ok g.launchOptions.json := by
    rw [objectAt, hp, Generated.config_json]
  have hoptions : objectAt plan "vllm_options" = .ok (g.options.map fun item => (item.1, .str item.2)) := by
    rw [objectAt, hp, Generated.config_options]
  unfold mergeProviderPlan at h
  rw [hjson, hoptions] at h
  obtain ⟨_, ⟨⟩, h⟩ := Fallible.bind_ok.mp h
  obtain ⟨command₁, h₁, h⟩ := Fallible.bind_ok.mp h
  obtain ⟨_, ⟨⟩, h⟩ := Fallible.bind_ok.mp h
  obtain ⟨command₂, h₂, h⟩ := Fallible.bind_ok.mp h
  obtain ⟨flags, -, h₃⟩ := Fallible.bind_ok.mp h
  refine .trans _ command₁ _ ?_ (.trans _ command₂ _ ?_ ?_)
  · exact Fallible.foldlM_related .refl .trans (fun item hm _ _ h => mergeJson_appends (hj item hm) h) h₁
  · refine Fallible.foldlM_related .refl .trans (fun item hm _ _ h => mergeScalar_appends ?_ h) h₂
    obtain ⟨item', hm', rfl⟩ := List.mem_map.mp hm
    rintro t ⟨⟩
    exact ho item' hm'
  · exact Fallible.foldlM_related .refl .trans (fun _ _ _ _ h => mergeFlag_appends h) h₃

-- `plan.generated_config["additional_config"]`
def plannedConfig (plan : ProviderPlan) : Fields :=
  (objectOf? plan.generatedConfig "additional_config").getD []

-- The plan says what is activated, but for what the manager keeps to itself.
theorem planFor_additional (hw : WellFormed bundle.manifest) (hu : Manager.requireUnblocked bundle = .ok ())
    (h : planFor bundle extension = .ok plan) : plannedConfig plan = additionalConfig bundle.manifest ∧
      ∀ command command', mergeProviderPlan command plan = .ok command' →
        Appends additionalConfigOption command command' := by
  obtain ⟨g, hg, hc⟩ := planFor_ok hu h
  obtain ⟨ha, hj, ho⟩ := generated_ok hw hg
  refine ⟨?_, fun _ _ hm => mergeProviderPlan_appends hj ho hc hm⟩
  rw [plannedConfig, hc, Generated.config_additional, Option.getD_some, ha]

end Planned

section Realised

variable [PythonJson]

-- A command passes an object, or nothing for an empty one.
def Passes (command : Command) (fields : Fields) : Prop :=
  Takes additionalConfigOption command (· = dumps (.obj fields)) ∨
    fields = [] ∧ occurrences additionalConfigOption command = []

-- The object that is passed has under every key what the last of the plans says that has the key.
def Realises (plans : List ProviderPlan) (command : Command) : Prop :=
  ∃ fields : Fields, fields.Sorted ∧ Passes command fields ∧
    ∀ key, fields.get? key = (Dict.ofList (plans.flatMap plannedConfig)).get? key

variable {arguments : Command} {outer : Option Text} {launch : Launch} {plans : List ProviderPlan}
  {enabled : List (InstalledBundle × Manager.ExtensionConfig)} {command command' : Command}
  {activation : Dict Text Value}

-- The whole activation is passed, if there is one.
theorem occurrences_activation {behind : Command} (hf : Free additionalConfigOption command)
    (hb : Free additionalConfigOption behind)
    (h : mergeCommandConfig command (activation.items.insertionSort (·.1 ≤ ·.1)) = .ok command') :
    ∃ fields : Fields, fields.Sorted ∧ (∀ key, fields.get? key = activation.get? key) ∧
      occurrences additionalConfigOption (command' ++ behind) =
        if fields = [] then [] else [some (dumps (.obj fields))] := by
  have hp := List.perm_insertionSort (·.1 ≤ ·.1) activation.items
  have hget : ∀ key, (update [] (activation.items.insertionSort (·.1 ≤ ·.1))).get? key = activation.get? key := by
    intro key
    rw [get?_update ((hp.map _).nodup_iff.mpr activation.nodup), get?_sorted]
    exact Option.or_none
  refine ⟨_, update_sorted .nil, hget, ?_⟩
  by_cases ha : activation.items.insertionSort (·.1 ≤ ·.1) = []
  case pos =>
    rw [mergeCommandConfig, if_pos ha] at h
    cases h
    rw [ha]
    exact occurrences_nil (List.forall_mem_append.mpr ⟨hf, hb⟩)
  case neg =>
    have hne : update [] (activation.items.insertionSort (·.1 ≤ ·.1)) ≠ [] := by
      obtain ⟨item, hm⟩ := List.exists_mem_of_ne_nil _ ha
      intro he
      have hget := hget item.1
      rw [he, Dict.mem_items_iff.mp (hp.mem_iff.mp hm)] at hget
      cases hget
    rw [mergeCommandConfig, if_neg ha, find_free hf] at h
    obtain ⟨merged, hm, h⟩ := Fallible.bind_ok.mp h
    cases h
    cases mergeConfig_ok hm
    rw [if_neg hne, List.append_assoc, occurrences_free hf]
    exact occurrences_separate.trans (congrArg _ (occurrences_nil hb))

omit [PythonJson] in
theorem free_started (hf : Free additionalConfigOption arguments) :
    Free additionalConfigOption (started arguments) := by
  obtain ⟨-, -, -, hvllm, -⟩ := options_absent
  have hc : Free additionalConfigOption (if arguments = [] then ["vllm".points] else arguments) := by
    split
    case isTrue  => exact List.forall_mem_singleton.mpr hvllm
    case isFalse => exact hf
  unfold started
  generalize (if arguments = [] then ["vllm".points] else arguments) = command at hc
  dsimp only
  split
  case isTrue  => exact fun argument hm => hc argument (List.mem_of_mem_tail hm)
  case isFalse => exact hc

variable [Alphanumeric]

-- The plans say what is activated, but for what the manager keeps to itself, and nothing that is
-- appended for them has to do with it.
theorem launch_command (hw : ∀ e ∈ enabled, WellFormed e.1.manifest) (hf : Free additionalConfigOption arguments)
    (h : runCommand outer arguments enabled = .ok launch) :
    ∃ plans command command' behind, enabled.mapM (fun e => planFor e.1 e.2) = .ok plans ∧
      plans.flatMap plannedConfig = enabled.flatMap (additionalConfig ·.1.manifest) ∧
      Free additionalConfigOption command ∧
      mergeCommandConfig command ((Dict.ofList (enabled.flatMap
        (·.1.manifest.activation.additionalConfig))).items.insertionSort (·.1 ≤ ·.1)) = .ok command' ∧
      launch.command = command' ++ behind ∧ Free additionalConfigOption behind := by
  unfold runCommand at h
  obtain ⟨_, hu, h⟩ := Fallible.bind_ok.mp h
  have hu := Fallible.forM_ok.mp (Fallible.mapError_ok.mp hu)
  dsimp only at h
  split at h
  case isTrue  => cases h
  case isFalse =>
    obtain ⟨activation, ha, h⟩ := Fallible.bind_ok.mp h
    obtain ⟨command', hc, h⟩ := Fallible.bind_ok.mp h
    obtain ⟨plans, hp, h⟩ := Fallible.bind_ok.mp h
    obtain ⟨_, -, h⟩ := Fallible.bind_ok.mp h
    obtain ⟨command'', hm, h⟩ := Fallible.bind_ok.mp h
    obtain ⟨_, -, h⟩ := Fallible.bind_ok.mp h
    cases h
    have ha := activationConfig_ok ha
    rw [List.flatMap_map] at ha
    cases ha
    have hp : enabled.mapM (fun e => planFor e.1 e.2) = .ok plans :=
      Fallible.mapM_ok.mpr <| (Fallible.mapM_ok.mp hp).imp fun _ _ h => Fallible.mapError_ok.mp h
    have hplan {e} (he : e ∈ enabled) {plan} (h : planFor e.1 e.2 = .ok plan) :=
      planFor_additional (hw e he) (hu _ (List.mem_map_of_mem he)) h
    have happends : Appends additionalConfigOption command' command'' := by
      refine Fallible.foldlM_related .refl .trans (fun plan hm st st' h => ?_) hm
      have ⟨e, he, hpe⟩ := Fallible.source_of_mapM hp plan hm
      exact (hplan he hpe).right _ _ h
    obtain ⟨behind, rfl, hb⟩ := happends
    refine ⟨plans, _, command', behind, hp, ?_, free_started hf, hc, rfl, hb⟩
    rw [List.flatMap_def, List.flatMap_def]
    exact congrArg _ (Fallible.map_of_mapM_mem (fun e he _ h => (hplan he h).left) hp)

omit [PythonJson] [Alphanumeric] in
theorem get?_planned {key : Text} (hp : plans.flatMap plannedConfig = enabled.flatMap (additionalConfig ·.1.manifest)) :
    (Dict.ofList (plans.flatMap plannedConfig)).get? key = if key = runtimeQualificationKey then none
      else (Dict.ofList (enabled.flatMap (·.1.manifest.activation.additionalConfig))).get? key := by
  rw [hp, ← get?_ofList_filter, List.filter_flatMap]
  rfl

-- What is passed is what has been planned iff no bundle declares the key that the plans leave out.
theorem realises_iff (hw : ∀ e ∈ enabled, WellFormed e.1.manifest) (hf : Free additionalConfigOption arguments)
    (h : runCommand outer arguments enabled = .ok launch) :
    ∃ plans, enabled.mapM (fun e => planFor e.1 e.2) = .ok plans ∧
      (Realises plans launch.command ↔
        ∀ e ∈ enabled, runtimeQualificationKey ∉ e.1.manifest.activation.additionalConfig.map (·.1)) := by
  obtain ⟨plans, command, command', behind, hplans, hp, hfree, hm, hc, hb⟩ := launch_command hw hf h
  obtain ⟨fields, hs, hget, ho⟩ := occurrences_activation hfree hb hm
  rw [← hc] at ho
  have hkey : (∀ e ∈ enabled, runtimeQualificationKey ∉ e.1.manifest.activation.additionalConfig.map (·.1)) ↔
      fields.get? runtimeQualificationKey = none := by
    rw [hget, Dict.get?_ofList_eq_none, List.map_flatMap, List.mem_flatMap]
    push Not
    rfl
  refine ⟨plans, hplans, ?_⟩
  rw [hkey]
  constructor
  · rintro ⟨fields', hs', hpass, hget'⟩
    by_contra hne
    obtain ⟨value, hv⟩ := Option.ne_none_iff_exists'.mp hne
    have hm := Fields.mem_of_get? hv
    have hfilter : fields' = fields.filter (·.1 ≠ runtimeQualificationKey) := by
      refine Fields.eq_of_get? hs' (hs.filter _) fun key => ?_
      rw [hget', get?_planned hp, ← hget, Fields.get?_without]
    rw [if_neg (List.ne_nil_of_mem hm)] at ho
    have hdumps : dumps (.obj fields') ≠ dumps (.obj fields) :=
      hfilter ▸ Dumps.obj_filter_ne hm (by simp)
    rcases hpass with ⟨text, ht, rfl⟩ | ⟨-, hnil⟩
    · rw [ho] at ht
      exact hdumps (Option.some.inj (Option.some.inj ht)).symm
    · exact nomatch ho.symm.trans hnil
  · intro hn
    refine ⟨fields, hs, ?_, fun key => ?_⟩
    · by_cases he : fields = []
      case pos => exact .inr ⟨he, by rw [ho, if_pos he]⟩
      case neg => exact .inl ⟨_, by rw [ho, if_neg he]; rfl, rfl⟩
    · rw [get?_planned hp, ← hget]
      split
      case isTrue hk => rw [hk, hn]
      case isFalse   => rfl

end Realised

end Provider

-- A bundle that declares what the manager keeps to itself.
namespace Provider.Sample

scoped instance : Alphanumeric where
  isAlnum p := (0x30 ≤ p && p ≤ 0x39) || (0x41 ≤ p && p ≤ 0x5A) || (0x61 ≤ p && p ≤ 0x7A)

def selector : Text :=
  "bidkv.adapters.vllm_hust.selector".points

def policy : Text :=
  "BidkvPreemptionPolicy".points

def component : Manifest.BundleComponent where
  componentId       := "victim-selector".points
  contracts         := [preemptionContract]
  executionPlanes   := ["scheduler".points]
  isolation         := "trusted_in_process".points
  implementationRef := selector ++ ":".points ++ policy
  permissions       := []

def carrier : Manifest.ImplementationCarrier where
  type       := "python_module".points
  attributes :=
    [("module".points, .str selector), ("object".points, .str policy), ("status".points, text "active")]

-- The manifest `bidkv-v0.2.json`, with an `additional_config`.
def manifest (additionalConfig : Fields) : BundleManifest where
  bundleId           := "org.vllm-hust.bidkv".points
  bundleVersion      := "0.2.0".points
  hostApiRange       := ">=1,<2".points
  components         := [component]
  activation         := {
    entryPoints := []
    environment := [("BIDKV_UTILITY_ENABLE".points, "1".points),
      ("BIDKV_UTILITY_STRATEGY".points, "bidkv".points)]
    additionalConfig
  }
  schemaVersion      := "0.2-experimental".points
  kind               := "scheduler_policy".points
  host               :=
    ⟨"vllm".points, "vllm".points, ">=0.28.1rc1.dev319,<0.29".points, some ">=1,<2".points⟩
  runtime            := ⟨"python".points, "scheduler".points, "trusted_in_process".points⟩
  lifecycleOwner     := "vllm".points
  protocols          := [⟨"vllm.preemption-policy".points, some ">=1,<2".points⟩]
  implementation     := [carrier]
  requiresServices   := []
  requiresExtensions := []
  resourceClaims     := []

def bundle (additionalConfig : Fields) : InstalledBundle where
  bundleId            := "org.vllm-hust.bidkv".points
  distributionName    := "bidkv".points
  distributionVersion := some "0.2.0".points
  manifestPath        := "manifest.json".points
  manifest            := manifest additionalConfig
  entryPoints         := []

-- What the manifest requires of the runtime.
def profile : Fields :=
  [("accelerator".points, text "ascend"), ("execution_mode".points, text "graph"),
    ("model".points, text "Qwen3.8-27B"), ("tensor_parallel_size".points, .int 4)]

-- The configuration of a runtime that has it.
def configuration : Fields :=
  [("host_version".points, text "0.28.1rc1.dev319"),
    ("protocol_versions".points, .obj [("vllm.preemption-policy".points, text "1.0")]),
    ("runtime_qualification".points,
      .obj [("accelerator".points, text "ascend"), ("execution_mode".points, text "graph"),
        ("model".points, text "Qwen3.8-27B"), ("status".points, text "passed"),
        ("tensor_parallel_size".points, .int 4)])]

def qualified : List (InstalledBundle × Manager.ExtensionConfig) :=
  [(bundle [(runtimeQualificationKey, .obj profile)], ⟨true, configuration⟩)]

def plain : List (InstalledBundle × Manager.ExtensionConfig) :=
  [(bundle [("mode".points, .int 1)], ⟨true, configuration⟩)]

def passed : Text :=
  ("\x7b\"_manager_runtime_qualification\":\x7b\"accelerator\":\"ascend\",\"execution_mode\":" ++
    "\"graph\",\"model\":\"Qwen3.8-27B\",\"tensor_parallel_size\":4\x7d\x7d").points

-- What is started.
def taken (config : Text) : Command :=
  ["vllm".points, additionalConfigOption, config, "--preemption-policy".points,
    selector ++ ".".points ++ policy]

theorem computed_launch :
    (runCommand none [] qualified).map (·.command) = .ok (taken passed) ∧
    (qualified.mapM fun e => planFor e.1 e.2).map (·.flatMap plannedConfig) = .ok [] ∧
    occurrences additionalConfigOption (taken passed) = [some passed] ∧
    passed ≠ dumps (.obj []) ∧
    (runCommand none ["vllm".points] plain).map (·.command.length) = .ok 5 ∧
    runtimeQualificationKey ≠ "mode".points := by
  decide +kernel

-- What the plan leaves out is passed to vLLM.
theorem not_realises : ∃ launch plans, runCommand none [] qualified = .ok launch ∧
    qualified.mapM (fun e => planFor e.1 e.2) = .ok plans ∧ ¬Realises plans launch.command := by
  obtain ⟨hlaunch, hplans, ho, hpassed, -⟩ := computed_launch
  obtain ⟨launch, hl, hc⟩ := Fallible.map_ok.mp hlaunch
  obtain ⟨plans, hp, hf⟩ := Fallible.map_ok.mp hplans
  rw [← hc] at ho
  refine ⟨launch, plans, hl, hp, ?_⟩
  rintro ⟨fields, hs, hpass, hg⟩
  have hnil : fields = [] := Fields.eq_of_get? hs .nil fun key => by
    rw [hg, hf]
    rfl
  rcases hpass with ⟨text, ht, rfl⟩ | ⟨-, hnone⟩
  · rw [ho, hnil] at ht
    exact hpassed (Option.some.inj (Option.some.inj ht))
  · exact nomatch ho.symm.trans hnone

theorem realises_iff_of_plain : ∃ launch plans, runCommand none ["vllm".points] plain = .ok launch ∧
    plain.mapM (fun e => planFor e.1 e.2) = .ok plans ∧ Realises plans launch.command := by
  obtain ⟨-, -, -, -, hlaunch, hmode⟩ := computed_launch
  have hw : ∀ e ∈ plain, WellFormed e.1.manifest :=
    List.forall_mem_singleton.mpr
      ⟨List.forall_mem_singleton.mpr (by decide +kernel), by decide +kernel, List.pairwise_singleton ..⟩
  have hf : Free additionalConfigOption ["vllm".points] :=
    List.forall_mem_singleton.mpr options_absent.right.right.right.left
  obtain ⟨launch, hl, -⟩ := Fallible.map_ok.mp hlaunch
  obtain ⟨plans, hp, h⟩ := realises_iff hw hf hl
  exact ⟨launch, plans, hl, hp, h.mpr (List.forall_mem_singleton.mpr (mt List.mem_singleton.mp hmode))⟩

end Provider.Sample
