import ExtManager.Provider.Launch

-- What a merged command is to a parser for which the last occurrence of an option counts.
namespace Provider

section Options

variable {option argument value : Text} {command command' before behind : Command}
  {p : Text → Prop}

-- What the occurrences of an option give it, if there is an argument behind them.
def occurrences (option : Text) : Command → List (Option Text)
  | []                        => []
  | [argument]                =>
    if argument = option then [none] else (assigned? option argument).toList.map some
  | argument :: value :: rest =>
    if argument = option then some value :: occurrences option rest
    else (assigned? option argument).toList.map some ++ occurrences option (value :: rest)

-- The arguments that are neither the option nor its value.
def others (option : Text) : Command → Command
  | []                        => []
  | [argument]                =>
    if argument = option ∨ (assigned? option argument).isSome then [] else [argument]
  | argument :: value :: rest =>
    if argument = option then others option rest
    else if (assigned? option argument).isSome then others option (value :: rest)
    else argument :: others option (value :: rest)

def Absent (option argument : Text) : Prop :=
  argument ≠ option ∧ assigned? option argument = none

instance : Decidable (Absent option argument) :=
  inferInstanceAs (Decidable (_ ∧ _))

def Free (option : Text) (command : Command) : Prop :=
  ∀ argument ∈ command, Absent option argument

-- The last occurrence gives the option a value that is as `p` says.
def Takes (option : Text) (command : Command) (p : Text → Prop) : Prop :=
  ∃ value, (occurrences option command).getLast? = some (some value) ∧ p value

-- What is behind the occurrence that the manager finds.
def behindFirst (option : Text) (command : Command) : Command :=
  match find option command with
  | .absent | .separate _ []                     => []
  | .separate _ (_ :: behind) | .joined _ _ behind => behind

-- Behind the occurrence that the manager finds there is none that gives the option another value.
def Undisturbed (option : Text) (command : Command) (p : Text → Prop) : Prop :=
  ∀ last ∈ (occurrences option (behindFirst option command)).getLast?, ∃ value, last = some value ∧ p value

theorem occurrences_absent (h : Absent option argument) :
    occurrences option (argument :: command) = occurrences option command := by
  cases command
  case nil  => simp [occurrences, h.left, h.right]
  case cons => simp [occurrences, h.left, h.right]

theorem others_absent (h : Absent option argument) :
    others option (argument :: command) = argument :: others option command := by
  cases command
  case nil  => simp [others, h.left, h.right]
  case cons => simp [others, h.left, h.right]

theorem occurrences_free (h : Free option before) :
    occurrences option (before ++ command) = occurrences option command := by
  induction before with
  | nil                => rfl
  | cons argument _ ih =>
    have ⟨ha, h⟩ := List.forall_mem_cons.mp h
    rw [List.cons_append, occurrences_absent ha, ih h]

theorem others_free (h : Free option before) :
    others option (before ++ command) = before ++ others option command := by
  induction before with
  | nil                => rfl
  | cons argument _ ih =>
    have ⟨ha, h⟩ := List.forall_mem_cons.mp h
    rw [List.cons_append, others_absent ha, ih h, List.cons_append]

theorem occurrences_separate : occurrences option (option :: value :: behind) =
    some value :: occurrences option behind :=
  if_pos rfl

theorem others_separate : others option (option :: value :: behind) = others option behind :=
  if_pos rfl

theorem occurrences_joined (ha : argument ≠ option) (h : assigned? option argument = some value) :
    occurrences option (argument :: behind) = some value :: occurrences option behind := by
  cases behind
  case nil  => simp [occurrences, ha, h]
  case cons => simp [occurrences, ha, h]

theorem others_joined (ha : argument ≠ option) (h : assigned? option argument = some value) :
    others option (argument :: behind) = others option behind := by
  cases behind
  case nil  => simp [others, h]
  case cons => simp [others, ha, h]

-- Where the manager finds an option.
theorem find_cases (option : Text) (command : Command) : match find option command with
    | .absent                     => Free option command
    | .separate before behind     => command = before ++ option :: behind ∧ Free option before
    | .joined before value behind => ∃ argument, command = before ++ argument :: behind ∧
      argument ≠ option ∧ assigned? option argument = some value ∧ Free option before := by
  induction command with
  | nil                   => exact nofun
  | cons argument rest ih =>
    unfold find
    by_cases ha : argument = option
    case pos =>
      rw [if_pos ha]
      exact ⟨ha ▸ rfl, nofun⟩
    case neg =>
      rw [if_neg ha]
      cases hv : assigned? option argument
      case some value => exact ⟨argument, rfl, ha, hv, nofun⟩
      case none       =>
        have habsent : Absent option argument := ⟨ha, hv⟩
        dsimp only
        cases hf : find option rest
        all_goals rw [hf] at ih
        case absent   => exact List.forall_mem_cons.mpr ⟨habsent, ih⟩
        case separate =>
          obtain ⟨rfl, ih⟩ := ih
          exact ⟨rfl, List.forall_mem_cons.mpr ⟨habsent, ih⟩⟩
        case joined   =>
          obtain ⟨argument', rfl, ha', hv', ih⟩ := ih
          exact ⟨argument', rfl, ha', hv', List.forall_mem_cons.mpr ⟨habsent, ih⟩⟩

theorem find_absent (h : find option command = .absent) : Free option command := by
  have := find_cases option command
  rwa [h] at this

theorem find_separate (h : find option command = .separate before behind) :
    command = before ++ option :: behind ∧ Free option before := by
  have := find_cases option command
  rwa [h] at this

theorem find_joined (h : find option command = .joined before value behind) :
    ∃ argument, command = before ++ argument :: behind ∧ argument ≠ option ∧
      assigned? option argument = some value ∧ Free option before := by
  have := find_cases option command
  rwa [h] at this

-- The occurrence that the manager finds gives the option a value that is as `p` says, and the rest of
-- the command is what it was.
structure Sets (option : Text) (command command' : Command) (p : Text → Prop) : Prop where
  first  : ∃ value, p value ∧ occurrences option command' =
    some value :: occurrences option (behindFirst option command)
  others : others option command' = others option command

theorem Sets.takes_iff (h : Sets option command command' p) :
    Takes option command' p ∧ Provider.others option command' = Provider.others option command ↔
      Undisturbed option command p := by
  rw [and_iff_left h.others]
  obtain ⟨value, hp, ho⟩ := h.first
  rw [Takes, Undisturbed, ho, List.getLast?_cons]
  cases (occurrences option (behindFirst option command)).getLast?
  case none      => exact ⟨fun _ => nofun, fun _ => ⟨value, rfl, hp⟩⟩
  case some last =>
    constructor
    · rintro ⟨value, hv, hp⟩ _ ⟨⟩
      exact ⟨value, Option.some.inj hv, hp⟩
    · intro h
      obtain ⟨value, rfl, hp⟩ := h last rfl
      exact ⟨value, rfl, hp⟩

theorem Sets.of_absent (hf : find option command = .absent) (hp : p value) :
    Sets option command (command ++ [option, value]) p where
  first  := by
    refine ⟨value, hp, ?_⟩
    rw [behindFirst, hf, occurrences_free (find_absent hf)]
    exact occurrences_separate
  others := by
    have hself : Provider.others option (command ++ []) = command ++ Provider.others option [] :=
      others_free (find_absent hf)
    rw [List.append_nil] at hself
    rw [others_free (find_absent hf), others_separate, hself]

theorem Sets.of_separate (hf : find option command = .separate before (value :: behind)) (hp : p value) :
    Sets option command command p where
  first  := by
    obtain ⟨hc, hfree⟩ := find_separate hf
    refine ⟨value, hp, ?_⟩
    rw [behindFirst, hf, hc, occurrences_free hfree]
    exact occurrences_separate
  others := rfl

theorem Sets.of_joined (hf : find option command = .joined before value behind) (hp : p value) :
    Sets option command command p where
  first  := by
    obtain ⟨argument, hc, hne, hv, hfree⟩ := find_joined hf
    refine ⟨value, hp, ?_⟩
    rw [behindFirst, hf, hc, occurrences_free hfree]
    exact occurrences_joined hne hv
  others := rfl

end Options

section Merged

variable {existing activation merged : Fields} {key : Text} {value : Value}

variable [PythonJson]

omit [PythonJson] in
theorem get?_update (hn : activation.keys.Nodup) :
    (update existing activation).get? key = (activation.get? key).or (existing.get? key) := by
  induction activation generalizing existing with
  | nil               => rfl
  | cons item rest ih =>
    have ⟨hi, hn⟩ := List.nodup_cons.mp hn
    rw [update, List.foldl_cons, ← update, ih hn, Fields.get?_replace]
    unfold Fields.get?
    rw [List.lookup_cons]
    by_cases hk : key = item.1
    case pos =>
      have hnone : rest.lookup key = none := by
        refine List.lookup_eq_none_iff.mpr fun item' hm => bne_iff_ne.mpr fun he => hi ?_
        exact List.mem_map.mpr ⟨item', hm, he.symm.trans hk⟩
      rw [hnone, if_pos hk, hk, beq_self_eq_true]
      rfl
    case neg => rw [if_neg hk, beq_eq_false_iff_ne.mpr hk]

omit [PythonJson] in
theorem update_sorted (h : existing.Sorted) : (update existing activation).Sorted := by
  induction activation generalizing existing with
  | nil            => exact h
  | cons item _ ih =>
    rw [update, List.foldl_cons]
    exact ih (Fields.insert_sorted (h.filter _) (by simp [Fields.keys]))

theorem mergeConfig_ok (h : mergeConfig existing activation = .ok merged) :
    merged = update existing activation := by
  unfold mergeConfig at h
  dsimp only at h
  split at h
  case isTrue  => cases h
  case isFalse => exact (Except.ok.inj h).symm

-- A text denotes what it has been written for, or what it is read as.
def Denotes (text : Text) (value : Value) : Prop :=
  text = dumps value ∨ PythonJson.loads text = .ok value

def Equal (v w : Value) : Prop :=
  v = w ∨ v.same w

def DenotesEqual (value : Value) (text : Text) : Prop :=
  ∃ value', Denotes text value' ∧ Equal value' value

-- A text denotes an object that agrees with all of an activation.
def Agrees (activation : Fields) (text : Text) : Prop :=
  ∃ fields : Fields, Denotes text (.obj fields) ∧
    ∀ item ∈ activation, ∃ value, fields.get? item.1 = some value ∧ Equal value item.2

variable {option generated : Text} {command command' : Command}

omit [PythonJson] in
theorem assigned?_joined {text : Text} :
    assigned? additionalConfigOption (additionalConfigOption ++ "=".points ++ text) = some text := by
  have hp : (additionalConfigOption ++ "=".points).isPrefixOf (additionalConfigOption ++ "=".points ++ text) :=
    List.isPrefixOf_iff_prefix.mpr (List.prefix_append ..)
  rw [assigned?, if_pos hp, List.append_assoc, List.dropWhile_append_of_pos (by decide)]
  rfl

theorem agrees_update (existing : Fields) (hn : activation.keys.Nodup) :
    Agrees activation (dumps (.obj (update existing activation))) := by
  refine ⟨_, .inl rfl, fun item hm => ⟨item.2, ?_, .inl rfl⟩⟩
  rw [get?_update hn, Fields.get?, Assoc.lookup_of_nodup hn hm]
  rfl

theorem mergeCommandConfig_sets (hn : activation.keys.Nodup) (ha : activation ≠ [])
    (h : mergeCommandConfig command activation = .ok command') :
    Sets additionalConfigOption command command' (Agrees activation) := by
  rw [mergeCommandConfig, if_neg ha] at h
  split at h
  case h_1 hf =>
    obtain ⟨merged, hm, h⟩ := Fallible.bind_ok.mp h
    cases h
    cases mergeConfig_ok hm
    exact .of_absent hf (agrees_update _ hn)
  case h_2 => cases h
  case h_3 before raw behind hf =>
    obtain ⟨existing, -, h⟩ := Fallible.bind_ok.mp h
    obtain ⟨merged, hm, h⟩ := Fallible.bind_ok.mp h
    cases h
    cases mergeConfig_ok hm
    obtain ⟨hc, hfree⟩ := find_separate hf
    refine ⟨⟨_, agrees_update existing hn, ?_⟩, ?_⟩
    · rw [behindFirst, hf, List.append_assoc, occurrences_free hfree]
      exact occurrences_separate
    · rw [hc, List.append_assoc, others_free hfree, others_free hfree, others_separate]
      exact congrArg _ others_separate
  case h_4 before raw behind hf =>
    obtain ⟨existing, -, h⟩ := Fallible.bind_ok.mp h
    obtain ⟨merged, hm, h⟩ := Fallible.bind_ok.mp h
    cases h
    cases mergeConfig_ok hm
    obtain ⟨argument, hc, hne, hv, hfree⟩ := find_joined hf
    have hne' {text : Text} : additionalConfigOption ++ "=".points ++ text ≠ additionalConfigOption :=
      fun he => by simpa [String.points] using congrArg List.length he
    refine ⟨⟨_, agrees_update existing hn, ?_⟩, ?_⟩
    · rw [behindFirst, hf, List.append_assoc, occurrences_free hfree]
      exact occurrences_joined hne' assigned?_joined
    · rw [hc, List.append_assoc, others_free hfree, others_free hfree, others_joined hne hv]
      exact congrArg _ (others_joined hne' assigned?_joined)

-- The option is appended, or stands already where it is looked for, with such a value.
def Kept (option : Text) (command : Command) (p : Text → Prop) : Prop :=
  ∃ before value behind, (find option command = .separate before (value :: behind) ∨
    find option command = .joined before value behind) ∧ p value

omit [PythonJson] in
theorem Kept.sets {p : Text → Prop} (h : Kept option command p) : Sets option command command p := by
  obtain ⟨_, _, _, hf | hf, hp⟩ := h
  · exact .of_separate hf hp
  · exact .of_joined hf hp

theorem mergeJsonOption_ok (h : mergeJsonOption command option value = .ok command') :
    find option command = .absent ∧ command' = command ++ [option, dumps value] ∨
      command' = command ∧ Kept option command (DenotesEqual value) := by
  have hread {raw : Text} (h : (do
      let existing ← loads raw
      if existing.same value then .ok command else .error (.option option)) = .ok command') :
      command' = command ∧ DenotesEqual value raw := by
    obtain ⟨existing, hl, h⟩ := Fallible.bind_ok.mp h
    split at h
    case isTrue hs =>
      refine ⟨(Except.ok.inj h).symm, existing, .inr ?_, .inr hs⟩
      unfold loads at hl
      split at hl
      case h_1 he =>
        cases hl
        exact he
      case h_2    => cases hl
    case isFalse   => cases h
  unfold mergeJsonOption at h
  split at h
  case h_1 hf =>
    cases h
    exact .inl ⟨hf, rfl⟩
  case h_2    => cases h
  case h_3 hf =>
    obtain ⟨rfl, hd⟩ := hread h
    exact .inr ⟨rfl, _, _, _, .inl hf, hd⟩
  case h_4 hf =>
    obtain ⟨rfl, hd⟩ := hread h
    exact .inr ⟨rfl, _, _, _, .inr hf, hd⟩

omit [PythonJson] in
theorem mergeScalarOption_ok (h : mergeScalarOption command option generated = .ok command') :
    find option command = .absent ∧ command' = command ++ [option, generated] ∨
      command' = command ∧ Kept option command (· = generated) := by
  have hread {value : Text} (h : (if value = generated then .ok command
      else Except.error (LaunchFailure.option option)) = .ok command') :
      command' = command ∧ value = generated := by
    split at h
    case isTrue hv => exact ⟨(Except.ok.inj h).symm, hv⟩
    case isFalse   => cases h
  unfold mergeScalarOption at h
  split at h
  case h_1 hf =>
    cases h
    exact .inl ⟨hf, rfl⟩
  case h_2    => cases h
  case h_3 hf =>
    obtain ⟨rfl, hv⟩ := hread h
    exact .inr ⟨rfl, _, _, _, .inl hf, hv⟩
  case h_4 hf =>
    obtain ⟨rfl, hv⟩ := hread h
    exact .inr ⟨rfl, _, _, _, .inr hf, hv⟩

theorem mergeJsonOption_sets (h : mergeJsonOption command option value = .ok command') :
    Sets option command command' (DenotesEqual value) := by
  rcases mergeJsonOption_ok h with ⟨hf, rfl⟩ | ⟨rfl, hk⟩
  · exact .of_absent hf ⟨value, .inl rfl, .inl rfl⟩
  · exact hk.sets

omit [PythonJson] in
theorem mergeScalarOption_sets (h : mergeScalarOption command option generated = .ok command') :
    Sets option command command' (· = generated) := by
  rcases mergeScalarOption_ok h with ⟨hf, rfl⟩ | ⟨rfl, hk⟩
  · exact .of_absent hf rfl
  · exact hk.sets

-- A command that has been merged takes what has been merged into it as long as no later occurrence of
-- the option says otherwise, and is else what it was.
theorem merged_takes_iff :
    (∀ command activation command', activation.keys.Nodup →
      mergeCommandConfig command activation = .ok command' →
      ((activation ≠ [] → Takes additionalConfigOption command' (Agrees activation)) ∧
        others additionalConfigOption command' = others additionalConfigOption command ↔
          (activation ≠ [] → Undisturbed additionalConfigOption command (Agrees activation)))) ∧
    (∀ command option generated command', mergeJsonOption command option generated = .ok command' →
      (Takes option command' (DenotesEqual generated) ∧ others option command' = others option command ↔
        Undisturbed option command (DenotesEqual generated))) ∧
    (∀ command option generated command', mergeScalarOption command option generated = .ok command' →
      (Takes option command' (· = generated) ∧ others option command' = others option command ↔
        Undisturbed option command (· = generated))) := by
  refine ⟨fun command activation command' hn h => ?_, fun _ _ _ _ h => (mergeJsonOption_sets h).takes_iff,
    fun _ _ _ _ h => (mergeScalarOption_sets h).takes_iff⟩
  by_cases ha : activation = []
  case pos =>
    rw [mergeCommandConfig, if_pos ha] at h
    cases h
    exact ⟨fun _ h => absurd ha h, fun _ => ⟨fun h => absurd ha h, rfl⟩⟩
  case neg =>
    have h := mergeCommandConfig_sets hn ha h
    exact ⟨fun hp _ => h.takes_iff.mp ⟨hp.left ha, hp.right⟩,
      fun hu => ⟨fun _ => (h.takes_iff.mpr (hu ha)).left, h.others⟩⟩

end Merged

end Provider

-- Commands that name an option twice.
namespace Provider.Sample

scoped instance : PythonJson where
  loads t := if t = "\x7b\x7d".points then .ok (.obj []) else .error .decode
  ordered t v h := by
    split at h
    all_goals cases h
    exact .obj .nil nofun
  floatRepr := id
  isFinite _ := true
  floatEq t u := t = u
  floatEqInt _ _ := false

def activation : Fields :=
  [("mode".points, .int 1)]

def configured : Command :=
  [additionalConfigOption, "\x7b\x7d".points, additionalConfigOption, "\x7b\x7d".points]

def configured' : Command :=
  [additionalConfigOption, dumps (.obj activation), additionalConfigOption, "\x7b\x7d".points]

def policyOption : Text :=
  "--preemption-policy".points

def policed : Command :=
  [policyOption, "a.A".points, policyOption ++ "=b.B".points]

def launched : Command :=
  ["vllm".points, policyOption, "a.A".points]

theorem computed :
    (mergeCommandConfig configured activation = .ok configured' ∧
      (occurrences additionalConfigOption configured').getLast? = some (some "\x7b\x7d".points)) ∧
    (mergeScalarOption policed policyOption "a.A".points = .ok policed ∧
      (occurrences policyOption policed).getLast? ≠ some (some "a.A".points)) ∧
    mergeScalarOption ["vllm".points] policyOption "a.A".points = .ok launched ∧
      occurrences policyOption (behindFirst policyOption ["vllm".points]) = [] := by
  decide +kernel

theorem not_agrees : ¬Agrees activation "\x7b\x7d".points := by
  rintro ⟨fields, hd, h⟩
  have hfields : fields = [] := by
    rcases hd with hd | hd
    · cases fields
      case nil  => rfl
      case cons => simp [dumps, Dumps.value, Dumps.string, String.points] at hd
    · cases hd
      rfl
  obtain ⟨_, hg, _⟩ := h _ (List.mem_singleton_self _)
  cases hfields
  cases hg

-- The later occurrence wins over what has been merged.
theorem not_takes :
    (mergeCommandConfig configured activation = .ok configured' ∧
      ¬Takes additionalConfigOption configured' (Agrees activation)) ∧
    (mergeScalarOption policed policyOption "a.A".points = .ok policed ∧
      ¬Takes policyOption policed (· = "a.A".points)) := by
  obtain ⟨⟨hconfigured, hlast⟩, ⟨hpoliced, hne⟩, -⟩ := computed
  refine ⟨⟨hconfigured, ?_⟩, hpoliced, ?_⟩
  · rintro ⟨value, hv, ha⟩
    cases hlast.symm.trans hv
    exact not_agrees ha
  · rintro ⟨value, hv, rfl⟩
    exact hne hv

theorem merged_takes_iff_of_single :
    mergeScalarOption ["vllm".points] policyOption "a.A".points =
        .ok ["vllm".points, policyOption, "a.A".points] ∧
      Takes policyOption ["vllm".points, policyOption, "a.A".points] (· = "a.A".points) := by
  obtain ⟨-, -, h, hnone⟩ := computed
  refine ⟨h, ((merged_takes_iff.right.right _ _ _ _ h).mpr ?_).left⟩
  rw [Undisturbed, hnone]
  exact nofun

end Provider.Sample
