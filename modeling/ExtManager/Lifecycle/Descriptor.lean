import ExtManager.Attestation.Profile
import ExtManager.Codec.Canonical
import ExtManager.Codec.Python
import ExtManager.HostEvidence.Observer

open HostEvidence (EntryPoint)

-- The descriptor of a fault, as the actuator reads it and as it is validated afterwards.
namespace FaultDescriptor

inductive Failure
  -- A `LifecycleSourceError`, or a `ValueError` of the validator.
  | refused (message : String)
  -- What `json` or `str.encode` raises.
  | valueError
  | recursionError
  deriving DecidableEq

def refuse (p : Prop) [Decidable p] (message : String) : Except Failure Unit :=
  if p then .error (.refused message) else .ok ()

def maxDescriptorBytes : Nat :=
  64 * 1024

def schema : Text :=
  "ecpa-evidence-quarantine-fault/v1".points

def descriptorFields : List String :=
  ["schema", "scenario", "target", "entry_point"]

def targetFields : List String :=
  ["host", "role", "ordinal", "process_epoch"]

def entryPointFields : List String :=
  ["group", "name", "value"]

def get (fields : Fields) (name : String) : Option Value :=
  fields.get? name.points

-- A string that is not empty and has no space around it.
def isWord : Option Value → Bool
  | some (.str t) => t ≠ [] ∧ t.strip = t
  | _             => false

def isCount : Option Value → Bool
  | some (.int n) => 0 ≤ n
  | _             => false

def isTarget : Option Value → Bool
  | some (.obj target) =>
    Value.HasFields target targetFields ∧
      get target "role" = some (.str "worker".points) ∧
      isWord (get target "host") ∧
      ["ordinal", "process_epoch"].all fun field => isCount (get target field)
  | _                  => false

def isEntryPoint : Option Value → Bool
  | some (.obj entryPoint) =>
    Value.HasFields entryPoint entryPointFields ∧
      entryPointFields.all fun field => isWord (get entryPoint field)
  | _                      => false

variable [PythonJson] [RawDigest]

def digestBytes (value : Bytes) : Text :=
  "sha256:".points ++ RawDigest.hexdigest value

-- `json.loads` of bytes, where the `ValueError` of bad input is replaced.
def load (raw : Bytes) (message : String) : Except Failure Value :=
  match Profile.decode raw with
  | none      => .error (.refused message)
  | some text => match PythonJson.loads text with
    | .ok value                     => .ok value
    | .error .decode | .error .value => .error (.refused message)
    | .error .recursion              => .error .recursionError

def canonicalBytes (value : Value) : Except Failure Bytes :=
  match Dumps.plainBytes value with
  | some raw => .ok raw
  | none     => .error .valueError

def canonical (value : Value) : Except Failure Bytes :=
  match Dumps.asciiBytes value with
  | some raw => .ok raw
  | none     => .error .valueError

def canonicalDescriptorFile (file : Bytes) (expectedDigest : Text) :
    Except Failure (Bytes × Fields) := do
  let raw := file.take (maxDescriptorBytes + 1)
  refuse (maxDescriptorBytes < raw.length) "fault descriptor exceeds the evidence limit"
  let value ← load raw "fault descriptor JSON is invalid"
  match value with
  | .obj fields => do
    let bytes ← canonicalBytes value
    refuse (raw ≠ bytes ++ [0x0A]) "fault descriptor must be canonical JSON"
    refuse (expectedDigest ≠ digestBytes raw) "fault descriptor differs from its registered digest"
    .ok (raw, fields)
  | _           => .error (.refused "fault descriptor must be canonical JSON")

-- What `_partial_coverage_fault_locked` does with the descriptor, up to the bytes, the target and
-- the entry point that it goes on with.
def partialCoverageFaultLocked (file : Bytes) (descriptorSha256 scenario : Text) :
    Except Failure (Bytes × Option Value × Option Value) := do
  let (descriptorRaw, descriptor) ← canonicalDescriptorFile file descriptorSha256
  let target := get descriptor "target"
  let entryPoint := get descriptor "entry_point"
  refuse
    (¬Value.HasFields descriptor descriptorFields ∨
      get descriptor "schema" ≠ some (.str schema) ∨
      get descriptor "scenario" ≠ some (.str scenario) ∨
      ¬isTarget target ∨ ¬isEntryPoint entryPoint)
    "fault descriptor is not bound or canonical"
  .ok (descriptorRaw, target, entryPoint)

def entryPointValue (e : EntryPoint) : Value :=
  .obj [("group".points, .str e.group), ("name".points, .str e.name), ("value".points, .str e.value)]

-- What `validate_scenario_binding_contract` has let through.
structure ScenarioBinding where
  descriptorSha256 : Text
  entryPoint       : EntryPoint
  words            : ∀ t ∈ [entryPoint.group, entryPoint.name, entryPoint.value],
    t ≠ [] ∧ t.strip = t

-- What `validate_formal_adapter_verification` does with the descriptor and with the argument behind
-- `--descriptor-sha256`.
def validateFormalAdapterVerification (descriptorRaw : Bytes) (scenario : Text)
    (registeredBinding : ScenarioBinding) (argument : Text) : Except Failure Unit := do
  let descriptor ← load descriptorRaw "formal fault descriptor JSON is invalid"
  match descriptor with
  | .obj fields => do
    let bytes ← canonical descriptor
    refuse
      (descriptorRaw ≠ bytes ++ [0x0A] ∨
        ¬Value.HasFields fields descriptorFields ∨
        get fields "schema" ≠ some (.str schema) ∨
        get fields "scenario" ≠ some (.str scenario) ∨
        get fields "entry_point" ≠ some (entryPointValue registeredBinding.entryPoint) ∨
        ¬isTarget (get fields "target") ∨
        digestBytes descriptorRaw ≠ registeredBinding.descriptorSha256 ∨
        argument ≠ registeredBinding.descriptorSha256)
      "formal fault descriptor differs from scenario binding"
  | _           => .error (.refused "formal fault descriptor differs from scenario binding")

-- What the two of them accept of a file, with this digest and entry point.
def ActuatorAccepts (file : Bytes) (scenario : Text) (b : ScenarioBinding) : Prop :=
  ∃ raw target, partialCoverageFaultLocked file b.descriptorSha256 scenario =
    .ok (raw, target, some (entryPointValue b.entryPoint))

def ValidatorAccepts (file : Bytes) (scenario : Text) (b : ScenarioBinding) : Prop :=
  validateFormalAdapterVerification file scenario b b.descriptorSha256 = .ok ()

-- A worker.
structure Target where
  host         : Text
  ordinal      : Nat
  processEpoch : Nat
  word         : host ≠ [] ∧ host.strip = host

def Target.fields (t : Target) : Fields :=
  [("host".points, .str t.host), ("ordinal".points, .int t.ordinal),
    ("process_epoch".points, .int t.processEpoch), ("role".points, .str "worker".points)]

-- The descriptor of a fault at a worker.
def descriptor (scenario : Text) (e : EntryPoint) (t : Target) : Fields :=
  [("entry_point".points, entryPointValue e), ("scenario".points, .str scenario),
    ("schema".points, .str schema), ("target".points, .obj t.fields)]

-- The strings of a descriptor that are not fixed.
def texts (scenario : Text) (e : EntryPoint) (t : Target) : List Text :=
  [t.host, scenario, e.group, e.name, e.value]

-- The file is written as one of the two writes the descriptor.
inductive Written (v : Value) (file : Bytes) : Prop
  | plain {b} : Dumps.plainBytes v = some b → file = b ++ [0x0A] → Written v file
  | ascii {b} : Dumps.asciiBytes v = some b → file = b ++ [0x0A] → Written v file

section Shapes

variable {fields fields' : Fields} {names : List String}

omit [PythonJson] [RawDigest]

-- Objects with the same keys, and with the same under each of them.
theorem fields_ext (h : fields.Sorted) (h' : fields'.Sorted) (hk : Value.HasFields fields names)
    (hk' : Value.HasFields fields' names) (hg : ∀ n ∈ names, get fields n = get fields' n) :
    fields = fields' := by
  have hm {fields : Fields} (hk : Value.HasFields fields names) (k : Text) :
      k ∈ fields.keys ↔ k ∈ names.map String.points := by
    refine ⟨hk.left k, fun h => ?_⟩
    have ⟨n, hn, he⟩ := List.mem_map.mp h
    exact he ▸ hk.right n hn
  have hkeys : fields.keys = fields'.keys :=
    Fields.keys_eq h (List.pairwise_map.mpr h') fun k => (hm hk k).trans (hm hk' k).symm
  refine Fields.ext h h' hkeys fun k hkm => ?_
  have ⟨n, hn, he⟩ := List.mem_map.mp ((hm hk k).mp hkm)
  exact he ▸ hg n hn

theorem isWord_iff {v : Option Value} : isWord v ↔ ∃ t, v = some (.str t) ∧ t ≠ [] ∧ t.strip = t := by
  unfold isWord
  split
  case h_1 t => simp
  case h_2 h => simpa using fun t he => absurd he (h t)

theorem isCount_iff {v : Option Value} : isCount v ↔ ∃ n : Nat, v = some (.int n) := by
  unfold isCount
  split
  case h_1 n =>
    simp only [decide_eq_true_eq, Option.some.injEq, Value.int.injEq]
    exact ⟨fun h => ⟨n.toNat, (Int.toNat_of_nonneg h).symm⟩, fun ⟨k, hk⟩ => hk ▸ Int.natCast_nonneg k⟩
  case h_2 h => simpa using fun n : Nat => h n

theorem targetKeys_sorted :
    (["host", "ordinal", "process_epoch", "role"].map String.points).Pairwise (· < ·) := by
  decide

theorem Target.sorted (t : Target) : t.fields.Sorted :=
  List.pairwise_map.mp targetKeys_sorted

theorem Target.hasFields (t : Target) : Value.HasFields t.fields targetFields := by
  unfold Value.HasFields
  change (∀ k ∈ ["host", "ordinal", "process_epoch", "role"].map String.points, _) ∧
    ∀ n ∈ targetFields, n.points ∈ ["host", "ordinal", "process_epoch", "role"].map String.points
  decide

theorem isTarget_iff (h : (Value.obj fields).Ordered) :
    isTarget (some (.obj fields)) ↔ ∃ t : Target, fields = t.fields := by
  have hs : fields.Sorted := by
    cases h with | obj hs _ => exact hs
  rw [isTarget, decide_eq_true_eq]
  simp only [List.all_cons, List.all_nil, Bool.and_true, Bool.and_eq_true, isWord_iff, isCount_iff]
  constructor
  · rintro ⟨hk, hrole, ⟨host, hhost, hword⟩, ⟨o, ho⟩, e, he⟩
    refine ⟨⟨host, o, e, hword⟩, fields_ext hs (Target.sorted _) hk (Target.hasFields _) ?_⟩
    simp only [targetFields, List.forall_mem_cons]
    exact ⟨hhost, hrole, ho, he, nofun⟩
  · rintro ⟨t, rfl⟩
    exact ⟨t.hasFields, rfl, ⟨t.host, rfl, t.word⟩, ⟨t.ordinal, rfl⟩, t.processEpoch, rfl⟩

theorem descriptorKeys_sorted :
    (["entry_point", "scenario", "schema", "target"].map String.points).Pairwise (· < ·) := by
  decide

variable {scenario : Text} {e : EntryPoint} {t : Target}

theorem descriptor_sorted : (descriptor scenario e t).Sorted :=
  List.pairwise_map.mp descriptorKeys_sorted

theorem descriptor_hasFields : Value.HasFields (descriptor scenario e t) descriptorFields := by
  unfold Value.HasFields
  change (∀ k ∈ ["entry_point", "scenario", "schema", "target"].map String.points, _) ∧
    ∀ n ∈ descriptorFields,
      n.points ∈ ["entry_point", "scenario", "schema", "target"].map String.points
  decide

-- What both of them look for is a descriptor with this entry point.
theorem bound_iff (h : (Value.obj fields).Ordered) :
    Value.HasFields fields descriptorFields ∧ get fields "schema" = some (.str schema) ∧
        get fields "scenario" = some (.str scenario) ∧ isTarget (get fields "target") ∧
        get fields "entry_point" = some (entryPointValue e) ↔
      ∃ t, fields = descriptor scenario e t := by
  obtain ⟨hs, hdeep⟩ : fields.Sorted ∧ ∀ f ∈ fields, f.2.Ordered := by
    cases h with | obj hs hd => exact ⟨hs, hd⟩
  constructor
  · rintro ⟨hk, hschema, hscenario, htarget, hentry⟩
    have htargets : ∃ t : Target, get fields "target" = some (.obj t.fields) := by
      unfold isTarget at htarget
      split at htarget
      case h_2       => cases htarget
      case h_1 g hg =>
        have ho := hdeep _ (Fields.mem_of_get? hg)
        have ⟨t, ht⟩ := (isTarget_iff ho).mp htarget
        exact ⟨t, ht ▸ hg⟩
    have ⟨t, ht⟩ := htargets
    refine ⟨t, fields_ext hs descriptor_sorted hk descriptor_hasFields ?_⟩
    simp only [descriptorFields, List.forall_mem_cons]
    exact ⟨hschema, hscenario, ht, hentry, nofun⟩
  · rintro ⟨t, rfl⟩
    have ho := hdeep ("target".points, .obj t.fields) (by simp [descriptor])
    exact ⟨descriptor_hasFields, rfl, rfl, (isTarget_iff ho).mpr ⟨t, rfl⟩, rfl⟩

theorem isEntryPoint_value (h : ∀ t ∈ [e.group, e.name, e.value], t ≠ [] ∧ t.strip = t) :
    isEntryPoint (some (entryPointValue e)) := by
  simp only [List.forall_mem_cons] at h
  have ⟨hgroup, hname, hvalue, _⟩ := h
  rw [entryPointValue, isEntryPoint, decide_eq_true_eq]
  simp only [entryPointFields, List.all_cons, List.all_nil, Bool.and_true, Bool.and_eq_true, isWord_iff]
  refine ⟨?_, ⟨_, rfl, hgroup⟩, ⟨_, rfl, hname⟩, _, rfl, hvalue⟩
  unfold Value.HasFields
  change (∀ k ∈ ["group", "name", "value"].map String.points, _) ∧
    ∀ n ∈ ["group", "name", "value"], n.points ∈ ["group", "name", "value"].map String.points
  decide

end Shapes

section Accepted

variable {file : Bytes} {message : String} {v : Value} {α : Type} {x : α} {p : Prop} [Decidable p]
  {scenario : Text} {b : ScenarioBinding}

-- What `json.loads` reads from a file.
def Loads (file : Bytes) (v : Value) : Prop :=
  ∃ text, Profile.decode file = some text ∧ PythonJson.loads text = .ok v

omit [PythonJson] [RawDigest] in
theorem refuse_ok : refuse p message = .ok () ↔ ¬p := by
  unfold refuse
  split
  case isTrue h  => exact ⟨nofun, fun hp => absurd h hp⟩
  case isFalse h => exact ⟨fun _ => h, fun _ => rfl⟩

omit [PythonJson] [RawDigest] in
theorem refuse_seq {k : Unit → Except Failure α} :
    (refuse p message >>= k) = .ok x ↔ ¬p ∧ k () = .ok x := by
  rw [Fallible.bind_ok]
  exact ⟨fun ⟨_, h, hk⟩ => ⟨refuse_ok.mp h, hk⟩, fun ⟨h, hk⟩ => ⟨(), refuse_ok.mpr h, hk⟩⟩

omit [RawDigest] in
theorem load_ok : load file message = .ok v ↔ Loads file v := by
  unfold load Loads
  cases hd : Profile.decode file
  case none      => exact ⟨nofun, fun ⟨_, h, _⟩ => nomatch h⟩
  case some text =>
    dsimp only
    cases hl : PythonJson.loads text
    case ok w    => exact ⟨fun h => ⟨text, rfl, by rw [hl]; cases h; rfl⟩, fun ⟨_, ht, h⟩ => by
      cases ht
      cases hl.symm.trans h
      rfl⟩
    case error f =>
      refine ⟨fun h => ?_, fun ⟨_, ht, h⟩ => ?_⟩
      · cases f <;> cases h
      · cases ht
        cases hl.symm.trans h

omit [RawDigest] in
theorem Loads.ordered (h : Loads file v) : v.Ordered :=
  have ⟨text, _, h⟩ := h
  PythonJson.ordered text v h

omit [RawDigest] in
theorem canonicalBytes_ok {raw : Bytes} :
    canonicalBytes v = .ok raw ↔ Dumps.plainBytes v = some raw := by
  unfold canonicalBytes
  cases Dumps.plainBytes v
  case none => exact ⟨nofun, nofun⟩
  case some => simp

omit [RawDigest] in
theorem canonical_ok {raw : Bytes} : canonical v = .ok raw ↔ Dumps.asciiBytes v = some raw := by
  unfold canonical
  cases Dumps.asciiBytes v
  case none => exact ⟨nofun, nofun⟩
  case some => simp

theorem canonicalDescriptorFile_ok {digest : Text} {raw : Bytes} {fields : Fields} :
    canonicalDescriptorFile file digest = .ok (raw, fields) ↔
      raw = file ∧ file.length ≤ maxDescriptorBytes ∧ Loads file (.obj fields) ∧
        (∃ bytes, Dumps.plainBytes (.obj fields) = some bytes ∧ file = bytes ++ [0x0A]) ∧
        digestBytes file = digest := by
  have hlen : ¬maxDescriptorBytes < (file.take (maxDescriptorBytes + 1)).length ↔
      file.length ≤ maxDescriptorBytes := by
    rw [List.length_take]
    omega
  rw [canonicalDescriptorFile]
  simp only [refuse_seq, hlen]
  constructor
  · rintro ⟨hl, h⟩
    rw [List.take_of_length_le (by omega)] at h
    have ⟨v, hv, h⟩ := Fallible.bind_ok.mp h
    cases v
    case obj g =>
      have ⟨bytes, hbytes, h⟩ := Fallible.bind_ok.mp h
      obtain ⟨hb, hd, h⟩ := refuse_seq.mp h |>.imp_right refuse_seq.mp
      cases h
      exact ⟨rfl, hl, load_ok.mp hv, ⟨bytes, canonicalBytes_ok.mp hbytes, not_not.mp hb⟩,
        (not_not.mp hd).symm⟩
    all_goals cases h
  · rintro ⟨rfl, hl, hv, ⟨bytes, hbytes, hb⟩, hd⟩
    refine ⟨hl, ?_⟩
    rw [List.take_of_length_le (by omega)]
    refine Fallible.bind_ok.mpr ⟨_, load_ok.mpr hv, Fallible.bind_ok.mpr ⟨_, canonicalBytes_ok.mpr hbytes, ?_⟩⟩
    exact refuse_seq.mpr ⟨not_not.mpr hb, refuse_seq.mpr ⟨not_not.mpr hd.symm, rfl⟩⟩

-- Each of them accepts the descriptors of a fault at a worker, in its own writing.
theorem actuatorAccepts_iff : ActuatorAccepts file scenario b ↔
    file.length ≤ maxDescriptorBytes ∧ digestBytes file = b.descriptorSha256 ∧
      ∃ t, Loads file (.obj (descriptor scenario b.entryPoint t)) ∧
        ∃ bytes, Dumps.plainBytes (.obj (descriptor scenario b.entryPoint t)) = some bytes ∧
          file = bytes ++ [0x0A] := by
  constructor
  · rintro ⟨raw, target, haccepts⟩
    have ⟨⟨raw', fields⟩, hfile, h⟩ := Fallible.bind_ok.mp haccepts
    obtain ⟨rfl, hl, hload, hbytes, hd⟩ := canonicalDescriptorFile_ok.mp hfile
    obtain ⟨hchecks, h⟩ := refuse_seq.mp h
    simp only [not_or, not_not, ne_eq] at hchecks
    obtain ⟨hk, hschema, hscenario, htarget, hentry⟩ := hchecks
    simp only [Except.ok.injEq, Prod.mk.injEq] at h
    obtain ⟨-, -, h⟩ := h
    obtain ⟨t, rfl⟩ := (bound_iff hload.ordered).mp ⟨hk, hschema, hscenario, htarget, h⟩
    exact ⟨hl, hd, t, hload, hbytes⟩
  · rintro ⟨hl, hd, t, hload, hbytes⟩
    have ⟨hk, hschema, hscenario, htarget, hentry⟩ := (bound_iff hload.ordered).mpr ⟨t, rfl⟩
    refine ⟨file, get (descriptor scenario b.entryPoint t) "target", Fallible.bind_ok.mpr
      ⟨_, canonicalDescriptorFile_ok.mpr ⟨rfl, hl, hload, hbytes, hd⟩, refuse_seq.mpr ⟨?_, ?_⟩⟩⟩
    · simp only [not_or, not_not, ne_eq]
      exact ⟨hk, hschema, hscenario, htarget, hentry ▸ isEntryPoint_value b.words⟩
    · rw [hentry]

theorem validatorAccepts_iff : ValidatorAccepts file scenario b ↔
    digestBytes file = b.descriptorSha256 ∧
      ∃ t, Loads file (.obj (descriptor scenario b.entryPoint t)) ∧
        ∃ bytes, Dumps.asciiBytes (.obj (descriptor scenario b.entryPoint t)) = some bytes ∧
          file = bytes ++ [0x0A] := by
  constructor
  · intro h
    have ⟨v, hv, h⟩ := Fallible.bind_ok.mp h
    have hload := load_ok.mp hv
    cases v
    case obj fields =>
      have ⟨bytes, hbytes, h⟩ := Fallible.bind_ok.mp h
      have h := refuse_ok.mp h
      simp only [not_or, not_not, ne_eq] at h
      obtain ⟨hb, hk, hschema, hscenario, hentry, htarget, hd, -⟩ := h
      obtain ⟨t, rfl⟩ := (bound_iff hload.ordered).mp ⟨hk, hschema, hscenario, htarget, hentry⟩
      exact ⟨hd, t, hload, bytes, canonical_ok.mp hbytes, hb⟩
    all_goals cases h
  · rintro ⟨hd, t, hload, bytes, hbytes, hb⟩
    have ⟨hk, hschema, hscenario, htarget, hentry⟩ := (bound_iff hload.ordered).mpr ⟨t, rfl⟩
    refine Fallible.bind_ok.mpr ⟨_, load_ok.mpr hload, Fallible.bind_ok.mpr
      ⟨_, canonical_ok.mpr hbytes, refuse_ok.mpr ?_⟩⟩
    simp only [not_or, not_not, ne_eq]
    exact ⟨hb, hk, hschema, hscenario, hentry, htarget, hd, trivial⟩

end Accepted

section Agreement

variable {file : Bytes} {scenario : Text} {b : ScenarioBinding} {e : EntryPoint} {t : Target}

-- The strings that every descriptor has.
def fixedStrings : List String :=
  descriptorFields ++ targetFields ++ entryPointFields ++ ["worker", "ecpa-evidence-quarantine-fault/v1"]

omit [PythonJson] [RawDigest] in
theorem fixedStrings_common : ∀ n ∈ fixedStrings, ∀ p ∈ n.points, p < 0x7F := by
  decide

omit [PythonJson] [RawDigest] in
theorem every_descriptor {P : Dumps.Token → Prop} (hm : ∀ p, P (.mark p))
    (hc : ∀ p < 0x7F, P (.char p)) :
    (∀ x ∈ Dumps.tokens (.obj (descriptor scenario e t)), P x) ↔
      ∀ s ∈ texts scenario e t, ∀ p ∈ s, P (.char p) := by
  have hname {n : String} (hn : n ∈ fixedStrings) : (∀ p ∈ n.points, P (.char p)) ↔ True :=
    iff_true_intro fun p hp => hc p (fixedStrings_common n hn p hp)
  rw [Dumps.every_obj hm]
  simp only [descriptor, entryPointValue, Target.fields, schema, texts, List.forall_mem_cons,
    Dumps.every_obj hm, Dumps.every_str hm, iff_true_intro (Dumps.every_int hm)]
  simp (disch := decide) only [hname, true_and, and_true]
  constructor
  · rintro ⟨⟨hgroup, hn, hvalue, _⟩, hscenario, ⟨hhost, _⟩, _⟩
    exact ⟨hhost, hscenario, hgroup, hn, hvalue, nofun⟩
  · rintro ⟨hhost, hscenario, hgroup, hn, hvalue, _⟩
    exact ⟨⟨hgroup, hn, hvalue, nofun⟩, hscenario, ⟨hhost, nofun⟩, nofun⟩

omit [PythonJson] [RawDigest] in
theorem common_iff : (∀ x ∈ Dumps.tokens (.obj (descriptor scenario e t)), x.common) ↔
    ∀ s ∈ texts scenario e t, ∀ p ∈ s, p < 0x7F := by
  rw [every_descriptor (fun _ => rfl) fun p hp => decide_eq_true hp]
  simp only [Dumps.Token.common, decide_eq_true_eq]

-- A descriptor has no floats.
omit [RawDigest] in
theorem asciiBytes_descriptor : Dumps.asciiBytes (.obj (descriptor scenario e t)) =
    Unicode.encode (Dumps.value (Dumps.ascii PythonJson.floatRepr) (.obj (descriptor scenario e t))) := by
  have hfinite : ∀ x ∈ Dumps.tokens (.obj (descriptor scenario e t)), x.finite :=
    (every_descriptor (fun _ => rfl) fun _ _ => rfl).mpr fun _ _ _ _ => rfl
  exact if_pos (List.all_eq_true.mpr hfinite)

-- The two accept the same file unless it is a descriptor, in one of their writings, that has a
-- character in it which only one of them escapes.
theorem agree_iff (h : file.length ≤ maxDescriptorBytes) :
    (ActuatorAccepts file scenario b ↔ ValidatorAccepts file scenario b) ↔
      ∀ t, digestBytes file = b.descriptorSha256 →
        Loads file (.obj (descriptor scenario b.entryPoint t)) →
        Written (.obj (descriptor scenario b.entryPoint t)) file →
        ∀ s ∈ texts scenario b.entryPoint t, ∀ p ∈ s, p < 0x7F := by
  have hunique {t t' : Target} (ht : Loads file (.obj (descriptor scenario b.entryPoint t)))
      (ht' : Loads file (.obj (descriptor scenario b.entryPoint t'))) :
      descriptor scenario b.entryPoint t = descriptor scenario b.entryPoint t' := by
    obtain ⟨x, hx, hl⟩ := ht
    obtain ⟨y, hy, hl'⟩ := ht'
    cases hx.symm.trans hy
    exact Value.obj.inj (Except.ok.inj (hl.symm.trans hl'))
  rw [actuatorAccepts_iff, validatorAccepts_iff]
  constructor
  · intro hiff t hd hload hw
    -- A descriptor that either of them accepts is written in both styles.
    have hboth : ∃ bytes, Dumps.plainBytes (.obj (descriptor scenario b.entryPoint t)) = some bytes ∧
        Dumps.asciiBytes (.obj (descriptor scenario b.entryPoint t)) = some bytes := by
      cases hw
      case plain bytes hplain hf =>
        have ⟨_, t', hload', bytes', hascii, hf'⟩ := hiff.mp ⟨h, hd, t, hload, bytes, hplain, hf⟩
        rw [hunique hload' hload, ← List.append_cancel_right (hf.symm.trans hf')] at hascii
        exact ⟨bytes, hplain, hascii⟩
      case ascii bytes hascii hf =>
        have ⟨_, _, t', hload', bytes', hplain, hf'⟩ := hiff.mpr ⟨hd, t, hload, bytes, hascii, hf⟩
        rw [hunique hload' hload, ← List.append_cancel_right (hf.symm.trans hf')] at hplain
        exact ⟨bytes, hplain, hascii⟩
    have ⟨bytes, hplain, hascii⟩ := hboth
    rw [asciiBytes_descriptor] at hascii
    exact common_iff.mp (Dumps.bytes_styles hascii hplain)
  · intro hcond
    have hsame {t : Target} (hc : ∀ s ∈ texts scenario b.entryPoint t, ∀ p ∈ s, p < 0x7F) :
        Dumps.asciiBytes (.obj (descriptor scenario b.entryPoint t)) =
          Dumps.plainBytes (.obj (descriptor scenario b.entryPoint t)) := by
      rw [asciiBytes_descriptor, Dumps.value_styles (common_iff.mpr hc)]
      rfl
    constructor
    · rintro ⟨-, hd, t, hload, bytes, hplain, hf⟩
      have hc := hcond t hd hload (.plain hplain hf)
      exact ⟨hd, t, hload, bytes, (hsame hc).trans hplain, hf⟩
    · rintro ⟨hd, t, hload, bytes, hascii, hf⟩
      have hc := hcond t hd hload (.ascii hascii hf)
      exact ⟨h, hd, t, hload, bytes, (hsame hc).symm.trans hascii, hf⟩

end Agreement

end FaultDescriptor

-- The descriptor of a fault at the worker of a host whose name is not ASCII, in both spellings.
namespace FaultDescriptor.Sample

-- What is written before the second letter of the host, and what is written after it.
--
-- {"entry_point":{"group":"vllm.general_plugins","name":"demo","value":"demo.plugin:register"},
-- "scenario":"partial-worker-coverage","schema":"ecpa-evidence-quarantine-fault/v1",
-- "target":{"host":"n
def before : Bytes := [
  123, 34, 101, 110, 116, 114, 121, 95, 112, 111, 105, 110, 116, 34, 58, 123, 34, 103, 114, 111,
  117, 112, 34, 58, 34, 118, 108, 108, 109, 46, 103, 101, 110, 101, 114, 97, 108, 95, 112, 108,
  117, 103, 105, 110, 115, 34, 44, 34, 110, 97, 109, 101, 34, 58, 34, 100, 101, 109, 111, 34, 44,
  34, 118, 97, 108, 117, 101, 34, 58, 34, 100, 101, 109, 111, 46, 112, 108, 117, 103, 105, 110,
  58, 114, 101, 103, 105, 115, 116, 101, 114, 34, 125, 44, 34, 115, 99, 101, 110, 97, 114, 105,
  111, 34, 58, 34, 112, 97, 114, 116, 105, 97, 108, 45, 119, 111, 114, 107, 101, 114, 45, 99, 111,
  118, 101, 114, 97, 103, 101, 34, 44, 34, 115, 99, 104, 101, 109, 97, 34, 58, 34, 101, 99, 112,
  97, 45, 101, 118, 105, 100, 101, 110, 99, 101, 45, 113, 117, 97, 114, 97, 110, 116, 105, 110,
  101, 45, 102, 97, 117, 108, 116, 47, 118, 49, 34, 44, 34, 116, 97, 114, 103, 101, 116, 34, 58,
  123, 34, 104, 111, 115, 116, 34, 58, 34, 110]

-- ","ordinal":0,"process_epoch":7,"role":"worker"}}
def after : Bytes := [
  34, 44, 34, 111, 114, 100, 105, 110, 97, 108, 34, 58, 48, 44, 34, 112, 114, 111, 99, 101, 115,
  115, 95, 101, 112, 111, 99, 104, 34, 58, 55, 44, 34, 114, 111, 108, 101, 34, 58, 34, 119, 111,
  114, 107, 101, 114, 34, 125, 125, 10]

def text (letter : Text) : Text :=
  before.map (·.toNat) ++ letter ++ after.map (·.toNat)

-- The bytes as the actuator's encoder writes them.
def file : Bytes :=
  before ++ [0xC3, 0xA9] ++ after

-- The bytes as the encoder of the validator and of the runner writes them.
def escaped : Bytes :=
  before ++ [0x5C, 0x75, 0x30, 0x30, 0x65, 0x39] ++ after

def scenario : Text :=
  "partial-worker-coverage".points

def entryPoint : EntryPoint where
  group := "vllm.general_plugins".points
  name  := "demo".points
  value := "demo.plugin:register".points

def target : Target where
  host         := "n\u00e9".points
  ordinal      := 0
  processEpoch := 7
  word         := by decide

-- The digest of the first file.
def digest : Text :=
  "cac1d946f5ac7b5f83bca0d19ff1f942311075fdf9dd9d646472bc80c7bd6aad".points

-- The digest of the second.
def escapedDigest : Text :=
  "1f662271b1aab06be8cf0cb595c4a6a0458605fb6144fab34aca11baf4cd5811".points

def binding : ScenarioBinding where
  descriptorSha256 := "sha256:".points ++ digest
  entryPoint       := entryPoint
  words            := by decide

def escapedBinding : ScenarioBinding :=
  { binding with descriptorSha256 := "sha256:".points ++ escapedDigest }

theorem descriptor_ordered : (Value.obj (descriptor scenario entryPoint target)).Ordered := by
  refine .obj descriptor_sorted ?_
  simp only [descriptor, List.forall_mem_cons]
  have hkeys : (["group", "name", "value"].map String.points).Pairwise (· < ·) := by decide
  refine ⟨.obj (List.pairwise_map.mp hkeys) ?_, .str, .str, .obj target.sorted ?_, nofun⟩
  · simp only [List.forall_mem_cons]
    exact ⟨.str, .str, .str, nofun⟩
  · simp only [Target.fields, List.forall_mem_cons]
    exact ⟨.str, .int, .int, .str, nofun⟩

scoped instance : PythonJson where
  loads t :=
    if t = text [0xE9] ∨ t = text [0x5C, 0x75, 0x30, 0x30, 0x65, 0x39] then .ok (.obj (descriptor scenario entryPoint target))
    else .error .decode
  ordered t v h := by
    split at h
    all_goals cases h
    exact descriptor_ordered
  floatRepr := id
  isFinite _ := true
  floatEq t u := t = u
  floatEqInt _ _ := false

scoped instance : RawDigest where
  hexdigest raw := if raw = escaped then escapedDigest else digest

-- What is to be computed of the first file.
theorem computed :
    (file.length ≤ maxDescriptorBytes ∧ digestBytes file = binding.descriptorSha256) ∧
    Profile.decode file = some (text [0xE9]) ∧
    (Dumps.plainBytes (.obj (descriptor scenario entryPoint target)) = some file.dropLast ∧
      file = file.dropLast ++ [0x0A]) ∧
    validateFormalAdapterVerification file scenario binding binding.descriptorSha256 =
      .error (.refused "formal fault descriptor differs from scenario binding") := by
  decide +kernel

-- And of the second.
theorem computed_escaped :
    (escaped.length ≤ maxDescriptorBytes ∧ digestBytes escaped = escapedBinding.descriptorSha256) ∧
    validateFormalAdapterVerification escaped scenario escapedBinding
      escapedBinding.descriptorSha256 = .ok () ∧
    partialCoverageFaultLocked escaped escapedBinding.descriptorSha256 scenario =
      .error (.refused "fault descriptor must be canonical JSON") := by
  decide +kernel

theorem file_loads : Loads file (.obj (descriptor scenario entryPoint target)) :=
  ⟨_, computed.2.1, if_pos (.inl rfl)⟩

theorem file_written :
    Dumps.plainBytes (.obj (descriptor scenario entryPoint target)) = some file.dropLast ∧
      file = file.dropLast ++ [0x0A] :=
  computed.2.2.1

-- The first file is the actuator's own spelling, and what the validator and the runner refuse. The
-- second one they take, and the actuator refuses it.
theorem not_agree :
    (file.length ≤ maxDescriptorBytes ∧ ActuatorAccepts file scenario binding ∧
      ¬ValidatorAccepts file scenario binding) ∧
    escaped.length ≤ maxDescriptorBytes ∧ ValidatorAccepts escaped scenario escapedBinding ∧
      ¬ActuatorAccepts escaped scenario escapedBinding := by
  have ⟨⟨hlength, hdigest⟩, _, _, hrefused⟩ := computed
  have ⟨⟨hlength', _⟩, haccepts, hrefused'⟩ := computed_escaped
  refine ⟨⟨hlength, ?_, fun h => ?_⟩, hlength', haccepts, ?_⟩
  · exact actuatorAccepts_iff.mpr ⟨hlength, hdigest, target, file_loads, _, file_written⟩
  · exact nomatch hrefused.symm.trans h
  · rintro ⟨raw, target, h⟩
    exact nomatch hrefused'.symm.trans h

-- The condition, which the first file does not meet.
theorem agree_iff_of_file : file.length ≤ maxDescriptorBytes ∧
    ((ActuatorAccepts file scenario binding ↔ ValidatorAccepts file scenario binding) ↔
      ∀ t, digestBytes file = binding.descriptorSha256 →
        Loads file (.obj (descriptor scenario binding.entryPoint t)) →
        Written (.obj (descriptor scenario binding.entryPoint t)) file →
        ∀ s ∈ texts scenario binding.entryPoint t, ∀ p ∈ s, p < 0x7F) ∧
    ¬∀ s ∈ texts scenario binding.entryPoint target, ∀ p ∈ s, p < 0x7F := by
  have hlength := computed.1.1
  exact ⟨hlength, agree_iff hlength, by decide⟩

end FaultDescriptor.Sample
