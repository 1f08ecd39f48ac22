import ExtManager.Compiler.Passes

namespace Compiler

open Fallible

section Normalization

variable {t : ContractTaxonomy} {c c' : ExtensionContract}

-- A claim under the canonical name of its resource.
def Renames (t : ContractTaxonomy) (r r' : ContractResource) : Prop :=
  ∃ rule, t.rule? r.name = some rule ∧ r' = { r with name := rule.canonical }

theorem normalizeResource_ok {r r' : ContractResource} :
    normalizeResource t r = .ok r' ↔ Renames t r r' := by
  unfold normalizeResource
  rw [bind_ok]
  constructor
  · rintro ⟨rule, hr, h⟩
    cases h
    exact ⟨rule, orElse_ok.mp hr, rfl⟩
  · rintro ⟨rule, hr, rfl⟩
    exact ⟨rule, orElse_ok.mpr hr, rfl⟩

theorem normalizeContract_ok (h : normalizeContract t c = .ok c') :
    c' = { c with resources := c'.resources } ∧ (∀ r' ∈ c'.resources, ∃ r ∈ c.resources, Renames t r r') ∧
      c'.resources.Pairwise (·.name ≤ ·.name) := by
  obtain ⟨rs, hr, h⟩ := bind_ok.mp h
  cases h
  refine ⟨rfl, fun r' hr' => ?_, sortedBy_pairwise⟩
  obtain ⟨r, hm, h⟩ := source_of_mapM hr r' (mem_sortedBy.mp hr')
  exact ⟨r, hm, normalizeResource_ok.mp h⟩

theorem WellFormed.normalize [Packaging] (h : WellFormed c) (hn : normalizeContract t c = .ok c') :
    WellFormed c' := by
  have ⟨he, hr, _⟩ := normalizeContract_ok hn
  rw [he]
  refine { h with resources := fun r' hr' => ?_ }
  obtain ⟨r, hm, rule, _, rfl⟩ := hr r' hr'
  exact h.resources r hm

-- What has been normalized is not changed by it again.
theorem normalizeContract_fixed (h : ∀ r ∈ c.resources, Renames t r r)
    (hs : c.resources.Pairwise (·.name ≤ ·.name)) : normalizeContract t c = .ok c := by
  have hm : c.resources.mapM (normalizeResource t) = .ok c.resources :=
    mapM_ok.mpr <| List.forall₂_same.mpr fun r hr => normalizeResource_ok.mpr (h r hr)
  refine bind_ok.mpr ⟨_, hm, ?_⟩
  rw [sortedBy_of_pairwise hs]
  rfl

variable {contracts ns : List ExtensionContract}

theorem unknown_eq_nil :
    unknown t contracts = [] ↔ ∀ c ∈ contracts, ∀ r ∈ c.resources, t.rule? r.name ≠ none := by
  simp [unknown, List.flatMap_eq_nil_iff]

theorem invalidModes_eq_nil :
    invalidModes t contracts = [] ↔ ∀ c ∈ contracts, ∀ r ∈ c.resources, ∀ rule,
      t.rule? r.name = some rule → r.mode ∈ rule.allowedModes := by
  simp only [invalidModes, List.flatMap_eq_nil_iff, List.filterMap_eq_nil_iff]
  refine forall₂_congr fun c _ => forall₂_congr fun r _ => ?_
  cases t.rule? r.name
  case none      => simp
  case some rule => simp

theorem normalizeTaxonomyResources_ok :
    normalizeTaxonomyResources t contracts = .ok ns ↔ unknown t contracts = [] ∧
      invalidModes t contracts = [] ∧ contracts.mapM (normalizeContract t) = .ok ns := by
  unfold normalizeTaxonomyResources
  simp only [bind_ok, refuseLeast_ok]
  exact ⟨fun ⟨_, hu, _, hm, h⟩ => ⟨hu, hm, h⟩, fun ⟨hu, hm, h⟩ => ⟨(), hu, (), hm, h⟩⟩

theorem normalizeContracts_raises {p : Failure → Prop} (h : unknown t contracts = []) :
    Raises p (contracts.mapM (normalizeContract t)) := by
  refine .mapM fun c hc => .bind (.mapM fun r hr => ?_) fun _ _ => .ok
  obtain ⟨rule, hr⟩ := Option.ne_none_iff_exists'.mp <| unknown_eq_nil.mp h c hc r hr
  exact fun e he => nomatch (normalizeResource_ok.mpr ⟨rule, hr, rfl⟩).symm.trans he

theorem normalizeTaxonomyResources_raises : Raises Planning (normalizeTaxonomyResources t contracts) :=
  refuseLeast_raises.bind fun _ hu => refuseLeast_raises.bind fun _ _ =>
    normalizeContracts_raises (refuseLeast_ok.mp hu)

theorem normalizeTaxonomyResources_fixed (h : normalizeTaxonomyResources t contracts = .ok ns) :
    normalizeTaxonomyResources t ns = .ok ns := by
  have ⟨hu, hv, hm⟩ := normalizeTaxonomyResources_ok.mp h
  have hv := invalidModes_eq_nil.mp hv
  have renamed : ∀ c' ∈ ns, ∀ r' ∈ c'.resources, ∃ rule, t.rule? r'.name = some rule ∧
      r'.name = rule.canonical ∧ r'.mode ∈ rule.allowedModes := by
    intro c' hc' r' hr'
    obtain ⟨c, hc, hn⟩ := source_of_mapM hm c' hc'
    obtain ⟨r, hr, rule, hrule, rfl⟩ := (normalizeContract_ok hn).right.left r' hr'
    exact ⟨rule, rule?_canonical hrule, rfl, hv c hc r hr rule hrule⟩
  refine normalizeTaxonomyResources_ok.mpr ⟨unknown_eq_nil.mpr fun c hc r hr => ?_,
    invalidModes_eq_nil.mpr fun c hc r hr rule hrule => ?_, ?_⟩
  · obtain ⟨rule, hrule, -⟩ := renamed c hc r hr
    exact hrule ▸ nofun
  · obtain ⟨rule', hrule', -, hmode⟩ := renamed c hc r hr
    cases hrule.symm.trans hrule'
    exact hmode
  · refine mapM_ok.mpr <| List.forall₂_same.mpr fun c' hc' => ?_
    obtain ⟨c, hc, hn⟩ := source_of_mapM hm c' hc'
    refine normalizeContract_fixed (fun r hr => ?_) (normalizeContract_ok hn).right.right
    obtain ⟨rule, hrule, hname, -⟩ := renamed c' hc' r hr
    exact ⟨rule, hrule, by cases r; cases hname; rfl⟩

variable {taxonomy : Option ContractTaxonomy}

-- The normalized contracts are the contracts, but for what their resources are called.
theorem source_of_normalize (h : normalize taxonomy contracts = .ok ns) :
    ids ns = ids (sortedBy ExtensionContract.extensionId contracts) ∧
      ∀ c' ∈ ns, ∃ c ∈ contracts, c' = { c with resources := c'.resources } := by
  match taxonomy with
  | none   =>
    cases h
    exact ⟨rfl, fun c hc => ⟨c, mem_sortedBy.mp hc, rfl⟩⟩
  | some t =>
    have ⟨_, _, hm⟩ := normalizeTaxonomyResources_ok.mp h
    refine ⟨map_of_mapM (fun c c' hn => ?_) hm, fun c' hc' => ?_⟩
    · rw [(normalizeContract_ok hn).left]
    · obtain ⟨c, hc, hn⟩ := source_of_mapM hm c' hc'
      exact ⟨c, mem_sortedBy.mp hc, (normalizeContract_ok hn).left⟩

theorem wellFormed_of_normalize [Packaging] (hw : ∀ c ∈ contracts, WellFormed c)
    (h : normalize taxonomy contracts = .ok ns) : ∀ c ∈ ns, WellFormed c := by
  match taxonomy with
  | none   =>
    cases h
    exact fun c hc => hw c (mem_sortedBy.mp hc)
  | some t =>
    have ⟨_, _, hm⟩ := normalizeTaxonomyResources_ok.mp h
    intro c' hc'
    obtain ⟨c, hc, hn⟩ := source_of_mapM hm c' hc'
    exact (hw c (mem_sortedBy.mp hc)).normalize hn

theorem normalize_raises : Raises Planning (normalize taxonomy contracts) := by
  match taxonomy with
  | none   => exact .ok
  | some t => exact normalizeTaxonomyResources_raises

theorem ids_sorted_perm : (ids (sortedBy ExtensionContract.extensionId contracts)).Perm (ids contracts) :=
  (sortedBy_perm _ _).map _

theorem nodup_of_normalize (h : normalize taxonomy contracts = .ok ns) (hn : (ids contracts).Nodup) :
    (ids ns).Nodup :=
  (source_of_normalize h).left ▸ ids_sorted_perm.nodup_iff.mpr hn

-- The order of the contracts does not matter.
theorem normalize_perm {contracts' : List ExtensionContract} (hp : contracts.Perm contracts')
    (hn : (ids contracts).Nodup) : normalize taxonomy contracts = normalize taxonomy contracts' := by
  have hs : sortedBy ExtensionContract.extensionId contracts =
      sortedBy ExtensionContract.extensionId contracts' :=
    sortedBy_eq (hp.trans (sortedBy_perm _ _).symm) hn sortedBy_pairwise
  unfold normalize
  rw [hs]

theorem normalize_fixed (h : normalize taxonomy contracts = .ok ns) (hn : (ids contracts).Nodup)
    {cs : List ExtensionContract} (hp : cs.Perm ns) : normalize taxonomy cs = .ok ns := by
  have ⟨hi, _⟩ := source_of_normalize h
  have hs : ns.Pairwise (·.extensionId ≤ ·.extensionId) := by
    have hs : (ids (sortedBy ExtensionContract.extensionId contracts)).Pairwise (· ≤ ·) :=
      List.pairwise_map.mpr sortedBy_pairwise
    rw [← hi] at hs
    exact List.pairwise_map.mp hs
  have hcs : sortedBy ExtensionContract.extensionId cs = ns :=
    sortedBy_eq hp ((hp.map _).nodup_iff.mpr <| nodup_of_normalize h hn) hs
  match taxonomy with
  | none   => exact congrArg _ hcs
  | some t =>
    unfold normalize
    rw [hcs]
    exact normalizeTaxonomyResources_fixed h

end Normalization

section Agreement

variable {α β : Type} {x y : Result α}

-- Both return the same, or raise an error of the compiler with the same code.
inductive Agree {α : Type} : Result α → Result α → Prop
  | ok (a : α) : Agree (.ok a) (.ok a)
  | planning (code : PlanningErrorCode) (detail detail' : Text) :
    Agree (.error (.planning code detail)) (.error (.planning code detail'))

theorem Agree.of_raises (h : Raises Planning x) : Agree x x := by
  cases x
  case ok a    => exact .ok a
  case error e =>
    obtain ⟨code, detail, rfl⟩ := h e rfl
    exact .planning code detail detail

theorem Agree.bind {f g : α → Result β} (h : Agree x y) (hf : ∀ a, x = .ok a → Agree (f a) (g a)) :
    Agree (x >>= f) (y >>= g) := by
  cases h
  case ok a                    => exact hf a rfl
  case planning code d d'      => exact .planning code d d'

theorem Agree.require {p q : Prop} [Decidable p] [Decidable q] {code : PlanningErrorCode}
    {detail detail' : Text} (h : p ↔ q) : Agree (require p code detail) (require q code detail') := by
  unfold Compiler.require
  by_cases hp : p
  case pos => simpa only [hp, h.mp hp, if_true] using Agree.ok ()
  case neg => simpa only [hp, mt h.mpr hp, if_false, fail] using Agree.planning code detail detail'

-- A check whose errors have one code does not depend on the order of what is checked.
theorem Agree.forM {code : PlanningErrorCode} {f : α → Result Unit} {as as' : List α}
    (hp : as.Perm as') (h : ∀ a ∈ as, Raises (fun e => ∃ d, e = .planning code d) (f a)) :
    Agree (as.forM f) (as'.forM f) := by
  have h' : ∀ a ∈ as', Raises (fun e => ∃ d, e = .planning code d) (f a) :=
    fun a ha => h a (hp.symm.subset ha)
  have hall : as.forM f = .ok () ↔ as'.forM f = .ok () := by
    rw [forM_ok, forM_ok]
    exact ⟨fun h a ha => h a (hp.symm.subset ha), fun h a ha => h a (hp.subset ha)⟩
  match hx : as.forM f, hy : as'.forM f with
  | .ok _,     .ok _     => exact .ok ()
  | .ok _,     .error e  => exact nomatch (hall.mp hx).symm.trans hy
  | .error e,  .ok _     => exact nomatch (hall.mpr hy).symm.trans hx
  | .error e,  .error e' =>
    obtain ⟨d, rfl⟩ := Raises.forM h e hx
    obtain ⟨d', rfl⟩ := Raises.forM h' e' hy
    exact .planning code d d'

end Agreement

section Compile

theorem string_raises {value : Value} {location : Text} : Raises Planning (string value location) := by
  unfold string
  split
  case h_1 => exact require_raises.bind fun _ _ => .ok
  case h_2 => exact .error ⟨_, _, rfl⟩

theorem publicVersion_raises [Packaging] {value : Value} {location : Text} :
    Raises Planning (publicVersion value location) := by
  refine string_raises.bind fun raw _ => ?_
  split
  case h_1 => exact .error ⟨_, _, rfl⟩
  case h_2 => exact require_raises.bind fun _ _ => .ok

variable [LawfulPackaging] {contracts contracts' : List ExtensionContract}
variable {hostRuntime hostVersion : Text} {taxonomy : Option ContractTaxonomy} {p : ContractPlan}

theorem checkHost_raises {runtime : Text} {version : Packaging.Version} {c : ExtensionContract}
    (h : WellFormed c) :
    Raises (fun e => ∃ d, e = .planning .incompatibleHost d) (checkHost runtime version c) := by
  have refuses {p : Prop} [Decidable p] {d : Text} :
      Raises (fun e => ∃ d, e = .planning .incompatibleHost d) (require p .incompatibleHost d) := by
    unfold require
    split
    case isTrue  => exact .ok
    case isFalse => exact .error ⟨_, rfl⟩
  obtain ⟨s, hs⟩ := h.host
  refine refuses.bind fun _ _ => .bind ?_ fun _ _ => refuses
  rw [hs, LawfulPackaging.specifiers?_str]
  exact .ok

theorem publicVersion_str {v : Packaging.Version} {location : Text}
    (h : Packaging.isLocal v = false) :
    publicVersion (.str (Packaging.versionStr v)) location = .ok (Packaging.versionStr v) := by
  refine bind_ok.mpr ⟨_, string_ok.mpr ⟨rfl, LawfulPackaging.versionStr_word v⟩, ?_⟩
  simp only [LawfulPackaging.version?_str]
  exact require_seq.mpr ⟨h, rfl⟩

theorem compileContracts_agree (hw : ∀ c ∈ contracts, WellFormed c) (hp : contracts.Perm contracts') :
    Agree (compileContracts contracts hostRuntime hostVersion taxonomy)
      (compileContracts contracts' hostRuntime hostVersion taxonomy) := by
  refine (Agree.require ?_).bind fun _ _ => ?_
  · exact not_congr ⟨fun h => (h ▸ hp).nil_eq.symm, fun h => (h ▸ hp).eq_nil⟩
  refine (Agree.of_raises string_raises).bind fun runtime _ => ?_
  refine (Agree.of_raises publicVersion_raises).bind fun text ht => ?_
  obtain ⟨v, _, rfl⟩ := publicVersion_ok ht
  refine (Agree.of_raises ?_).bind fun version _ => ?_
  · rw [LawfulPackaging.version?_str]
    exact .ok
  refine (Agree.require (hp.map _).nodup_iff).bind fun _ hn => ?_
  have hn := require_ok.mp hn
  refine (Agree.forM hp fun c hc => checkHost_raises (hw c hc)).bind fun _ _ => ?_
  rw [← normalize_perm hp hn]
  refine (Agree.of_raises normalize_raises).bind fun ns hns => Agree.of_raises ?_
  exact planNormalized_raises (wellFormed_of_normalize hw hns) (nodup_of_normalize hns hn)

theorem planNormalized_ok {runtime : Text} {version : Packaging.Version}
    (h : planNormalized runtime version contracts = .ok p) : p.hostRuntime = runtime ∧
      p.hostVersion = Packaging.versionStr version ∧
      ∃ bindings, orderContracts contracts bindings = .ok p.orderedContracts := by
  obtain ⟨_, _, h⟩ := bind_ok.mp h
  obtain ⟨bindings, _, h⟩ := bind_ok.mp h
  obtain ⟨ordered, ho, h⟩ := bind_ok.mp h
  obtain ⟨_, _, h⟩ := bind_ok.mp h
  obtain ⟨_, _, h⟩ := bind_ok.mp h
  cases h
  exact ⟨rfl, rfl, bindings, ho⟩

theorem compileContracts_fixed (h : compileContracts contracts hostRuntime hostVersion taxonomy = .ok p) :
    compileContracts p.orderedContracts p.hostRuntime p.hostVersion taxonomy = .ok p := by
  have ⟨hne, h⟩ := require_seq.mp h
  obtain ⟨runtime, hr, h⟩ := bind_ok.mp h
  obtain ⟨text, ht, h⟩ := bind_ok.mp h
  obtain ⟨version, hv, h⟩ := bind_ok.mp h
  have ⟨hn, h⟩ := require_seq.mp h
  obtain ⟨u, hc, h⟩ := bind_ok.mp h
  obtain ⟨ns, hns, hplan⟩ := bind_ok.mp h
  obtain ⟨v, hl, rfl⟩ := publicVersion_ok ht
  obtain rfl : version = v :=
    Option.some.inj <| (orElse_ok.mp hv).symm.trans (LawfulPackaging.version?_str v)
  have hc := forM_ok.mp (show contracts.forM (checkHost runtime version) = .ok () from hc)
  have ⟨hpr, hpv, bindings, ho⟩ := planNormalized_ok hplan
  have hnn := nodup_of_normalize hns hn
  have hp : p.orderedContracts.Perm ns := orderContracts_perm hnn ho
  have ⟨hi, hsource⟩ := source_of_normalize hns
  have hword := (string_ok.mp hr).right
  rw [hpr, hpv]
  refine require_seq.mpr ⟨fun he => hne ?_, bind_ok.mpr ⟨runtime, ?_, bind_ok.mpr
    ⟨_, publicVersion_str hl, bind_ok.mpr ⟨version, orElse_ok.mpr (LawfulPackaging.version?_str version), ?_⟩⟩⟩⟩
  · have hnil : ns = [] := (he ▸ hp).nil_eq.symm
    have hlen := congrArg List.length hi
    have hlen : 0 = contracts.length := by
      simpa [ids, hnil, (sortedBy_perm ExtensionContract.extensionId contracts).length_eq] using hlen
    exact List.length_eq_zero_iff.mp hlen.symm
  · have he := (string_ok.mp hr).left
    exact string_ok.mpr ⟨rfl, hword⟩
  refine require_seq.mpr ⟨(hp.map _).nodup_iff.mpr hnn, bind_ok.mpr ⟨(), forM_ok.mpr fun c hm => ?_,
    bind_ok.mpr ⟨ns, normalize_fixed hns hn hp, hplan⟩⟩⟩
  obtain ⟨c', hc', he⟩ := hsource c (hp.subset hm)
  rw [he]
  exact hc c' hc'

-- A contract as the parser makes it.
def Parsed [ContentId] (c : ExtensionContract) : Prop :=
  ∃ payload, parseContract payload = .ok c

variable [ContentId]

-- Compilation does not depend on the order of the contracts, and a plan compiles to itself.
theorem compile_canonical (hparsed : ∀ c ∈ contracts, Parsed c) (hp : contracts.Perm contracts') :
    Agree (compileContracts contracts hostRuntime hostVersion taxonomy)
      (compileContracts contracts' hostRuntime hostVersion taxonomy) ∧
    (∀ p p', compileContracts contracts hostRuntime hostVersion taxonomy = .ok p →
      compileContracts contracts' hostRuntime hostVersion taxonomy = .ok p' → p.planId = p'.planId) ∧
    ∀ p, compileContracts contracts hostRuntime hostVersion taxonomy = .ok p →
      compileContracts p.orderedContracts p.hostRuntime p.hostVersion taxonomy = .ok p := by
  have hw : ∀ c ∈ contracts, WellFormed c := fun c hc =>
    have ⟨_, h⟩ := hparsed c hc
    parseContract_ok h
  have ha : Agree (compileContracts contracts hostRuntime hostVersion taxonomy)
      (compileContracts contracts' hostRuntime hostVersion taxonomy) := compileContracts_agree hw hp
  refine ⟨ha, fun p p' h h' => ?_, fun p h => compileContracts_fixed h⟩
  rw [h, h'] at ha
  cases ha
  rfl

end Compile

namespace Sample

-- Two versions, and the ranges that tell them apart.
scoped instance : LawfulPackaging where
  Version      := Bool
  SpecifierSet := Bool
  version? t :=
    if t = "1.0".points then some false else if t = "2.0".points then some true else none
  versionStr v := if v then "2.0".points else "1.0".points
  isLocal _    := false
  specifiers? t :=
    if t = ">=1.0".points then some false else if t = "==2.0".points then some true else none
  specifiersStr s := if s then "==2.0".points else ">=1.0".points
  versions s      := [if s then "2.0".points else "1.0".points]
  contains s v    := !s || v
  versionStr_word := by decide
  version?_str    := by decide
  specifiers?_str := by decide

scoped instance : ContentId where
  manifest _ := some []
  plan _     := none

def capability (name version : String) : Value :=
  .obj [("name".points, .str name.points), ("version".points, .str version.points)]

def grant : List (Text × Value) :=
  [("role".points, .str "worker".points), ("event".points, .str "loaded".points),
    ("capability_direction".points, .str "provides".points)]

def claim (name mode : String) : Value :=
  .obj [("name".points, .str name.points), ("mode".points, .str mode.points)]

-- A contract whose workers are loaded when they provide its first capability.
def payload (id provided : String) (requires resources : List Value) : Value :=
  .obj [("schema".points, .str "ecpa-manifest/0.1-draft".points), ("id".points, .str id.points),
    ("version".points, .str "1.0".points),
    ("host".points, .obj [("runtime".points, .str "vllm".points), ("version".points, .str ">=1.0".points)]),
    ("capabilities".points, .obj [("provides".points, .arr [capability provided "2.0"]),
      ("requires".points, .arr requires)]),
    ("resources".points, .arr resources),
    ("process_obligations".points, .arr [.obj (grant ++ [("completion".points, .str "all".points),
      ("authority".points, .str "runtime".points), ("capability".points, .str provided.points)])]),
    ("rollback".points, .obj [("manager_owned".points, .arr []),
      ("external_operator_owned".points, .arr [])]),
    ("authority".points, .obj [("provider".points, .arr []),
      ("runtime".points, .arr [.obj (grant ++ [("capability".points, .str provided.points)])]),
      ("external".points, .arr [])])]

-- The contract of a payload that is parsed.
def contract (payload : Value) : ExtensionContract :=
  match parseContract payload with
    | .ok c    => c
    | .error _ => ⟨[], [], [], [], [], [], [], [], [], ⟨[], []⟩, ⟨[], [], []⟩⟩

def isOk {α : Type} : Result α → Bool
  | .ok _    => true
  | .error _ => false

theorem parsed_of_isOk {payload : Value} (h : isOk (parseContract payload)) :
    Parsed (contract payload) := by
  refine ⟨payload, ?_⟩
  unfold contract
  cases hp : parseContract payload
  case ok c    => rfl
  case error e => exact nomatch hp ▸ h

-- The first contract needs what the second one provides. Both read one resource.
def consumer : Value :=
  payload "org.consumer" "model.serve" [capability "kv.store" "==2.0"] [claim "kv.alias" "shared-read"]

def provider : Value :=
  payload "org.provider" "kv.store" [] [claim "kv.pool" "shared-read"]

def taxonomy : ContractTaxonomy where
  schema             := []
  scope              := []
  decisionPrecedence := []
  capabilities       := []
  resources          := [⟨"kv.pool".points, ["kv.alias".points], ["shared-read".points]⟩]
  unique             := by decide

theorem computed :
    (isOk (parseContract consumer) ∧ isOk (parseContract provider)) ∧
    isOk (resolveCapabilities [contract consumer, contract provider]) ∧
    isOk (compileContracts [contract consumer, contract provider] "vllm".points "1.0".points
      taxonomy) ∧
    (ids [contract consumer, contract provider]).Nodup := by
  decide +kernel

theorem parsed : ∀ c ∈ [contract consumer, contract provider], Parsed c := by
  obtain ⟨⟨hc, hp⟩, -⟩ := computed
  exact List.forall_mem_cons.mpr
    ⟨parsed_of_isOk hc, List.forall_mem_singleton.mpr (parsed_of_isOk hp)⟩

end Sample

open Sample in
theorem compile_canonical_of_swap :
    isOk (compileContracts [contract consumer, contract provider] "vllm".points "1.0".points
      taxonomy) ∧
    Agree (compileContracts [contract consumer, contract provider] "vllm".points "1.0".points taxonomy)
      (compileContracts [contract provider, contract consumer] "vllm".points "1.0".points taxonomy) := by
  obtain ⟨-, -, hcompiles, -⟩ := computed
  exact ⟨hcompiles, (compile_canonical parsed (List.Perm.swap ..)).left⟩

end Compiler
