import ExtManager.Codec.Fallible
import ExtManager.Codec.Assoc
import ExtManager.Codec.Scanner
import ExtManager.Contract.PlanArtifact
import Mathlib.Data.String.Basic

open Scanner (bind_eq_ok)

-- Keys stand in order, at every depth.
inductive Json.Ordered : Json → Prop
  | null : Ordered null
  | bool {b} : Ordered (bool b)
  | int {n} : Ordered (int n)
  | float {text} : Ordered (float text)
  | str {s} : Ordered (str s)
  | arr {items} : (∀ v ∈ items, Ordered v) → Ordered (arr items)
  | obj {fields} : Assoc.Sorted fields → (∀ f ∈ fields, Ordered f.2) → Ordered (obj fields)

-- What is read has its keys in order, and what is written is read again, with a line end behind it
-- or without.
structure JsonModule.Lawful [JsonModule] : Prop where
  ordered : ∀ raw v, loads raw = some v → v.Ordered
  inverse : ∀ v raw, v.Ordered → dumps v = some raw →
    loads raw = some v ∧ loads (raw ++ [0x0A]) = some v

namespace PlanArtifact

section

variable {α β : Type} {p : Prop} [Decidable p] {message context : String} {k : Unit → Except Failure β}
variable {b : β} {value : Option Json} {fields g : List (String × Json)} {names : List String}
variable {s : String} {n : Int} {items : List Json} {parse : Nat → Json → Except Failure α}

theorem require_bind : (require p message >>= k) = .ok b ↔ p ∧ k () = .ok b := by
  unfold require
  split
  case isTrue h  => exact ⟨fun hk => ⟨h, hk⟩, fun ⟨_, hk⟩ => hk⟩
  case isFalse h => exact ⟨nofun, fun ⟨hp, _⟩ => absurd hp h⟩

theorem string_ok : string value context = .ok s ↔ value = some (.str s) ∧ isWord s := by
  unfold string
  split
  case h_1 s' =>
    rw [require_bind]
    constructor
    · rintro ⟨hw, he⟩
      cases he
      exact ⟨rfl, hw⟩
    · rintro ⟨he, hw⟩
      cases he
      exact ⟨hw, rfl⟩
  case h_2 h => exact ⟨nofun, fun ⟨he, _⟩ => absurd he (h s)⟩

theorem integer_ok : integer value context = .ok n ↔ value = some (.int n) ∧ 0 ≤ n := by
  unfold integer
  split
  case h_1 n' =>
    rw [require_bind]
    constructor
    · rintro ⟨hn, he⟩
      cases he
      exact ⟨rfl, hn⟩
    · rintro ⟨he, hn⟩
      cases he
      exact ⟨hn, rfl⟩
  case h_2 h => exact ⟨nofun, fun ⟨he, _⟩ => absurd he (h n)⟩

theorem sha256_ok :
    sha256 value context = .ok s ↔ value = some (.str s) ∧ isWord s ∧ isDigest s := by
  constructor
  · intro h
    have ⟨_, hs, h⟩ := bind_eq_ok.mp h
    have ⟨hd, he⟩ := require_bind.mp h
    have ⟨hv, hw⟩ := string_ok.mp hs
    cases he
    exact ⟨hv, hw, hd⟩
  · intro ⟨hv, hw, hd⟩
    exact bind_eq_ok.mpr ⟨s, string_ok.mpr ⟨hv, hw⟩, require_bind.mpr ⟨hd, rfl⟩⟩

theorem array_ok : array value message = .ok items ↔ value = some (.arr items) := by
  unfold array
  split
  case h_1 items' => simp
  case h_2 h      => exact ⟨nofun, fun he => absurd he (h items)⟩

theorem object_ok {v : Json} :
    object value message = .ok v ↔ value = some v ∧ ∃ fields, v = .obj fields := by
  unfold object
  split
  case h_1 fields =>
    constructor
    · intro he
      cases he
      exact ⟨rfl, fields, rfl⟩
    · rintro ⟨he, _⟩
      cases he
      rfl
  case h_2 h =>
    refine ⟨nofun, fun ⟨hv, fields, he⟩ => ?_⟩
    exact absurd (he ▸ hv) (h fields)

theorem boolean_ok {b : Bool} : boolean value message = .ok b ↔ value = some (.bool b) := by
  unfold boolean
  split
  case h_1   => simp
  case h_2 h => exact ⟨nofun, fun he => absurd he (h b)⟩

theorem predecessorPlanId_ok {planId : Option String} : predecessorPlanId value = .ok planId ↔
    value = some (.ofOption .str planId) ∧ ∀ s, planId = some s → isWord s := by
  unfold predecessorPlanId
  split
  case h_1 =>
    cases planId
    case none   => simp [Json.ofOption]
    case some s => simp [Json.ofOption]
  case h_2 h =>
    simp only [bind_eq_ok, string_ok, Except.ok.injEq]
    cases planId
    case none   => simpa [Json.ofOption] using h
    case some s => simp [Json.ofOption]

theorem sameKeys_iff : sameKeys fields names ↔ ∀ n, n ∈ fields.map (·.1) ↔ n ∈ names := by
  simp only [sameKeys, Bool.and_eq_true, List.all_eq_true, decide_eq_true_eq]
  constructor
  · rintro ⟨h, h'⟩ n
    refine ⟨fun hn => ?_, h' n⟩
    have ⟨f, hf, he⟩ := List.mem_map.mp hn
    exact he ▸ h f hf
  · exact fun h => ⟨fun f hf => (h f.1).mp (List.mem_map_of_mem hf), fun n => (h n).mpr⟩

theorem exactFields_ok :
    exactFields value names context = .ok fields ↔ value = some (.obj fields) ∧ sameKeys fields names := by
  unfold exactFields
  split
  case h_1 f =>
    rw [require_bind]
    constructor
    · rintro ⟨hk, he⟩
      cases he
      exact ⟨rfl, hk⟩
    · rintro ⟨he, hk⟩
      cases he
      exact ⟨hk, rfl⟩
  case h_2 h => exact ⟨nofun, fun ⟨he, _⟩ => absurd he (h fields)⟩

-- Fields that have been checked are those of a record if they agree on its keys.
theorem eq_of_sameKeys (keys : List String) (hg : g.map (·.1) = keys) (hs : keys.Pairwise (· < ·))
    (hp : keys.Perm names) (ho : (Json.obj fields).Ordered) (hk : sameKeys fields names)
    (hl : ∀ k ∈ keys, fields.lookup k = g.lookup k) : fields = g := by
  have hf : Assoc.Sorted fields := by cases ho with | obj hs _ => exact hs
  have he : fields.map (·.1) = keys :=
    Assoc.keys_eq hf hs fun n => (sameKeys_iff.mp hk n).trans hp.mem_iff.symm
  exact Assoc.ext hf (List.pairwise_map.mp (hg ▸ hs)) (he.trans hg.symm) (he ▸ hl)

theorem sameKeys_of_perm (keys : List String) (hg : g.map (·.1) = keys) (hp : keys.Perm names) :
    sameKeys g names :=
  sameKeys_iff.mpr fun _ => hg ▸ hp.mem_iff

theorem parseItems_iff {write : α → Json} {valid : α → Prop} {index : Nat} {as : List α}
    (hparse : ∀ i item a, item.Ordered → (parse i item = .ok a ↔ item = write a ∧ valid a))
    (ho : ∀ item ∈ items, item.Ordered) :
    parseItems parse index items = .ok as ↔ items = as.map write ∧ ∀ a ∈ as, valid a := by
  induction items generalizing index as
  case nil =>
    cases as
    case nil  => simp [parseItems]
    case cons => simp [parseItems]
  case cons item items ih =>
    have ⟨hi, ho⟩ := List.forall_mem_cons.mp ho
    simp only [parseItems, bind_eq_ok, hparse _ _ _ hi, ih ho, Except.ok.injEq]
    constructor
    · rintro ⟨a, ⟨rfl, ha⟩, as', ⟨rfl, has⟩, rfl⟩
      exact ⟨rfl, List.forall_mem_cons.mpr ⟨ha, has⟩⟩
    · rintro ⟨he, hv⟩
      cases as
      case nil => cases he
      case cons a as =>
        have ⟨ha, has⟩ := List.forall_mem_cons.mp hv
        have ⟨he, hes⟩ := List.cons.inj he
        exact ⟨a, ⟨he, ha⟩, as, ⟨hes, has⟩, rfl⟩

end

-- The parts of a plan.
section

variable {index : Nat} {item : Json} {value : Option Json}

def PluginIdentity.Valid (p : PluginIdentity) : Prop :=
  isWord p.namespace ∧ isWord p.name ∧ isWord p.version ∧ isWord p.artifactSha256 ∧
    isDigest p.artifactSha256

theorem parsePlugin_iff {p : PluginIdentity} (ho : item.Ordered) :
    parsePlugin index item = .ok p ↔ item = p.asdict ∧ PluginIdentity.Valid p := by
  unfold parsePlugin
  simp only [bind_eq_ok, exactFields_ok, string_ok, sha256_ok, Except.ok.injEq, Option.some.injEq]
  constructor
  · rintro ⟨fields, ⟨rfl, hk⟩, ns, ⟨hns, wns⟩, name, ⟨hname, wname⟩, version, ⟨hversion, wversion⟩,
      digest, ⟨hdigest, wdigest⟩, rfl⟩
    refine ⟨congrArg Json.obj ?_, wns, wname, wversion, wdigest⟩
    refine eq_of_sameKeys ["artifact_sha256", "name", "namespace", "version"] rfl (by decide)
      (by decide) ho hk ?_
    simp only [List.forall_mem_cons]
    exact ⟨hdigest, hname, hns, hversion, nofun⟩
  · rintro ⟨rfl, wns, wname, wversion, wdigest⟩
    exact ⟨_, ⟨rfl, sameKeys_of_perm ["artifact_sha256", "name", "namespace", "version"] rfl
      (by decide)⟩, _, ⟨rfl, wns⟩, _, ⟨rfl, wname⟩, _, ⟨rfl, wversion⟩, _, ⟨rfl, wdigest⟩, rfl⟩

def HostCompatibility.Valid (h : HostCompatibility) : Prop :=
  isWord h.runtime ∧ isWord h.version ∧ isWord h.provider ∧ isWord h.abi

theorem parseHost_iff {h : HostCompatibility} (ho : ∀ v, value = some v → v.Ordered) :
    parseHost value = .ok h ↔ value = some h.asdict ∧ HostCompatibility.Valid h := by
  unfold parseHost
  simp only [bind_eq_ok, exactFields_ok, string_ok, Except.ok.injEq]
  constructor
  · rintro ⟨fields, ⟨rfl, hk⟩, runtime, ⟨hruntime, wruntime⟩, version, ⟨hversion, wversion⟩,
      provider, ⟨hprovider, wprovider⟩, abi, ⟨habi, wabi⟩, rfl⟩
    refine ⟨congrArg (some ∘ Json.obj) ?_, wruntime, wversion, wprovider, wabi⟩
    refine eq_of_sameKeys ["abi", "provider", "runtime", "version"] rfl (by decide) (by decide)
      (ho _ rfl) hk ?_
    simp only [List.forall_mem_cons]
    exact ⟨habi, hprovider, hruntime, hversion, nofun⟩
  · rintro ⟨rfl, wruntime, wversion, wprovider, wabi⟩
    exact ⟨_, ⟨rfl, sameKeys_of_perm ["abi", "provider", "runtime", "version"] rfl (by decide)⟩, _,
      ⟨rfl, wruntime⟩, _, ⟨rfl, wversion⟩, _, ⟨rfl, wprovider⟩, _, ⟨rfl, wabi⟩, rfl⟩

def ResourceClaim.Valid [Lower] (c : ResourceClaim) : Prop :=
  isWord c.uri ∧ canonicalUri c.uri "resource" = .ok c.uri ∧ isResource c.uri ∧ isWord c.mode ∧
    c.mode ∈ ["exclusive", "shared-read"] ∧ isWord c.owner

theorem canonicalUri_ok [Lower] {uri kind u : String} (h : canonicalUri uri kind = .ok u) :
    u = uri := by
  unfold canonicalUri at h
  split at h
  all_goals cases h
  rfl

theorem parseClaim_iff [Lower] {c : ResourceClaim} (ho : item.Ordered) :
    parseClaim index item = .ok c ↔ item = c.asdict ∧ ResourceClaim.Valid c := by
  constructor
  · intro h
    have ⟨fields, hf, h⟩ := bind_eq_ok.mp h
    have ⟨uri, huri, h⟩ := bind_eq_ok.mp h
    have ⟨u, hu, h⟩ := bind_eq_ok.mp h
    have ⟨hres, h⟩ := require_bind.mp h
    have ⟨mode, hmode, h⟩ := bind_eq_ok.mp h
    have ⟨hmem, h⟩ := require_bind.mp h
    have ⟨owner, howner, h⟩ := bind_eq_ok.mp h
    cases h
    have ⟨hi, hk⟩ := exactFields_ok.mp hf
    have ⟨huri, wuri⟩ := string_ok.mp huri
    have ⟨hmode, wmode⟩ := string_ok.mp hmode
    have ⟨howner, wowner⟩ := string_ok.mp howner
    have hu := Fallible.mapError_ok.mp hu
    have he := canonicalUri_ok hu
    subst he
    cases hi
    refine ⟨congrArg Json.obj ?_, wuri, hu, hres, wmode, hmem, wowner⟩
    refine eq_of_sameKeys ["mode", "owner", "uri"] rfl (by decide) (by decide) ho hk ?_
    simp only [List.forall_mem_cons]
    exact ⟨hmode, howner, huri, nofun⟩
  · rintro ⟨rfl, wuri, hu, hres, wmode, hmem, wowner⟩
    refine bind_eq_ok.mpr ⟨_, exactFields_ok.mpr ⟨rfl, sameKeys_of_perm ["mode", "owner", "uri"] rfl
      (by decide)⟩, ?_⟩
    refine bind_eq_ok.mpr ⟨c.uri, string_ok.mpr ⟨rfl, wuri⟩, ?_⟩
    refine bind_eq_ok.mpr ⟨c.uri, Fallible.mapError_ok.mpr hu, require_bind.mpr ⟨hres, ?_⟩⟩
    refine bind_eq_ok.mpr ⟨c.mode, string_ok.mpr ⟨rfl, wmode⟩, require_bind.mpr ⟨hmem, ?_⟩⟩
    exact bind_eq_ok.mpr ⟨c.owner, string_ok.mpr ⟨rfl, wowner⟩, rfl⟩

def EvidenceObligation.Valid (o : EvidenceObligation) : Prop :=
  o.requiredOrdinals ≠ [] ∧ (∀ n ∈ o.requiredOrdinals, 0 ≤ n) ∧
    sortedSet o.requiredOrdinals = o.requiredOrdinals ∧ isWord o.obligationId ∧ isWord o.role ∧
    isWord o.event

theorem mapM_integer_iff {items : List Json} {context : String} {ns : List Int} :
    (items.mapM fun v => integer (some v) context) = .ok ns ↔
      items = ns.map .int ∧ ∀ n ∈ ns, 0 ≤ n := by
  induction items generalizing ns
  case nil => cases ns <;> simp [pure, Except.pure]
  case cons v items ih =>
    simp only [List.mapM_cons, bind_eq_ok, integer_ok, ih, Option.some.injEq]
    constructor
    · rintro ⟨n, ⟨rfl, hn⟩, ns', ⟨rfl, hns⟩, he⟩
      cases he
      exact ⟨rfl, List.forall_mem_cons.mpr ⟨hn, hns⟩⟩
    · rintro ⟨he, hv⟩
      cases ns
      case nil => cases he
      case cons n ns =>
        have ⟨hn, hns⟩ := List.forall_mem_cons.mp hv
        have ⟨he, hes⟩ := List.cons.inj he
        exact ⟨n, ⟨he, hn⟩, ns, ⟨hes, hns⟩, rfl⟩

theorem parseObligation_iff {o : EvidenceObligation} (ho : item.Ordered) :
    parseObligation index item = .ok o ↔ item = o.asdict ∧ EvidenceObligation.Valid o := by
  constructor
  · intro h
    have ⟨fields, hf, h⟩ := bind_eq_ok.mp h
    have ⟨ordinals, hordinals, h⟩ := bind_eq_ok.mp h
    have ⟨hne, h⟩ := require_bind.mp h
    have ⟨parsed, hparsed, h⟩ := bind_eq_ok.mp h
    have ⟨hsorted, h⟩ := require_bind.mp h
    have ⟨id, hid, h⟩ := bind_eq_ok.mp h
    have ⟨role, hrole, h⟩ := bind_eq_ok.mp h
    have ⟨event, hevent, h⟩ := bind_eq_ok.mp h
    cases h
    have ⟨hi, hk⟩ := exactFields_ok.mp hf
    have hordinals := array_ok.mp hordinals
    have ⟨hmap, hnonneg⟩ := mapM_integer_iff.mp hparsed
    have ⟨hid, wid⟩ := string_ok.mp hid
    have ⟨hrole, wrole⟩ := string_ok.mp hrole
    have ⟨hevent, wevent⟩ := string_ok.mp hevent
    subst hmap
    cases hi
    refine ⟨congrArg Json.obj ?_, mt List.map_eq_nil_iff.mpr hne, hnonneg, hsorted, wid, wrole, wevent⟩
    refine eq_of_sameKeys ["event", "obligation_id", "required_ordinals", "role"] rfl (by decide)
      (by decide) ho hk ?_
    simp only [List.forall_mem_cons]
    exact ⟨hevent, hid, hordinals, hrole, nofun⟩
  · rintro ⟨rfl, hne, hnonneg, hsorted, wid, wrole, wevent⟩
    refine bind_eq_ok.mpr ⟨_, exactFields_ok.mpr ⟨rfl, sameKeys_of_perm
      ["event", "obligation_id", "required_ordinals", "role"] rfl (by decide)⟩, ?_⟩
    refine bind_eq_ok.mpr ⟨o.requiredOrdinals.map .int, array_ok.mpr rfl, ?_⟩
    refine require_bind.mpr ⟨mt List.map_eq_nil_iff.mp hne, ?_⟩
    refine bind_eq_ok.mpr ⟨o.requiredOrdinals, mapM_integer_iff.mpr ⟨rfl, hnonneg⟩, ?_⟩
    refine require_bind.mpr ⟨hsorted, ?_⟩
    refine bind_eq_ok.mpr ⟨o.obligationId, string_ok.mpr ⟨rfl, wid⟩, ?_⟩
    refine bind_eq_ok.mpr ⟨o.role, string_ok.mpr ⟨rfl, wrole⟩, ?_⟩
    exact bind_eq_ok.mpr ⟨o.event, string_ok.mpr ⟨rfl, wevent⟩, rfl⟩

theorem ordered_lookup {fields : List (String × Json)} {k : String} {v : Json}
    (ho : (Json.obj fields).Ordered) (h : fields.lookup k = some v) : v.Ordered := by
  cases ho with | obj _ hd => exact hd _ (Assoc.mem_of_lookup h)

theorem ordered_items {items : List Json} (ho : (Json.arr items).Ordered) :
    ∀ item ∈ items, item.Ordered := by
  cases ho with | arr h => exact h

end

section

variable [Lower] [Sha256]

-- The rules of the fields of a plan.
structure Plan.WellFormed (p : Plan) : Prop where
  plugins        : p.plugins ≠ [] ∧ ∀ q ∈ p.plugins, PluginIdentity.Valid q
  pluginIds      : (p.plugins.map (·.id)).Nodup
  host           : HostCompatibility.Valid p.host
  claims         : ∀ c ∈ p.claims, ResourceClaim.Valid c
  claimUris      : (p.claims.map (·.uri)).Nodup
  obligations    : p.obligations ≠ [] ∧ ∀ o ∈ p.obligations, EvidenceObligation.Valid o
  obligationIds  : (p.obligations.map (·.obligationId)).Nodup
  generation     : 0 ≤ p.predecessor.generation
  planId         : ∀ s, p.predecessor.planId = some s → isWord s
  renderedInputs : (∃ fields, p.predecessor.renderedInputs = .obj fields) ∧
    p.predecessor.renderedInputs.Ordered

variable {p : Plan} {value : Option Json}

omit [Lower] [Sha256] in
theorem plan_items {items : List Json} (ho : p.asdict.Ordered) (k : String)
    (h : p.asdict.get? k = some (.arr items)) : ∀ item ∈ items, item.Ordered :=
  ordered_items (ordered_lookup ho h)

theorem parsePlan_iff (ho : ∀ v, value = some v → v.Ordered) :
    parsePlan value = .ok p ↔ value = some p.asdict ∧ Plan.WellFormed p := by
  constructor
  · intro h
    have ⟨body, hbody, h⟩ := bind_eq_ok.mp h
    have ⟨pluginItems, hpluginItems, h⟩ := bind_eq_ok.mp h
    have ⟨hpluginsNe, h⟩ := require_bind.mp h
    have ⟨plugins, hplugins, h⟩ := bind_eq_ok.mp h
    have ⟨hpluginIds, h⟩ := require_bind.mp h
    have ⟨host, hhost, h⟩ := bind_eq_ok.mp h
    have ⟨claimItems, hclaimItems, h⟩ := bind_eq_ok.mp h
    have ⟨claims, hclaims, h⟩ := bind_eq_ok.mp h
    have ⟨hclaimUris, h⟩ := require_bind.mp h
    have ⟨obligationItems, hobligationItems, h⟩ := bind_eq_ok.mp h
    have ⟨hobligationsNe, h⟩ := require_bind.mp h
    have ⟨obligations, hobligations, h⟩ := bind_eq_ok.mp h
    have ⟨hobligationIds, h⟩ := require_bind.mp h
    have ⟨predecessor, hpredecessor, h⟩ := bind_eq_ok.mp h
    have ⟨planId, hplanId, h⟩ := bind_eq_ok.mp h
    have ⟨renderedInputs, hrendered, h⟩ := bind_eq_ok.mp h
    have ⟨fallbackProven, hfallback, h⟩ := bind_eq_ok.mp h
    have ⟨generation, hgeneration, h⟩ := bind_eq_ok.mp h
    cases h
    have ⟨hv, hk⟩ := exactFields_ok.mp hbody
    have hob := ho _ hv
    have hpluginItems := array_ok.mp hpluginItems
    have ⟨hpluginsEq, hpluginsValid⟩ := (parseItems_iff (fun _ _ _ => parsePlugin_iff)
      (ordered_items (ordered_lookup hob hpluginItems))).mp hplugins
    have ⟨hhostEq, hhostValid⟩ := (parseHost_iff fun _ hl => ordered_lookup hob hl).mp hhost
    have hclaimItems := array_ok.mp hclaimItems
    have ⟨hclaimsEq, hclaimsValid⟩ := (parseItems_iff (fun _ _ _ => parseClaim_iff)
      (ordered_items (ordered_lookup hob hclaimItems))).mp hclaims
    have hobligationItems := array_ok.mp hobligationItems
    have ⟨hobligationsEq, hobligationsValid⟩ := (parseItems_iff (fun _ _ _ => parseObligation_iff)
      (ordered_items (ordered_lookup hob hobligationItems))).mp hobligations
    have ⟨hpre, hpk⟩ := exactFields_ok.mp hpredecessor
    have hop := ordered_lookup hob hpre
    have ⟨hplanId, wplanId⟩ := predecessorPlanId_ok.mp hplanId
    have ⟨hrendered, hobject⟩ := object_ok.mp hrendered
    have hfallback := boolean_ok.mp hfallback
    have ⟨hgeneration, hnonneg⟩ := integer_ok.mp hgeneration
    have hpreEq : predecessor = _ := eq_of_sameKeys ["generation", "plan_id", "rendered_inputs"]
      (g := [("generation", .int generation), ("plan_id", .ofOption .str planId),
        ("rendered_inputs", renderedInputs)]) rfl (by decide) (by decide) hop hpk (by
        simp only [List.forall_mem_cons]
        exact ⟨hgeneration, hplanId, hrendered, nofun⟩)
    subst hpluginsEq hclaimsEq hobligationsEq hpreEq hv
    refine ⟨congrArg (some ∘ Json.obj) ?_, {
      plugins        := ⟨mt List.map_eq_nil_iff.mpr hpluginsNe, hpluginsValid⟩
      pluginIds      := hpluginIds
      host           := hhostValid
      claims         := hclaimsValid
      claimUris      := hclaimUris
      obligations    := ⟨mt List.map_eq_nil_iff.mpr hobligationsNe, hobligationsValid⟩
      obligationIds  := hobligationIds
      generation     := hnonneg
      planId         := wplanId
      renderedInputs := ⟨hobject, ordered_lookup hop hrendered⟩
    }⟩
    refine eq_of_sameKeys
      ["claims", "fallback_proven", "host", "obligations", "plugins", "predecessor"] rfl (by decide)
      (by decide) hob hk ?_
    simp only [List.forall_mem_cons]
    exact ⟨hclaimItems, hfallback, hhostEq, hobligationItems, hpluginItems, hpre, nofun⟩
  · rintro ⟨rfl, hp⟩
    have hob := ho _ rfl
    refine bind_eq_ok.mpr ⟨_, exactFields_ok.mpr ⟨rfl, sameKeys_of_perm
      ["claims", "fallback_proven", "host", "obligations", "plugins", "predecessor"] rfl
      (by decide)⟩, ?_⟩
    refine bind_eq_ok.mpr ⟨_, array_ok.mpr rfl, ?_⟩
    refine require_bind.mpr ⟨mt List.map_eq_nil_iff.mp hp.plugins.left, ?_⟩
    refine bind_eq_ok.mpr ⟨p.plugins, (parseItems_iff (fun _ _ _ => parsePlugin_iff)
      (plan_items hob "plugins" rfl)).mpr ⟨rfl, hp.plugins.right⟩, require_bind.mpr ⟨hp.pluginIds, ?_⟩⟩
    refine bind_eq_ok.mpr ⟨p.host, (parseHost_iff fun _ hl => ordered_lookup hob hl).mpr
      ⟨rfl, hp.host⟩, bind_eq_ok.mpr ⟨_, array_ok.mpr rfl, ?_⟩⟩
    refine bind_eq_ok.mpr ⟨p.claims, (parseItems_iff (fun _ _ _ => parseClaim_iff)
      (plan_items hob "claims" rfl)).mpr ⟨rfl, hp.claims⟩, require_bind.mpr ⟨hp.claimUris, ?_⟩⟩
    refine bind_eq_ok.mpr ⟨_, array_ok.mpr rfl, ?_⟩
    refine require_bind.mpr ⟨mt List.map_eq_nil_iff.mp hp.obligations.left, ?_⟩
    refine bind_eq_ok.mpr ⟨p.obligations, (parseItems_iff (fun _ _ _ => parseObligation_iff)
      (plan_items hob "obligations" rfl)).mpr ⟨rfl, hp.obligations.right⟩, require_bind.mpr ⟨hp.obligationIds, ?_⟩⟩
    refine bind_eq_ok.mpr ⟨_, exactFields_ok.mpr ⟨rfl, sameKeys_of_perm
      ["generation", "plan_id", "rendered_inputs"] rfl (by decide)⟩, ?_⟩
    refine bind_eq_ok.mpr ⟨p.predecessor.planId, predecessorPlanId_ok.mpr ⟨rfl, hp.planId⟩, ?_⟩
    refine bind_eq_ok.mpr ⟨_, object_ok.mpr ⟨rfl, hp.renderedInputs.left⟩, ?_⟩
    refine bind_eq_ok.mpr ⟨_, boolean_ok.mpr rfl, ?_⟩
    exact bind_eq_ok.mpr ⟨_, integer_ok.mpr ⟨rfl, hp.generation⟩, rfl⟩

end

-- The forms of a plan.
section

variable [Sha256] {p : Plan}

omit [Sha256] in
theorem str_ordered {α : Type} {f : α → Json} {as : List α} (h : ∀ a ∈ as, (f a).Ordered) :
    (Json.arr (as.map f)).Ordered :=
  .arr (List.forall_mem_map.mpr h)

omit [Sha256] in
theorem fields_ordered {g : List (String × Json)} (keys : List String) (hg : g.map (·.1) = keys)
    (hs : keys.Pairwise (· < ·)) (h : ∀ f ∈ g, f.2.Ordered) : (Json.obj g).Ordered :=
  .obj (List.pairwise_map.mp (hg ▸ hs)) h

omit [Sha256] in
theorem asdict_ordered (h : p.predecessor.renderedInputs.Ordered) : p.asdict.Ordered := by
  have hplugin (q : PluginIdentity) : q.asdict.Ordered := by
    refine fields_ordered ["artifact_sha256", "name", "namespace", "version"] rfl (by decide) ?_
    simp only [List.forall_mem_cons]
    exact ⟨.str, .str, .str, .str, nofun⟩
  have hhost (q : HostCompatibility) : q.asdict.Ordered := by
    refine fields_ordered ["abi", "provider", "runtime", "version"] rfl (by decide) ?_
    simp only [List.forall_mem_cons]
    exact ⟨.str, .str, .str, .str, nofun⟩
  have hclaim (q : ResourceClaim) : q.asdict.Ordered := by
    refine fields_ordered ["mode", "owner", "uri"] rfl (by decide) ?_
    simp only [List.forall_mem_cons]
    exact ⟨.str, .str, .str, nofun⟩
  have hobligation (q : EvidenceObligation) : q.asdict.Ordered := by
    refine fields_ordered ["event", "obligation_id", "required_ordinals", "role"] rfl (by decide) ?_
    simp only [List.forall_mem_cons]
    exact ⟨.str, .str, str_ordered fun _ _ => .int, .str, nofun⟩
  have hplanId (q : Option String) : (Json.ofOption .str q).Ordered := by
    cases q
    case none => exact .null
    case some => exact .str
  have hpredecessor : p.predecessor.asdict.Ordered := by
    refine fields_ordered ["generation", "plan_id", "rendered_inputs"] rfl (by decide) ?_
    simp only [List.forall_mem_cons]
    exact ⟨.int, hplanId _, h, nofun⟩
  refine fields_ordered
    ["claims", "fallback_proven", "host", "obligations", "plugins", "predecessor"] rfl (by decide) ?_
  simp only [List.forall_mem_cons]
  exact ⟨str_ordered fun _ _ => hclaim _, .bool, hhost _, str_ordered fun _ _ => hobligation _,
    str_ordered fun _ _ => hplugin _, hpredecessor, nofun⟩

theorem artifactValue_ordered (h : p.predecessor.renderedInputs.Ordered) :
    (artifactValue p).Ordered := by
  refine fields_ordered ["plan", "plan_id", "schema"] rfl (by decide) ?_
  simp only [List.forall_mem_cons]
  exact ⟨asdict_ordered h, .str, .str, nofun⟩

variable [JsonModule] [Lower] {raw : Bytes}

omit [Sha256] [Lower] in
theorem load_ok {v : Json} : load raw = .ok v ↔ JsonModule.loads raw = some v := by
  unfold load
  split
  case h_1 h => simp [h]
  case h_2 h => simp [h]

-- The artifacts that are read are those that are written.
theorem parsePlanArtifact_iff (hj : JsonModule.Lawful) :
    parsePlanArtifact raw = .ok p ↔ Plan.WellFormed p ∧ artifactBytes p = some raw := by
  constructor
  · intro h
    have ⟨v, hv, h⟩ := bind_eq_ok.mp h
    have hv := load_ok.mp hv
    have ⟨envelope, henvelope, h⟩ := bind_eq_ok.mp h
    have ⟨hcanonical, h⟩ := require_bind.mp h
    have ⟨hschema, h⟩ := require_bind.mp h
    have ⟨plan, hplan, h⟩ := bind_eq_ok.mp h
    have ⟨hplanId, h⟩ := require_bind.mp h
    cases h
    have ⟨he, hk⟩ := exactFields_ok.mp henvelope
    cases he
    have ho := hj.ordered _ _ hv
    have ⟨hplanEq, hwf⟩ := (parsePlan_iff fun _ hl => ordered_lookup ho hl).mp hplan
    refine ⟨hwf, hcanonical ▸ congrArg (fun v => (canonicalBytes (.obj v)).map (· ++ [0x0A])) ?_⟩
    refine (eq_of_sameKeys ["plan", "plan_id", "schema"] rfl (by decide) (by decide) ho hk ?_).symm
    simp only [List.forall_mem_cons]
    exact ⟨hplanEq, hplanId, hschema, nofun⟩
  · intro ⟨hwf, hb⟩
    have ho := artifactValue_ordered hwf.renderedInputs.right
    have ⟨b, hd, he⟩ := Option.map_eq_some_iff.mp hb
    have hloads : JsonModule.loads raw = some (artifactValue p) := he ▸ (hj.inverse _ _ ho hd).right
    refine bind_eq_ok.mpr ⟨_, load_ok.mpr hloads, bind_eq_ok.mpr ⟨_, exactFields_ok.mpr ⟨rfl, sameKeys_of_perm
      ["plan", "plan_id", "schema"] rfl (by decide)⟩, ?_⟩⟩
    refine require_bind.mpr ⟨hb.symm, require_bind.mpr ⟨rfl, ?_⟩⟩
    refine bind_eq_ok.mpr ⟨p, (parsePlan_iff fun _ hl => ordered_lookup ho hl).mpr ⟨rfl, hwf⟩, ?_⟩
    exact require_bind.mpr ⟨rfl, rfl⟩

end

end PlanArtifact

namespace Coordinator

theorem mapM_map {α : Type} {write : α → Json} {read : Json → Option α}
    (h : ∀ a, read (write a) = some a) {as : List α} : (as.map write).mapM read = some as := by
  induction as
  case nil          => rfl
  case cons a as ih => simp [List.mapM_cons, h, ih]

-- The coordinator reads the plan that it has written.
theorem planFromValue_asdict {p : Plan} : planFromValue p.asdict = some p := by
  have hplugin (q : PluginIdentity) : pluginFromJson q.asdict = some q := rfl
  have hclaim (q : ResourceClaim) : claimFromJson q.asdict = some q := rfl
  have hobligation (q : EvidenceObligation) : obligationFromJson q.asdict = some q := by
    have hn : (q.requiredOrdinals.map Json.int).mapM (fun n => int? (some n)) =
        some q.requiredOrdinals :=
      @mapM_map Int .int (fun n => int? (some n)) (fun _ => rfl) _
    change (do
      let ordinals ← (q.requiredOrdinals.map Json.int).mapM fun n => int? (some n)
      some ({ q with requiredOrdinals := ordinals } : EvidenceObligation)) = some q
    rw [hn]
    rfl
  have hpredecessor (q : PredecessorSnapshot) : predecessorFromJson q.asdict = some q := by
    obtain ⟨_, _ | _, _⟩ := q <;> rfl
  change (do
    let plugins ← (p.plugins.map (·.asdict)).mapM pluginFromJson
    let host ← hostFromJson p.host.asdict
    let claims ← (p.claims.map (·.asdict)).mapM claimFromJson
    let obligations ← (p.obligations.map (·.asdict)).mapM obligationFromJson
    let predecessor ← predecessorFromJson p.predecessor.asdict
    some (⟨plugins, host, claims, obligations, predecessor, p.fallbackProven⟩ : Plan)) = some p
  rw [mapM_map hplugin, mapM_map hclaim, mapM_map hobligation, hpredecessor]
  rfl

end Coordinator

namespace PlanArtifact

open Coordinator

-- Both decoders undo the encoder, and an artifact has one form.
theorem plan_codecs [Sha256] [JsonModule] [Lower] (hj : JsonModule.Lawful) :
    (∀ raw p, parsePlanArtifact raw = .ok p → artifactBytes p = some raw) ∧
    (∀ p raw, Plan.WellFormed p → artifactBytes p = some raw → parsePlanArtifact raw = .ok p) ∧
    (∀ p raw, Plan.WellFormed p → canonicalBytes p.asdict = some raw →
      ∃ p', planFromJson raw = some p' ∧ p' = p ∧ p'.planId = p.planId) := by
  refine ⟨fun raw p h => ((parsePlanArtifact_iff hj).mp h).right,
    fun p raw hp hb => (parsePlanArtifact_iff hj).mpr ⟨hp, hb⟩, fun p raw hp hb => ?_⟩
  have hloads := (hj.inverse _ _ (asdict_ordered hp.renderedInputs.right) hb).left
  refine ⟨p, ?_, rfl, rfl⟩
  rw [planFromJson, hloads]
  exact planFromValue_asdict

end PlanArtifact

namespace PlanArtifact.Sample

open Coordinator

def plugin : PluginIdentity where
  «namespace»    := "org.vllm-hust"
  name           := "demo"
  version        := "1"
  artifactSha256 := "aaaaaaaaaaaaaaaaaaaaaaaaaaaaaaaaaaaaaaaaaaaaaaaaaaaaaaaaaaaaaaaa"

def plan : Plan where
  plugins     := [plugin]
  host        := ⟨"vllm", "0.28", "fake", "1"⟩
  claims      := [{ uri := "urn:ecpa:resource:kv", owner := "demo" }]
  obligations := [⟨"workers-loaded", "worker", "loaded", [0, 1]⟩]
  predecessor := ⟨0, some "predecessor", .obj [("route", .str "old")]⟩

def digests : List (Json × String) :=
  [(plan.asdict, "b9a4fe7fda992f217eb168ee432aedd8dee2878a9a846670f2ddda836c510552"),
    (plugin.asdict, "893e86ba882b0814f4385a2b1fe4f19b6dde4eae76eabd5aed60c56081fdbc04")]

scoped instance : Sha256 where
  canonical value := (digests.lookup value).getD ""
  ascii value     := (digests.lookup value).getD ""

def body : Bytes := [
  123, 34, 99, 108, 97, 105, 109, 115, 34, 58, 91, 123, 34, 109, 111, 100, 101, 34, 58, 34, 101,
  120, 99, 108, 117, 115, 105, 118, 101, 34, 44, 34, 111, 119, 110, 101, 114, 34, 58, 34, 100,
  101, 109, 111, 34, 44, 34, 117, 114, 105, 34, 58, 34, 117, 114, 110, 58, 101, 99, 112, 97, 58,
  114, 101, 115, 111, 117, 114, 99, 101, 58, 107, 118, 34, 125, 93, 44, 34, 102, 97, 108, 108, 98,
  97, 99, 107, 95, 112, 114, 111, 118, 101, 110, 34, 58, 102, 97, 108, 115, 101, 44, 34, 104, 111,
  115, 116, 34, 58, 123, 34, 97, 98, 105, 34, 58, 34, 49, 34, 44, 34, 112, 114, 111, 118, 105,
  100, 101, 114, 34, 58, 34, 102, 97, 107, 101, 34, 44, 34, 114, 117, 110, 116, 105, 109, 101, 34,
  58, 34, 118, 108, 108, 109, 34, 44, 34, 118, 101, 114, 115, 105, 111, 110, 34, 58, 34, 48, 46,
  50, 56, 34, 125, 44, 34, 111, 98, 108, 105, 103, 97, 116, 105, 111, 110, 115, 34, 58, 91, 123,
  34, 101, 118, 101, 110, 116, 34, 58, 34, 108, 111, 97, 100, 101, 100, 34, 44, 34, 111, 98, 108,
  105, 103, 97, 116, 105, 111, 110, 95, 105, 100, 34, 58, 34, 119, 111, 114, 107, 101, 114, 115,
  45, 108, 111, 97, 100, 101, 100, 34, 44, 34, 114, 101, 113, 117, 105, 114, 101, 100, 95, 111,
  114, 100, 105, 110, 97, 108, 115, 34, 58, 91, 48, 44, 49, 93, 44, 34, 114, 111, 108, 101, 34,
  58, 34, 119, 111, 114, 107, 101, 114, 34, 125, 93, 44, 34, 112, 108, 117, 103, 105, 110, 115,
  34, 58, 91, 123, 34, 97, 114, 116, 105, 102, 97, 99, 116, 95, 115, 104, 97, 50, 53, 54, 34, 58,
  34, 97, 97, 97, 97, 97, 97, 97, 97, 97, 97, 97, 97, 97, 97, 97, 97, 97, 97, 97, 97, 97, 97, 97,
  97, 97, 97, 97, 97, 97, 97, 97, 97, 97, 97, 97, 97, 97, 97, 97, 97, 97, 97, 97, 97, 97, 97, 97,
  97, 97, 97, 97, 97, 97, 97, 97, 97, 97, 97, 97, 97, 97, 97, 97, 97, 34, 44, 34, 110, 97, 109,
  101, 34, 58, 34, 100, 101, 109, 111, 34, 44, 34, 110, 97, 109, 101, 115, 112, 97, 99, 101, 34,
  58, 34, 111, 114, 103, 46, 118, 108, 108, 109, 45, 104, 117, 115, 116, 34, 44, 34, 118, 101,
  114, 115, 105, 111, 110, 34, 58, 34, 49, 34, 125, 93, 44, 34, 112, 114, 101, 100, 101, 99, 101,
  115, 115, 111, 114, 34, 58, 123, 34, 103, 101, 110, 101, 114, 97, 116, 105, 111, 110, 34, 58,
  48, 44, 34, 112, 108, 97, 110, 95, 105, 100, 34, 58, 34, 112, 114, 101, 100, 101, 99, 101, 115,
  115, 111, 114, 34, 44, 34, 114, 101, 110, 100, 101, 114, 101, 100, 95, 105, 110, 112, 117, 116,
  115, 34, 58, 123, 34, 114, 111, 117, 116, 101, 34, 58, 34, 111, 108, 100, 34, 125, 125, 125]

def artifact : Bytes :=
  [123, 34, 112, 108, 97, 110, 34, 58] ++ body ++ [
  44, 34, 112, 108, 97, 110, 95, 105, 100, 34, 58, 34, 112, 108, 97, 110, 58, 115, 104, 97, 50,
  53, 54, 58, 98, 57, 97, 52, 102, 101, 55, 102, 100, 97, 57, 57, 50, 102, 50, 49, 55, 101, 98,
  49, 54, 56, 101, 101, 52, 51, 50, 97, 101, 100, 100, 56, 100, 101, 101, 50, 56, 55, 56, 97, 57,
  97, 56, 52, 54, 54, 55, 48, 102, 50, 100, 100, 100, 97, 56, 51, 54, 99, 53, 49, 48, 53, 53, 50,
  34, 44, 34, 115, 99, 104, 101, 109, 97, 34, 58, 34, 101, 99, 112, 97, 45, 101, 120, 101, 99,
  117, 116, 105, 111, 110, 45, 112, 108, 97, 110, 47, 118, 49, 34, 125]

-- The bytes of the plan and of its artifact.
scoped instance : JsonModule where
  loads raw :=
    if raw = body ∨ raw = body ++ [0x0A] then some plan.asdict
    else if raw = artifact ∨ raw = artifact ++ [0x0A] then some (artifactValue plan)
    else none
  dumps value :=
    if value = plan.asdict then some body
    else if value = artifactValue plan then some artifact
    else none

scoped instance : Lower where
  lower s := .ofList (s.toList.map (·.toLower))

theorem plan_wellFormed : Plan.WellFormed plan where
  plugins        := ⟨nofun, List.forall_mem_singleton.mpr ⟨by decide, by decide, by decide,
    by decide +kernel, by decide +kernel⟩⟩
  pluginIds      := List.nodup_singleton _
  host           := ⟨by decide, by decide, by decide, by decide⟩
  claims         := List.forall_mem_singleton.mpr ⟨by decide, by decide +kernel, by decide +kernel,
    by decide, by decide, by decide⟩
  claimUris      := List.nodup_singleton _
  obligations    := ⟨nofun, List.forall_mem_singleton.mpr ⟨nofun, by decide, by decide +kernel,
    by decide, by decide, by decide⟩⟩
  obligationIds  := List.nodup_singleton _
  generation     := le_rfl
  planId         := by
    rintro _ ⟨⟩
    decide
  renderedInputs := ⟨⟨_, rfl⟩, .obj (List.pairwise_singleton ..)
    (List.forall_mem_singleton.mpr .str)⟩

theorem body_ne : artifact ≠ body ∧ artifact ≠ body ++ [0x0A] ∧ artifact ++ [0x0A] ≠ body ∧
    artifact ++ [0x0A] ≠ body ++ [0x0A] := by
  decide +kernel

theorem json_lawful : JsonModule.Lawful where
  ordered raw v h := by
    have hr := plan_wellFormed.renderedInputs.right
    simp only [JsonModule.loads] at h
    split at h
    case isTrue  => exact Option.some.inj h ▸ asdict_ordered hr
    split at h
    case isTrue  => exact Option.some.inj h ▸ artifactValue_ordered hr
    case isFalse => cases h
  inverse v raw _ h := by
    have ⟨h₁, h₂, h₃, h₄⟩ := body_ne
    simp only [JsonModule.dumps] at h
    split at h
    case isTrue hv =>
      cases h
      exact hv ▸ ⟨if_pos (.inl rfl), if_pos (.inr rfl)⟩
    split at h
    all_goals cases h
    case isFalse.isTrue hv =>
      refine hv ▸ ⟨?_, ?_⟩
      · exact (if_neg (not_or.mpr ⟨h₁, h₂⟩)).trans (if_pos (.inl rfl))
      · exact (if_neg (not_or.mpr ⟨h₃, h₄⟩)).trans (if_pos (.inr rfl))

theorem artifact_bytes : artifactBytes plan = some (artifact ++ [0x0A]) := by
  have hne : artifactValue plan ≠ plan.asdict := nofun
  simp [artifactBytes, canonicalBytes, JsonModule.dumps, hne]

theorem plan_read : parsePlanArtifact (artifact ++ [0x0A]) = .ok plan ∧
    artifactBytes plan = some (artifact ++ [0x0A]) ∧ planFromJson body = some plan := by
  have ⟨hbytes, hparse, hfrom⟩ := plan_codecs json_lawful
  have hp := hparse plan _ plan_wellFormed artifact_bytes
  have hbody : canonicalBytes plan.asdict = some body := by
    simp [canonicalBytes, JsonModule.dumps]
  have ⟨_, hread, he, _⟩ := hfrom plan body plan_wellFormed hbody
  exact ⟨hp, hbytes _ _ hp, he ▸ hread⟩

end PlanArtifact.Sample
