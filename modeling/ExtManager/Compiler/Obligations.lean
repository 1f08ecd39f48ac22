import ExtManager.Compiler.Capabilities

namespace Compiler

open Fallible

section Parser

-- What a parsed contract says about its obligations.
structure Obliged (c : ExtensionContract) : Prop where
  keys       : (c.processObligations.map ProcessObligationContract.key).Nodup
  authority  : ∀ o ∈ c.processObligations, o.authority ∈ AUTHORITY_KINDS
  directions : ∀ o ∈ c.processObligations, o.capabilityDirection ∈ CAPABILITY_DIRECTIONS
  runtime    : ∀ o ∈ c.processObligations, o.event ∈ ["loaded".points, "invoked".points] →
    o.authority = "runtime".points

theorem processObligation_obliged {provides requires : List Capability} {raw : Value} {index : Nat}
    {o : ProcessObligationContract} (h : processObligation provides requires raw index = .ok o) :
    o.authority ∈ AUTHORITY_KINDS ∧ o.capabilityDirection ∈ CAPABILITY_DIRECTIONS ∧
      (o.event ∈ ["loaded".points, "invoked".points] → o.authority = "runtime".points) := by
  iterate 7 obtain ⟨_, -, h⟩ := bind_ok.mp h
  obtain ⟨-, h⟩ := require_seq.mp h
  iterate 2 obtain ⟨_, -, h⟩ := bind_ok.mp h
  have ⟨hkind, h⟩ := require_seq.mp h
  have ⟨hruntime, h⟩ := require_seq.mp h
  iterate 2 obtain ⟨_, -, h⟩ := bind_ok.mp h
  have ⟨hdirection, h⟩ := require_seq.mp h
  iterate 2 obtain ⟨_, -, h⟩ := bind_ok.mp h
  obtain ⟨-, h⟩ := require_seq.mp h
  obtain ⟨_, -, h⟩ := bind_ok.mp h
  cases h
  exact ⟨hkind, hdirection, fun he => not_not.mp fun hne => hruntime ⟨he, hne⟩⟩

theorem processObligations_obliged {provides requires : List Capability} {value : Value}
    {os : List ProcessObligationContract} (h : processObligations provides requires value = .ok os) :
    (os.map ProcessObligationContract.key).Nodup ∧ ∀ o ∈ os, o.authority ∈ AUTHORITY_KINDS ∧
      o.capabilityDirection ∈ CAPABILITY_DIRECTIONS ∧
      (o.event ∈ ["loaded".points, "invoked".points] → o.authority = "runtime".points) := by
  obtain ⟨_, -, h⟩ := bind_ok.mp h
  obtain ⟨-, h⟩ := require_seq.mp h
  obtain ⟨obligations, ho, h⟩ := bind_ok.mp h
  have ⟨hn, h⟩ := require_seq.mp h
  cases h
  refine ⟨hn, fun o hm => ?_⟩
  have ⟨raw, index, h⟩ := mapItems_ok ho o hm
  exact processObligation_obliged h

theorem parseContract_obliged [Packaging] [ContentId] {payload : Value} {c : ExtensionContract}
    (h : parseContract payload = .ok c) : Obliged c := by
  obtain ⟨_, -, h⟩ := bind_ok.mp h
  obtain ⟨-, h⟩ := require_seq.mp h
  iterate 19 obtain ⟨_, -, h⟩ := bind_ok.mp h
  obtain ⟨obligations, ho, h⟩ := bind_ok.mp h
  iterate 10 obtain ⟨_, -, h⟩ := bind_ok.mp h
  cases h
  have ⟨hn, ho⟩ := processObligations_obliged ho
  exact {
    keys       := ((sortedBy_perm _ obligations).map _).nodup_iff.mpr hn
    authority  := fun o hm => (ho o (mem_sortedBy.mp hm)).left
    directions := fun o hm => (ho o (mem_sortedBy.mp hm)).right.left
    runtime    := fun o hm => (ho o (mem_sortedBy.mp hm)).right.right
  }

end Parser

section Specification

variable (p : ContractPlan)

-- What an obligation of a contract is bound to.
structure BindsObligation (c : ExtensionContract) (o : ProcessObligationContract)
    (b : ObligationBinding) : Prop where
  fields   : b = {
    extensionId         := c.extensionId
    role                := o.role
    event               := o.event
    completion          := o.completion
    authority           := o.authority
    capabilityDirection := o.capabilityDirection
    capability          := o.capability
    capabilityProvider  := b.capabilityProvider
    quorum              := o.quorum }
  provides : o.capabilityDirection = "provides".points → b.capabilityProvider = c.extensionId
  requires : o.capabilityDirection = "requires".points → ∃ r ∈ p.capabilityBindings,
    r.consumer = c.extensionId ∧ r.capability = o.capability ∧ r.provider = b.capabilityProvider
  granted  : o.expected ∈ c.authority.grants o.authority

-- Every obligation is bound once, with the authority that it needs.
structure Authorised (contracts : List ExtensionContract) : Prop where
  bound     : ∀ c ∈ contracts, ∀ o ∈ c.processObligations,
    ∃! b, b ∈ p.obligationBindings ∧ BindsObligation p c o b
  source    : ∀ b ∈ p.obligationBindings, ∃ c ∈ contracts, ∃ o ∈ c.processObligations,
    BindsObligation p c o b
  once      : (p.obligationBindings.map fun b =>
    [b.extensionId, b.role, b.event, b.capabilityDirection, b.capability]).Nodup
  providers : (p.capabilityBindings.map fun r => (r.consumer, r.capability)).Nodup
  kinds     : ∀ b ∈ p.obligationBindings, b.authority ∈ AUTHORITY_KINDS ∧
    b.capabilityDirection ∈ CAPABILITY_DIRECTIONS
  runtime   : ∀ b ∈ p.obligationBindings, b.event ∈ ["loaded".points, "invoked".points] →
    b.authority = "runtime".points

end Specification

section Binding

variable {contracts ns : List ExtensionContract} {bindings : List CapabilityBinding}
  {c : ExtensionContract} {o : ProcessObligationContract} {b : ObligationBinding}
  {obligations : List ObligationBinding}

theorem requirementProvider_ok {x y provider : Text}
    (h : requirementProvider bindings x y = .ok provider) :
    ∃ r ∈ bindings, r.consumer = x ∧ r.capability = y ∧ r.provider = provider := by
  obtain ⟨r, hr, h⟩ := bind_ok.mp h
  cases h
  have hr := orElse_ok.mp hr
  have ⟨hc, hq⟩ : r.consumer = x ∧ r.capability = y := by simpa using List.find?_some hr
  exact ⟨r, List.mem_reverse.mp (List.mem_of_find?_eq_some hr), hc, hq, rfl⟩

theorem bindObligation_ok {p : ContractPlan} (hp : p.capabilityBindings = bindings)
    (hg : o.expected ∈ c.authority.grants o.authority)
    (h : bindObligation bindings c o = .ok b) : BindsObligation p c o b := by
  obtain ⟨provider, hprovider, h⟩ := bind_ok.mp h
  cases h
  unfold capabilityProvider at hprovider
  refine ⟨rfl, fun hd => ?_, fun hd => ?_, hg⟩
  · rw [if_neg (by rw [hd]; decide)] at hprovider
    cases hprovider
    rfl
  · rw [if_pos hd] at hprovider
    exact hp ▸ requirementProvider_ok hprovider

def bindingKey (b : ObligationBinding) : List Text :=
  [b.extensionId, b.role, b.event, b.capabilityDirection, b.capability]

theorem bindObligation_key (h : bindObligation bindings c o = .ok b) :
    bindingKey b = c.extensionId :: o.key := by
  obtain ⟨provider, _, h⟩ := bind_ok.mp h
  cases h
  rfl

theorem bindObligations_once (hn : (ids ns).Nodup) (ho : ∀ c ∈ ns, Obliged c)
    (h : bindObligations ns bindings = .ok obligations) : (obligations.map bindingKey).Nodup := by
  obtain ⟨result, hr, h⟩ := bind_ok.mp h
  cases h
  refine ((sortedBy_perm _ _).map _).nodup_iff.mpr ?_
  have hkeys : result.flatten.map bindingKey =
      ns.flatMap fun c => c.processObligations.map fun o => c.extensionId :: o.key := by
    rw [List.map_flatten, List.flatMap]
    exact congrArg _ (map_of_mapM (fun _ _ h => map_of_mapM (fun _ _ => bindObligation_key) h) hr)
  rw [hkeys, List.nodup_flatMap]
  refine ⟨fun c hc => ?_, (List.pairwise_map.mp hn).imp fun {c c'} hne x hx hx' => hne ?_⟩
  · refine .of_map List.tail ?_
    rw [List.map_map]
    exact (ho c hc).keys
  · obtain ⟨_, _, rfl⟩ := List.mem_map.mp hx
    obtain ⟨_, _, he⟩ := List.mem_map.mp hx'
    exact (List.cons.inj he).left.symm

theorem validateObligationAuthority_ok (h : validateObligationAuthority ns = .ok ()) :
    ∀ c ∈ ns, ∀ o ∈ c.processObligations, o.expected ∈ c.authority.grants o.authority :=
  fun c hc o ho => require_ok.mp (forM_ok.mp (forM_ok.mp h c hc) o ho)

end Binding

section Compile

variable [LawfulPackaging] {contracts ns : List ExtensionContract} {taxonomy : Option ContractTaxonomy}
  {p : ContractPlan} {hostRuntime hostVersion : Text}

omit [LawfulPackaging] in
theorem alike_normalize (h : normalize taxonomy contracts = .ok ns) : Alike contracts ns := by
  match taxonomy with
  | none   =>
    cases h
    exact ⟨fun c hc => ⟨c, mem_sortedBy.mp hc, rfl⟩, fun c hc => ⟨c, mem_sortedBy.mpr hc, rfl⟩⟩
  | some t =>
    have ⟨_, _, hm⟩ := normalizeTaxonomyResources_ok.mp h
    have ha := alike_of_normalize hm
    refine ⟨fun c' hc' => ?_, fun c hc => ha.target c (mem_sortedBy.mpr hc)⟩
    have ⟨c, hc, he⟩ := ha.source c' hc'
    exact ⟨c, mem_sortedBy.mp hc, he⟩

omit [LawfulPackaging] in
theorem Alike.authorised (h : Alike contracts ns) (ha : Authorised p ns) : Authorised p contracts where
  bound c hc o ho := by
    have ⟨c', hc', he⟩ := h.target c hc
    have ⟨b, ⟨hb, hbo⟩, hu⟩ := ha.bound c' hc' o (by rw [he]; exact ho)
    rw [he] at hbo hu
    exact ⟨b, ⟨hb, hbo.fields, hbo.provides, hbo.requires, hbo.granted⟩,
      fun b' hb' => hu b' ⟨hb'.left, hb'.right.fields, hb'.right.provides, hb'.right.requires,
        hb'.right.granted⟩⟩
  source b hb := by
    have ⟨c', hc', o, ho, hbo⟩ := ha.source b hb
    have ⟨c, hc, he⟩ := h.source c' hc'
    rw [he] at ho hbo
    exact ⟨c, hc, o, ho, hbo.fields, hbo.provides, hbo.requires, hbo.granted⟩
  once      := ha.once
  providers := ha.providers
  kinds     := ha.kinds
  runtime   := ha.runtime

omit [LawfulPackaging] in
theorem Alike.obliged (h : Alike contracts ns) (ho : ∀ c ∈ contracts, Obliged c) :
    ∀ c ∈ ns, Obliged c := by
  intro c' hc'
  have ⟨c, hc, he⟩ := h.source c' hc'
  have ho := ho c hc
  rw [he]
  exact ⟨ho.keys, ho.authority, ho.directions, ho.runtime⟩

omit [LawfulPackaging] in
theorem planNormalized_bindings [Packaging] {runtime : Text} {version : Packaging.Version}
    (h : planNormalized runtime version ns = .ok p) :
    validateObligationAuthority ns = .ok () ∧ ∃ bindings, resolveCapabilities ns = .ok bindings ∧
      p.capabilityBindings = sortedBy (fun b => [b.consumer, b.capability]) bindings ∧
      bindObligations ns p.capabilityBindings = .ok p.obligationBindings := by
  obtain ⟨_, hg, h⟩ := bind_ok.mp h
  obtain ⟨bindings, hb, h⟩ := bind_ok.mp h
  obtain ⟨_, _, h⟩ := bind_ok.mp h
  obtain ⟨_, _, h⟩ := bind_ok.mp h
  obtain ⟨obligations, hbo, h⟩ := bind_ok.mp h
  cases h
  exact ⟨hg, bindings, hb, rfl, hbo⟩

theorem planNormalized_authorised {runtime : Text} {version : Packaging.Version}
    (hw : ∀ c ∈ ns, WellFormed c) (ho : ∀ c ∈ ns, Obliged c) (hn : (ids ns).Nodup)
    (h : planNormalized runtime version ns = .ok p) : Authorised p ns := by
  have ⟨hg, bindings, hb, hcap, hbo⟩ := planNormalized_bindings h
  have hg := validateObligationAuthority_ok hg
  have honce := bindObligations_once hn ho hbo
  have hkey {c o b} (hb : BindsObligation p c o b) : bindingKey b = c.extensionId :: o.key := by
    rw [hb.fields]
    rfl
  obtain ⟨result, hr, hbo⟩ := bind_ok.mp hbo
  have hmem {b : ObligationBinding} : b ∈ p.obligationBindings ↔ ∃ bs ∈ result, b ∈ bs := by
    rw [← Except.ok.inj hbo, mem_sortedBy, List.mem_flatten]
  have hsource : ∀ b ∈ p.obligationBindings, ∃ c ∈ ns, ∃ o ∈ c.processObligations,
      BindsObligation p c o b := by
    intro b hm
    obtain ⟨bs, hbs, hm⟩ := hmem.mp hm
    obtain ⟨c, hc, hr⟩ := source_of_mapM hr bs hbs
    obtain ⟨o, ho, hr⟩ := source_of_mapM hr b hm
    exact ⟨c, hc, o, ho, bindObligation_ok rfl (hg c hc o ho) hr⟩
  refine ⟨fun c hc o hm => ?_, hsource, honce, ?_, fun b hb => ?_, fun b hb he => ?_⟩
  · obtain ⟨bs, hbs, hr⟩ := target_of_mapM hr c hc
    obtain ⟨b, hb, hr⟩ := target_of_mapM hr o hm
    have hb := hmem.mpr ⟨bs, hbs, hb⟩
    have hbinds : BindsObligation p c o b := bindObligation_ok rfl (hg c hc o hm) hr
    refine ⟨b, ⟨hb, hbinds⟩, fun b' ⟨hb', hbinds'⟩ => ?_⟩
    exact List.inj_on_of_nodup_map honce hb' hb ((hkey hbinds').trans (hkey hbinds).symm)
  · rw [hcap]
    exact ((resolved hw hn hb).perm (sortedBy_perm _ _)).once
  · have ⟨c, hc, o, hm, hbinds⟩ := hsource b hb
    rw [hbinds.fields]
    exact ⟨(ho c hc).authority o hm, (ho c hc).directions o hm⟩
  · have ⟨c, hc, o, hm, hbinds⟩ := hsource b hb
    rw [hbinds.fields] at he ⊢
    exact (ho c hc).runtime o hm he

-- Compilation never misses a key, and every obligation is bound with the authority that it needs.
theorem obligations_authorised [ContentId] (hparsed : ∀ c ∈ contracts, Parsed c) :
    (∀ e, compileContracts contracts hostRuntime hostVersion taxonomy = .error e → Planning e) ∧
    ∀ p, compileContracts contracts hostRuntime hostVersion taxonomy = .ok p →
      Authorised p contracts := by
  have hw : ∀ c ∈ contracts, WellFormed c := by
    intro c hc
    have ⟨_, h⟩ := hparsed c hc
    exact parseContract_ok h
  have ho : ∀ c ∈ contracts, Obliged c := by
    intro c hc
    have ⟨_, h⟩ := hparsed c hc
    exact parseContract_obliged h
  refine ⟨fun e he => ?_, fun p h => ?_⟩
  · have ha : Agree (compileContracts contracts hostRuntime hostVersion taxonomy) _ :=
      compileContracts_agree hw (List.Perm.refl contracts)
    rw [he] at ha
    cases ha
    exact ⟨_, _, rfl⟩
  · have ⟨_, h⟩ := require_seq.mp h
    iterate 3 obtain ⟨_, _, h⟩ := bind_ok.mp h
    have ⟨hn, h⟩ := require_seq.mp h
    obtain ⟨_, _, h⟩ := bind_ok.mp h
    obtain ⟨ns, hns, h⟩ := bind_ok.mp h
    have ha := alike_normalize hns
    exact ha.authorised (planNormalized_authorised (wellFormed_of_normalize hw hns) (ha.obliged ho)
      (nodup_of_normalize hns hn) h)

end Compile

open Sample in
theorem obligations_authorised_of_consumer :
    ∃ p, compileContracts [contract consumer, contract provider] "vllm".points "1.0".points
        taxonomy = .ok p ∧ Authorised p [contract consumer, contract provider] := by
  obtain ⟨-, -, hok, -⟩ := computed
  have hall := @obligations_authorised _ [contract consumer, contract provider] (some taxonomy)
    "vllm".points "1.0".points _ parsed
  cases h : compileContracts [contract consumer, contract provider] "vllm".points "1.0".points taxonomy
  case ok p    => exact ⟨p, rfl, hall.right p h⟩
  case error e => exact nomatch h ▸ hok

end Compiler
