import ExtManager.Compiler.Decision

namespace Compiler

open Fallible

section Specification

variable (contracts : List ExtensionContract)

-- A binding of a requirement to a provider with a version in the range.
def Binds [Packaging] (c : ExtensionContract) (q : Capability) (b : CapabilityBinding) : Prop :=
  b.consumer = c.extensionId ∧ b.capability = q.name ∧ b.requiredRange = q.version ∧
    ∃ x, (Provides contracts q x ∧ InRange x.2.version q.version) ∧
      b.provider = x.1 ∧ b.providedVersion = x.2.version

-- Every requirement is bound, once, and nothing else is.
structure Resolved [Packaging] (bindings : List CapabilityBinding) : Prop where
  once   : (bindings.map fun b => (b.consumer, b.capability)).Nodup
  source : ∀ b ∈ bindings, ∃ c ∈ contracts, ∃ q ∈ c.requires, Binds contracts c q b
  bound  : ∀ c ∈ contracts, ∀ q ∈ c.requires, ∃ b ∈ bindings, Binds contracts c q b

end Specification

-- A consumer is bound to another contract.
def BoundTo (bindings : List CapabilityBinding) (x y : Text) : Prop :=
  x ≠ y ∧ ∃ b ∈ bindings, b.consumer = x ∧ b.provider = y

-- Every provider comes no later than its consumer.
def InOrder (bindings : List CapabilityBinding) (l : List Text) : Prop :=
  ∀ b ∈ bindings, ∀ l₁ l₂, l = l₁ ++ b.consumer :: l₂ → b.provider ∈ l₁ ++ [b.consumer]

section Bindings

variable [LawfulPackaging] {contracts : List ExtensionContract} {bindings : List CapabilityBinding}
  {c : ExtensionContract} {q : Capability} {b : CapabilityBinding}

theorem binds_of_resolve (hw : ∀ c ∈ contracts, WellFormed c)
    (hq : ∃ s, q.version = Packaging.specifiersStr s)
    (hb : resolveRequirement contracts c q = .ok b) : Binds contracts c q b := by
  unfold resolveRequirement at hb
  simp only [compatible_providers hw hq] at hb
  obtain ⟨found, hf, hb⟩ := bind_ok.mp hb
  cases hf
  split at hb
  case h_1 => cases hb
  case h_2 provider provision he =>
    cases hb
    exact ⟨rfl, rfl, rfl, _, candidates_iff.mpr ⟨(provider, provision), by simp [he], rfl⟩, rfl, rfl⟩
  case h_3 => cases hb

omit [LawfulPackaging] in
theorem key_of_resolve [Packaging] (hb : resolveRequirement contracts c q = .ok b) :
    (b.consumer, b.capability) = (c.extensionId, q.name) := by
  obtain ⟨found, _, hb⟩ := bind_ok.mp hb
  split at hb
  case h_1 => cases hb
  case h_2 =>
    cases hb
    rfl
  case h_3 => cases hb

omit [LawfulPackaging] in
-- The bindings are those of the requirements, in their order.
theorem keys_of_resolve [Packaging] (hb : resolveCapabilities contracts = .ok bindings) :
    bindings.map (fun b => (b.consumer, b.capability)) =
      contracts.flatMap fun c => c.requires.map fun q => (c.extensionId, q.name) := by
  obtain ⟨found, hf, hb⟩ := bind_ok.mp hb
  cases hb
  rw [List.map_flatten, List.flatMap]
  exact congrArg _ (map_of_mapM (fun _ _ h => map_of_mapM (fun _ _ => key_of_resolve) h) hf)

theorem resolved (hw : ∀ c ∈ contracts, WellFormed c) (hn : (ids contracts).Nodup)
    (hb : resolveCapabilities contracts = .ok bindings) : Resolved contracts bindings where
  once := by
    rw [keys_of_resolve hb, List.nodup_flatMap]
    refine ⟨fun c hc => ?_, (List.pairwise_map.mp hn).imp fun {c c'} hne x hx hx' => hne ?_⟩
    · have hnames := (hw c hc).required
      exact .of_map Prod.snd (by rwa [List.map_map])
    · obtain ⟨_, _, rfl⟩ := List.mem_map.mp hx
      obtain ⟨_, _, he⟩ := List.mem_map.mp hx'
      exact (congrArg Prod.fst he).symm
  source b hm := by
    obtain ⟨found, hf, hb⟩ := bind_ok.mp hb
    cases hb
    obtain ⟨bs, hbs, hm⟩ := List.mem_flatten.mp hm
    obtain ⟨c, hc, hf⟩ := source_of_mapM hf bs hbs
    obtain ⟨q, hq, hr⟩ := source_of_mapM hf b hm
    exact ⟨c, hc, q, hq, binds_of_resolve hw ((hw c hc).requires q hq) hr⟩
  bound c hc q hq := by
    obtain ⟨found, hf, hb⟩ := bind_ok.mp hb
    cases hb
    obtain ⟨bs, hbs, hf⟩ := target_of_mapM hf c hc
    obtain ⟨b, hm, hr⟩ := target_of_mapM hf q hq
    exact ⟨b, List.mem_flatten.mpr ⟨bs, hbs, hm⟩, binds_of_resolve hw ((hw c hc).requires q hq) hr⟩

omit [LawfulPackaging] in
theorem Resolved.perm [Packaging] {bindings' : List CapabilityBinding}
    (h : Resolved contracts bindings) (hp : bindings'.Perm bindings) :
    Resolved contracts bindings' where
  once   := (hp.map _).nodup_iff.mpr h.once
  source := fun b hb => h.source b (hp.mem_iff.mp hb)
  bound  := fun c hc q hq =>
    have ⟨b, hb, h⟩ := h.bound c hc q hq
    ⟨b, hp.mem_iff.mpr hb, h⟩

end Bindings

section Order

variable {contracts ordered : List ExtensionContract} {bindings : List CapabilityBinding}
  {l : List Text} {x y : Text}

theorem mem_dependencies : y ∈ dependencies bindings x ↔ BoundTo bindings x y := by
  simp only [dependencies, Finset.mem_erase, List.mem_toFinset, List.mem_map, List.mem_filter,
    decide_eq_true_eq, BoundTo, and_assoc]
  exact and_congr_left fun _ => ne_comm

theorem inOrder_iff : InOrder bindings l ↔ Kahn.Respects (dependencies bindings) l := by
  constructor
  · intro h l₁ x l₂ he y hy
    obtain ⟨hne, b, hb, rfl, rfl⟩ := mem_dependencies.mp hy
    have hm := List.mem_append.mp (h b hb l₁ l₂ he)
    exact hm.resolve_right (by simpa using hne.symm)
  · intro h b hb l₁ l₂ he
    by_cases hs : b.consumer = b.provider
    case pos => exact List.mem_append_right _ (hs ▸ List.mem_singleton_self _)
    case neg =>
      exact List.mem_append_left _ (h l₁ _ l₂ he _ (mem_dependencies.mpr ⟨hs, b, hb, rfl, rfl⟩))

variable [LawfulPackaging]

-- The relation that is ordered by.
theorem boundTo_iff (hw : ∀ c ∈ contracts, WellFormed c)
    (hb : resolveCapabilities contracts = .ok bindings) :
    (fun x y => x ∈ ids contracts ∧ y ∈ dependencies bindings x) = BoundTo bindings := by
  funext x y
  rw [mem_dependencies, eq_iff_iff, and_iff_right_iff_imp]
  rintro ⟨_, b, hm, rfl, _⟩
  obtain ⟨c, hc, _, _, _, _, _, he⟩ := source_of_resolve hw hb hm
  exact he ▸ List.mem_map_of_mem hc

theorem order_perm_iff (hw : ∀ c ∈ contracts, WellFormed c) (hn : (ids contracts).Nodup)
    (hb : resolveCapabilities contracts = .ok bindings) :
    (Kahn.order (dependencies bindings) (ids contracts)).ordered.Perm (ids contracts) ↔
      ∀ x, ¬Relation.TransGen (BoundTo bindings) x x := by
  rw [← boundTo_iff hw hb]
  exact ⟨Kahn.acyclic_of_perm hn,
    Kahn.order_perm hn fun _ _ _ hy => (dependsOn_of_mem hw hb hy).right⟩

-- Contracts are ordered, or raise `DEPENDENCY_CYCLE`.
theorem orderContracts_cases (hn : (ids contracts).Nodup) :
    ((Kahn.order (dependencies bindings) (ids contracts)).ordered.Perm (ids contracts) ∧
      ∃ ordered, orderContracts contracts bindings = .ok ordered) ∨
    (¬(Kahn.order (dependencies bindings) (ids contracts)).ordered.Perm (ids contracts) ∧
      FailsWith .dependencyCycle (orderContracts contracts bindings)) := by
  have hlen : (ids contracts).length = contracts.length := List.length_map ..
  rw [← Kahn.order_complete hn, hlen]
  by_cases h : (Kahn.order (dependencies bindings) (ids contracts)).ordered.length = contracts.length
  case pos =>
    have hsub : (Kahn.order (dependencies bindings) (ids contracts)).ordered ⊆ ids contracts :=
      Kahn.order_subset hn
    obtain ⟨ordered, ho⟩ := Raises.total <| Raises.mapM fun x hx => byId_raises (hsub hx)
    exact .inl ⟨h, ordered, require_seq.mpr ⟨h, ho⟩⟩
  case neg => exact .inr ⟨h, FailsWith.bind ⟨_, if_neg h⟩⟩

end Order

-- What the resolution of capabilities and the order of the contracts are to be.
structure Plans [Packaging] (contracts : List ExtensionContract) (bindings : List CapabilityBinding)
    (order : Result (List ExtensionContract)) : Prop where
  resolved : Resolved contracts (sortedBy (fun b => [b.consumer, b.capability]) bindings)
  cycle    : FailsWith .dependencyCycle order ↔ ∃ x, Relation.TransGen (BoundTo bindings) x x
  ordered  : (¬∃ x, Relation.TransGen (BoundTo bindings) x x) → ∃ ordered, order = .ok ordered ∧
    ordered.Perm contracts ∧ InOrder bindings (ids ordered) ∧
      ∀ l, l.Perm (ids contracts) → InOrder bindings l → ids ordered ≤ l

-- Capabilities are resolved iff every requirement has exactly one provider with a version in its
-- range, and then the contracts are ordered as early as they can be, or stand in a cycle.
theorem capabilities_ordered [LawfulPackaging] [ContentId] (contracts : List ExtensionContract)
    (hparsed : ∀ c ∈ contracts, Parsed c) (hn : (ids contracts).Nodup) :
    ((∃ bindings, resolveCapabilities contracts = .ok bindings) ↔
      ∀ c ∈ contracts, ∀ q ∈ c.requires,
        ∃! x, Provides contracts q x ∧ InRange x.2.version q.version) ∧
    ∀ bindings, resolveCapabilities contracts = .ok bindings →
      Plans contracts bindings (orderContracts contracts bindings) := by
  have hw : ∀ c ∈ contracts, WellFormed c := by
    intro c hc
    have ⟨_, h⟩ := hparsed c hc
    exact parseContract_ok h
  refine ⟨?_, fun bindings hb => ?_⟩
  · rw [resolveCapabilities_total hw hn]
    simp only [UnresolvedCapability, Unresolved, not_exists, not_and, not_not]
  have hperm := order_perm_iff hw hn hb
  have hcases := @orderContracts_cases contracts bindings _ hn
  refine ⟨(resolved hw hn hb).perm (sortedBy_perm _ _), ?_, fun hno => ?_⟩
  · rcases hcases with ⟨hp, ordered, ho⟩ | ⟨hp, hf⟩
    · refine iff_of_false (fun ⟨_, he⟩ => ?_) fun ⟨x, hx⟩ => hperm.mp hp x hx
      rw [ho] at he
      cases he
    · refine iff_of_true hf (by_contra fun hno => hp (hperm.mpr fun x hx => hno ⟨x, hx⟩))
  · have hp := hperm.mpr fun x hx => hno ⟨x, hx⟩
    rcases hcases with ⟨_, ordered, ho⟩ | ⟨hno, _⟩
    · have hids := orderContracts_ids ho
      refine ⟨ordered, ho, orderContracts_perm hn ho, ?_, fun l hl hr => ?_⟩
      · rw [hids, inOrder_iff]
        exact Kahn.order_respects hn
      · rw [hids]
        exact Kahn.order_least hn hl (inOrder_iff.mp hr) hp
    · exact absurd hp hno

open Sample in
theorem capabilities_ordered_of_consumer :
    ∃ bindings, resolveCapabilities [contract consumer, contract provider] = .ok bindings ∧
      Plans [contract consumer, contract provider] bindings
        (orderContracts [contract consumer, contract provider] bindings) := by
  obtain ⟨-, hr, -, hn⟩ := computed
  cases hb : resolveCapabilities [contract consumer, contract provider]
  case error e   => exact nomatch hb ▸ hr
  case ok bindings =>
    exact ⟨bindings, rfl, (capabilities_ordered [contract consumer, contract provider]
      parsed hn).right bindings hb⟩

end Compiler
