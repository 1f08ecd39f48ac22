import ExtManager.Coordinator.Reactivation

open Crash Prog Relation

namespace Store

-- The primary key of `inventory`.
def Keyed (s : Store) : Prop :=
  ∀ planId, ((s.inventory planId).map processKey).Nodup

variable {s s' : Store}

theorem Keyed.congr (h : s.Keyed) (hi : s'.inventory = s.inventory) : s'.Keyed := by
  intro planId
  rw [hi]
  exact h planId

theorem Keyed.set {planId : String} {processes : List ProcessIdentity} (h : s.Keyed)
    (hs : s.setInventory planId processes = .ok s') : s'.Keyed := by
  have ⟨hn, he⟩ := setInventory_ok_iff.mp hs
  subst he
  intro id
  by_cases hid : id = planId
  case pos => simpa [hid] using hn
  case neg => simpa [hid] using h id

end Store

namespace Coordinator

variable [Sha256] {τ π : Type} [TrafficAdapter τ] [TrafficGate π] {c : Call} {op : Op}
variable {w₀ w w' : World τ π} {s : Store} {n : Int} {planId : String} {item : Attestation}

omit [TrafficGate π] in
theorem Commit.keyed (hc : Commit c op w₀ w s) (h : w.store.Keyed) : s.Keyed := by
  cases hc
  case insert hs =>
    have ⟨_, he⟩ := Store.insert_ok_iff.mp hs
    exact h.congr (by rw [he]; rfl)
  case delete | note | shift | launch => exact h.congr rfl
  case launched hs => exact (h.set hs).congr rfl
  case evidence hs =>
    have ⟨_, he⟩ := Store.insertEvidence_ok_iff.mp hs
    exact h.congr (by rw [he]; rfl)
  case refresh hs => exact (h.set hs).congr rfl
  case wal he => exact h.congr (by rw [he]; rfl)

theorem reachable_keyed {may : Call → Op → World τ π → Prop}
    {env : Traffic τ π → Traffic τ π → Prop} (h : Reachable (Initial n) (Next may env) w) :
    w.store.Keyed :=
  (run_store_invariant h (fun _ => .nil) (fun _ _ h => h.congr rfl)
    fun _ _ _ _ _ _ _ _ h hc => .inr (hc.keyed h)).right

-- What `observe` has found where it returns.
structure Accepts (c : Call) (planId : String) (item : Attestation) (now : Int) (s : Store)
    (a : Activation) : Prop where
  activation : s.activation planId = some a
  observable : a.state.observable
  verified   : c.verify item now a.plan = .ok ()
  current    : ¬stale s a planId item

omit [TrafficAdapter τ] [TrafficGate π] in
theorem accepts_of_returns {now : Option Int} {u : Unit}
    (h : Returns (observe c planId item now) u w w') :
    ∃ a, Accepts c planId item (now.getD c.now) w.store a := by
  simp only [observe, returns_bind, returns_row, returns_raiseIf, returns_lift, returns_read,
    returns_transaction] at h
  obtain ⟨a, _, ⟨ha, h₁⟩, _, _, ⟨ho, h₂⟩, _, _, ⟨hv, h₃⟩, _, _, ⟨hs, h₄⟩, _, _, ⟨hst, _⟩, _⟩ := h
  subst h₁ h₂ h₃ h₄ hs
  exact ⟨a, ha, by simpa using ho, hv, hst⟩

-- `observe` compares all of a process but its host, and so the attestation is that of a process of
-- the inventory iff it comes from the host of the process in whose place it is taken.
theorem accepted_process_iff {now : Option Int} {u : Unit}
    (h : Reachable (Initial n) (Next Always Anything) w)
    (hret : Returns (observe c planId item now) u w w') :
    item.process ∈ w.store.inventory planId ↔ ∃ p ∈ w.store.inventory planId,
      p.role = item.process.role ∧ p.ordinal = item.process.ordinal ∧ p.host = item.process.host := by
  refine ⟨fun hp => ⟨_, hp, rfl, rfl, rfl⟩, fun ⟨p, hp, hrole, hordinal, hhost⟩ => ?_⟩
  obtain ⟨a, hacc⟩ := accepts_of_returns hret
  have hcur := hacc.current
  simp only [stale, not_or, not_not] at hcur
  obtain ⟨_, _, _, hany⟩ := hcur
  have hfind := Store.process?_eq rfl (reachable_keyed h planId) hp
  rw [hrole, hordinal] at hfind
  rw [hfind, Option.any_some, decide_eq_true_eq] at hany
  obtain ⟨hstart, hepoch⟩ := hany
  have he : p = item.process := by
    obtain ⟨_, _, _, _, _⟩ := p
    exact ProcessIdentity.mk.injEq .. ▸ ⟨hhost, hrole, hordinal, hstart, hepoch⟩
  exact he ▸ hp

end Coordinator

namespace Coordinator.Sample

theorem observe_of_toOption (item : Attestation) {w : W}
    (h : (observe call planId item none w).value.toOption = some ()) :
    Returns (observe call planId item none) () w (observe call planId item none w).state := by
  refine ⟨?_, rfl⟩
  generalize (observe call planId item none w).value = v at h
  cases v
  case error => cases h
  case ok    => rfl

theorem process_of_launched :
    (observe call planId (attestation "nonce-1") none (launched [])).value = .ok () ∧
      process ∈ (launched []).store.inventory planId := by
  have ⟨hobserve, h⟩ :
      (observe call planId (attestation "nonce-1") none (launched [])).value.toOption = some () ∧
      ((launched []).store.inventory planId).any fun p =>
        p.role = process.role ∧ p.ordinal = process.ordinal ∧ p.host = process.host := by
    decide +kernel
  have hret := observe_of_toOption (attestation "nonce-1") (w := launched []) hobserve
  refine ⟨hret.left, (accepted_process_iff reachable_launched hret).mpr ?_⟩
  have ⟨p, hp, he⟩ := List.any_eq_true.mp h
  exact ⟨p, hp, of_decide_eq_true he⟩

-- The same process, but on a host that the plan has launched nothing on.
def foreign : Attestation :=
  { attestation "nonce-1" with process := { process with host := "host-b" } }

theorem not_process_of_foreign :
    Reachable (Initial 0) (Next (fun c _ _ => c.verify = FakeEvidenceVerifier.verify) Anything)
      (launched []) ∧
    call.verify = FakeEvidenceVerifier.verify ∧
    (observe call planId foreign none (launched [])).value = .ok () ∧
    foreign.process ∉ (launched []).store.inventory planId := by
  have ⟨hobserve, hn⟩ :
      (observe call planId foreign none (launched [])).value.toOption = some () ∧
      foreign.process ∉ (launched []).store.inventory planId := by
    decide +kernel
  refine ⟨?_, rfl, (observe_of_toOption _ hobserve).left, hn⟩
  exact .step (.step (.step reachable_new (.op _ _ rfl Op.after_mem)) (.op _ _ rfl Op.after_mem))
    (.op _ _ rfl Op.after_mem)

end Coordinator.Sample
