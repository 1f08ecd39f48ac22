import ExtManager.Coordinator.Steps
import ExtManager.Crash.Theorems

open Crash Prog

-- How the calls of the coordinator return.
namespace Coordinator

variable {τ π : Type} {w w' : World τ π} {u : Unit}

@[simp]
theorem returns_row {planId : String} {a : Activation} :
    Returns (row planId) a w w' ↔ w.store.activation planId = some a ∧ w = w' := by
  simp [row, Store.row_ok_iff]

@[simp]
theorem returns_transaction {body : Store → Except Exc Store} :
    Returns (transaction body) u w w' ↔ ∃ s, body w.store = .ok s ∧ w.setStore s = w' := by
  simp only [transaction, returns_act]
  cases body w.store <;> simp

@[simp]
theorem returns_hit {point : String} :
    Returns (hit point) u w w' ↔ point ∉ w.faults ∧ w = w' := by
  simp only [hit, returns_silent]
  split <;> simp_all

theorem returns_row_seq {α : Type} {planId : String} {a : Activation} {k : Activation → M τ π α}
    {b : α} (ha : w.store.activation planId = some a) :
    Returns (row planId >>= k) b w w' ↔ Returns (k a) b w w' := by
  simp only [returns_bind, returns_row]
  constructor
  · rintro ⟨a', _, ⟨ha', hw⟩, h⟩
    have he : a' = a := Option.some.inj (ha'.symm.trans ha)
    exact he ▸ hw ▸ h
  · exact fun h => ⟨a, w, ⟨ha, rfl⟩, h⟩

theorem returns_isExposure_seq {α : Type} {k : Bool → M τ π α} {b : α} {g : Gate τ}
    (hg : w.traffic = .exposure g) : Returns (isExposure >>= k) b w w' ↔ Returns (k true) b w w' := by
  simp [isExposure, hg]

theorem returns_isPlain_seq {α : Type} {k : Bool → M τ π α} {b : α} {t : π}
    (ht : w.traffic = .plain t) : Returns (isExposure >>= k) b w w' ↔ Returns (k false) b w w' := by
  simp [isExposure, ht]

theorem returns_onPlain {f : π → Except Exc Unit × π} {t : π} (ht : w.traffic = .plain t) :
    Returns (onPlain f) u w w' ↔ (f t).1 = .ok u ∧ w.setTraffic (.plain (f t).2) = w' := by
  simp [onPlain, ht]

theorem returns_onGate {α : Type} {m : Gate.M τ α} {a : α} {g : Gate τ}
    (hg : w.traffic = .exposure g) : Returns (onGate m) a w w' ↔
      ∃ g', Gate.Returned m a g g' ∧ w.setTraffic (.exposure g') = w' := by
  simp only [Returns, onGate, hg, zoom, Gate.Returned]
  constructor
  · rintro ⟨hv, hs⟩
    exact ⟨_, ⟨hv, rfl⟩, hs⟩
  · rintro ⟨g', ⟨hv, hs⟩, hw⟩
    exact ⟨hv, hs ▸ hw⟩

end Coordinator
