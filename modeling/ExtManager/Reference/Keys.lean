import ExtManager.Reference.Refinement

-- Lists that are joined by a separator.
namespace Separated

variable {α : Type} {s : α} {l l' r r' : List α}

-- What is joined is cut at the same separator, or at one that stands in a part of the other.
theorem append_eq_iff : l ++ s :: r = l' ++ s :: r' ↔
    (l = l' ∧ r = r') ∨ (∃ x, l' = l ++ s :: x ∧ r = x ++ s :: r') ∨
      ∃ x, l = l' ++ s :: x ∧ r' = x ++ s :: r := by
  constructor
  · intro h
    rcases List.append_eq_append_iff.mp h with ⟨x, hl, hr⟩ | ⟨x, hl, hr⟩
    · cases x
      case nil       => exact .inl ⟨by simpa using hl.symm, by simpa using hr⟩
      case cons c x =>
        have ⟨hc, hr⟩ := List.cons.inj hr
        exact .inr (.inl ⟨x, hc ▸ hl, hr⟩)
    · cases x
      case nil       => exact .inl ⟨by simpa using hl, by simpa using hr.symm⟩
      case cons c x =>
        have ⟨hc, hr⟩ := List.cons.inj hr
        exact .inr (.inr ⟨x, hc ▸ hl, hr⟩)
  · rintro (⟨rfl, rfl⟩ | ⟨x, rfl, rfl⟩ | ⟨x, rfl, rfl⟩)
    all_goals simp

end Separated

namespace ProcessIdentity

open Separated

-- The two differ in what of a text between two separators belongs to which field: to the host or to
-- the role, or the ordinal of the one stands in the start of the other.
inductive Shifted (p q : ProcessIdentity) : Prop
  | role (x : String) : p.host = q.host ++ "/" ++ x → q.role = x ++ "/" ++ p.role →
      p.ordinal = q.ordinal → p.startId = q.startId → Shifted p q
  | ordinal :
      q.host ++ "/" ++ q.role = p.host ++ "/" ++ p.role ++ "/" ++ toString p.ordinal →
      p.startId = toString q.ordinal ++ "/" ++ q.startId → Shifted p q
  | start (x : String) :
      q.host ++ "/" ++ q.role = p.host ++ "/" ++ p.role ++ "/" ++ toString p.ordinal ++ "/" ++ x →
      p.startId = x ++ "/" ++ toString q.ordinal ++ "/" ++ q.startId → Shifted p q

def Confused (p q : ProcessIdentity) : Prop :=
  p.epoch = q.epoch ∧ (p.Shifted q ∨ q.Shifted p)

variable {p q : ProcessIdentity} {n n' : Int}

theorem notMem_repr {c : Char} {n : Nat} (h : c.isDigit = false) : c ∉ n.repr.toList := by
  rw [Nat.toList_repr]
  intro hc
  simp [Nat.isDigit_of_mem_toDigits (by decide) (by decide) hc] at h

theorem repr_inj {n n' : Nat} (h : n.repr = n'.repr) : n = n' := by
  have h := congrArg (fun t : String => Nat.ofDigitChars 10 t.toList 0) h
  simpa [Nat.toList_repr, Nat.ofDigitChars_ten_toDigits] using h

theorem toString_of_nonneg (h : 0 ≤ n) : (toString n).toList = n.toNat.repr.toList := by
  rw [Int.toString_eq_repr, Int.repr_eq_if, if_pos h]

theorem toString_of_neg (h : ¬0 ≤ n) : (toString n).toList = '-' :: (-n).toNat.repr.toList := by
  rw [Int.toString_eq_repr, Int.repr_eq_if, if_neg h, String.toList_append]
  rfl

theorem toString_ne (l r : String) : toString n ≠ l ++ "/" ++ r := by
  intro h
  have hmem : '/' ∈ (toString n).toList := by simp [h, String.toList_append]
  by_cases hn : 0 ≤ n
  · rw [toString_of_nonneg hn] at hmem
    exact notMem_repr rfl hmem
  · rw [toString_of_neg hn] at hmem
    exact notMem_repr rfl (List.mem_of_ne_of_mem (by decide) hmem)

theorem toString_inj (h : toString n = toString n') : n = n' := by
  rw [← String.toList_inj] at h
  by_cases hn : 0 ≤ n <;> by_cases hn' : 0 ≤ n'
  · rw [toString_of_nonneg hn, toString_of_nonneg hn'] at h
    have := repr_inj (String.toList_injective h)
    omega
  · rw [toString_of_nonneg hn, toString_of_neg hn'] at h
    exact absurd (h ▸ List.mem_cons_self) (notMem_repr rfl)
  · rw [toString_of_neg hn, toString_of_nonneg hn'] at h
    exact absurd (h ▸ List.mem_cons_self) (notMem_repr rfl)
  · rw [toString_of_neg hn, toString_of_neg hn'] at h
    have := repr_inj (String.toList_injective (List.cons.inj h).2)
    omega

theorem slash_iff {l l' r r' : String} : l ++ "/" ++ r = l' ++ "/" ++ r' ↔
    (l = l' ∧ r = r') ∨ (∃ x, l' = l ++ "/" ++ x ∧ r = x ++ "/" ++ r') ∨
      ∃ x, l = l' ++ "/" ++ x ∧ r' = x ++ "/" ++ r := by
  have hlist {t u v w : String} : t ++ "/" ++ u = v ++ "/" ++ w ↔
      t.toList ++ '/' :: u.toList = v.toList ++ '/' :: w.toList := by
    rw [← String.toList_inj]
    simp [String.toList_append]
  have hcut {t u v : String} : t = u ++ "/" ++ v ↔ t.toList = u.toList ++ '/' :: v.toList := by
    rw [← String.toList_inj]
    simp [String.toList_append]
  rw [hlist, append_eq_iff]
  simp only [hcut, String.toList_inj]
  refine or_congr_right (or_congr ?_ ?_)
  all_goals
    constructor
    · rintro ⟨x, h, h'⟩
      exact ⟨String.ofList x, by simpa using h, by simpa using h'⟩
    · rintro ⟨x, h, h'⟩
      exact ⟨x.toList, h, h'⟩

-- The last number is found, since it is written without separators.
theorem number_iff {l l' : String} :
    l ++ "/" ++ toString n = l' ++ "/" ++ toString n' ↔ l = l' ∧ n = n' := by
  rw [slash_iff]
  constructor
  · rintro (⟨hl, hn⟩ | ⟨x, -, h⟩ | ⟨x, -, h⟩)
    · exact ⟨hl, toString_inj hn⟩
    · exact absurd h (toString_ne _ _)
    · exact absurd h (toString_ne _ _)
  · rintro ⟨rfl, rfl⟩
    exact .inl ⟨rfl, rfl⟩

theorem number_eq_iff {l x y : String} : l ++ "/" ++ toString n = x ++ "/" ++ y ↔
    (l = x ∧ y = toString n) ∨ ∃ z, l = x ++ "/" ++ z ∧ y = z ++ "/" ++ toString n := by
  rw [slash_iff]
  constructor
  · rintro (⟨hl, hn⟩ | ⟨z, -, h⟩ | h)
    · exact .inl ⟨hl, hn.symm⟩
    · exact absurd h (toString_ne _ _)
    · exact .inr h
  · rintro (⟨rfl, rfl⟩ | h)
    · exact .inl ⟨rfl, rfl⟩
    · exact .inr (.inr h)

-- The host and the role end at the ordinal.
theorem place_iff : p.host ++ "/" ++ p.role ++ "/" ++ toString p.ordinal =
      q.host ++ "/" ++ q.role ++ "/" ++ toString q.ordinal ↔
    p.ordinal = q.ordinal ∧ ((p.host = q.host ∧ p.role = q.role) ∨
      (∃ x, p.host = q.host ++ "/" ++ x ∧ q.role = x ++ "/" ++ p.role) ∨
      ∃ x, q.host = p.host ++ "/" ++ x ∧ p.role = x ++ "/" ++ q.role) := by
  rw [number_iff, slash_iff, and_comm]
  exact and_congr_right fun _ => or_congr_right or_comm

theorem Shifted.key_eq (h : p.Shifted q) (he : p.epoch = q.epoch) : p.key = q.key := by
  rw [key, key, number_iff]
  refine ⟨?_, he⟩
  cases h
  case role x hh hr ho hs   => rw [hh, hr, ho, hs]; simp only [String.append_assoc]
  case ordinal hc hs        => rw [hc, hs]; simp only [String.append_assoc]
  case start x hc hs        => rw [hc, hs]; simp only [String.append_assoc]

-- What is shifted leaves one of the two places shorter than the other.
theorem Shifted.ne (h : p.Shifted q) : p ≠ q := by
  have hlen (l r : String) : l ≠ l ++ "/" ++ r := by
    intro h
    have h := congrArg String.length h
    have : "/".length = 1 := rfl
    simp only [String.length_append] at h
    omega
  rintro rfl
  cases h
  case role x hh _ _ _ => exact hlen _ _ hh
  case ordinal hc _    => exact hlen _ _ hc
  case start x hc _    =>
    refine hlen (p.host ++ "/" ++ p.role) (toString p.ordinal ++ "/" ++ x) ?_
    simpa only [String.append_assoc] using hc

theorem Confused.ne (h : p.Confused q) : p ≠ q := by
  rcases h.2 with h | h
  · exact h.ne
  · exact h.ne.symm

theorem Confused.key_eq (h : p.Confused q) : p.key = q.key := by
  rcases h.2 with h' | h'
  · exact h'.key_eq h.1
  · exact (h'.key_eq h.1.symm).symm

theorem key_eq_iff : p.key = q.key ↔ p = q ∨ p.Confused q := by
  constructor
  · rw [key, key, number_iff, slash_iff, place_iff]
    rintro ⟨⟨⟨ho, h⟩, hs⟩ | ⟨x, hx, hs⟩ | ⟨x, hx, hs⟩, he⟩
    · rcases h with ⟨hh, hr⟩ | ⟨x, hh, hr⟩ | ⟨x, hh, hr⟩
      · exact .inl (by cases p; cases q; simp_all)
      · exact .inr ⟨he, .inl (.role x hh hr ho hs)⟩
      · exact .inr ⟨he, .inr (.role x hh hr ho.symm hs.symm)⟩
    · refine .inr ⟨he, .inl ?_⟩
      rcases number_eq_iff.mp hx with ⟨hc, rfl⟩ | ⟨y, hc, rfl⟩
      · exact .ordinal hc hs
      · exact .start y hc hs
    · refine .inr ⟨he, .inr ?_⟩
      rcases number_eq_iff.mp hx with ⟨hc, rfl⟩ | ⟨y, hc, rfl⟩
      · exact .ordinal hc hs
      · exact .start y hc hs
  · rintro (rfl | h)
    · rfl
    · exact h.key_eq

theorem key_injective_iff : (p.key = q.key → p = q) ↔ ¬p.Confused q := by
  constructor
  · intro h hc
    exact hc.ne (h hc.key_eq)
  · intro h hk
    exact (key_eq_iff.mp hk).resolve_right h

-- Hosts may hold separators as long as no role and no start does.
theorem Shifted.slash (h : p.Shifted q) : '/' ∈ q.role.toList ∨ '/' ∈ p.startId.toList := by
  cases h
  case role x _ hr _ _ => exact .inl (by simp [hr, String.toList_append])
  case ordinal _ hs    => exact .inr (by simp [hs, String.toList_append])
  case start x _ hs    => exact .inr (by simp [hs, String.toList_append])

theorem not_confused (hr : '/' ∉ p.role.toList ∧ '/' ∉ q.role.toList)
    (hs : '/' ∉ p.startId.toList ∧ '/' ∉ q.startId.toList) : ¬p.Confused q := by
  rintro ⟨-, h | h⟩
  · exact h.slash.elim hr.2 hs.1
  · exact h.slash.elim hr.1 hs.2

end ProcessIdentity

open Crash Prog

namespace ReferenceModel

variable [Sha256] {m : ReferenceModel} {item : Attestation} {now : Int}

-- The checks of `attest` that are not on the process.
structure Presentable (m : ReferenceModel) (item : Attestation) (now : Int) : Prop where
  state     : m.state ∈ [State.observing, .reconcile]
  plan      : ∃ p, m.plan = some p ∧ ¬m.stale p item now
  authority : item.authority = "host-runtime"
  nonce     : item.nonce ∉ m.nonces

theorem attest_returns_iff : (∃ m', Returns (attest item now) () m m') ↔
    m.Presentable item now ∧ item.process.key ∈ m.inventory.map (·.key) := by
  simp only [attest, append, returns_bind, returns_require, returns_getPlan, returns_raiseIf,
    returns_read, returns_modify]
  constructor
  · rintro ⟨_, _, _, ⟨hs, rfl⟩, p, _, ⟨hp, rfl⟩, _, _, ⟨ha, rfl⟩, _, _, ⟨rfl, rfl⟩, _, _,
      ⟨hst, rfl⟩, _, _, ⟨hn, rfl⟩, _, _, ⟨hk, rfl⟩, _⟩
    exact ⟨⟨hs, ⟨p, hp, hst⟩, not_not.mp ha, hn⟩, not_not.mp hk⟩
  · rintro ⟨⟨hs, ⟨p, hp, hst⟩, ha, hn⟩, hk⟩
    exact ⟨_, (), _, ⟨hs, rfl⟩, p, _, ⟨hp, rfl⟩, (), _, ⟨not_not.mpr ha, rfl⟩, m, _, ⟨rfl, rfl⟩, (),
      _, ⟨hst, rfl⟩, (), _, ⟨hn, rfl⟩, (), _, ⟨not_not.mpr hk, rfl⟩, (), _, rfl, rfl⟩

-- A key stands for one process unless two processes are confused, and what is presented for a
-- process that is not there is turned away unless the process is confused with one that is.
theorem attested_iff :
    (∀ p q : ProcessIdentity, (p.key = q.key → p = q) ↔ ¬p.Confused q) ∧
      ∀ (m : ReferenceModel) (item : Attestation) (now : Int),
        (∀ m', Returns (attest item now) () m m' → item.process ∈ m.inventory) ↔
          (m.Presentable item now →
            item.process ∈ m.inventory ∨ ∀ p ∈ m.inventory, ¬p.Confused item.process) := by
  refine ⟨fun p q => ProcessIdentity.key_injective_iff, fun m item now => ?_⟩
  constructor
  · intro h hm
    by_contra! hc
    obtain ⟨hn, p, hp, hc⟩ := hc
    have ⟨m', hr⟩ := attest_returns_iff.mpr ⟨hm, List.mem_map.mpr ⟨p, hp, hc.key_eq⟩⟩
    exact hn (h m' hr)
  · intro h m' hr
    have ⟨hm, hk⟩ := attest_returns_iff.mp ⟨m', hr⟩
    rcases h hm with h | h
    · exact h
    · obtain ⟨p, hp, hk⟩ := List.mem_map.mp hk
      exact ProcessIdentity.key_injective_iff.mpr (h p hp) hk ▸ hp

end ReferenceModel

namespace Coordinator.Sample

-- The host of the first ends with what is the role of the second.
def rack : ProcessIdentity :=
  { process with host := "rack/1" }

def unit : ProcessIdentity :=
  { process with host := "rack", role := "1/worker" }

theorem not_attested :
    (∃ m', Returns (ReferenceModel.attest { attestation "nonce-1" with process := unit } 100) ()
      (model [rack] []).state m') ∧ unit ∉ (model [rack] []).state.inventory ∧
      rack.key = unit.key := by
  refine ⟨⟨_, Fallible.ok_of_toOption ?_, rfl⟩, ?_, ?_⟩
  all_goals decide +kernel

end Coordinator.Sample
