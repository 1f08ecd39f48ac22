import Mathlib.Data.List.Lex
import Mathlib.Data.List.Sort

-- Association lists in the order of their keys.
namespace Assoc

variable {κ β : Type} {l l' : List (κ × β)} {k : κ} {v : β}

def Sorted [LT κ] (l : List (κ × β)) : Prop :=
  l.Pairwise (·.1 < ·.1)

section

variable [Preorder κ]

theorem keys_eq {names : List κ} (h : Sorted l) (hn : names.Pairwise (· < ·))
    (hk : ∀ n, n ∈ l.map (·.1) ↔ n ∈ names) : l.map (·.1) = names := by
  have hs : (l.map (·.1)).Pairwise (· < ·) := List.pairwise_map.mpr h
  refine List.Perm.eq_of_pairwise (fun _ _ _ _ h h' => absurd h' (lt_asymm h)) hs hn ?_
  exact (List.perm_ext_iff_of_nodup (hs.imp ne_of_lt) (hn.imp ne_of_lt)).mpr hk

variable [BEq κ] [LawfulBEq κ]

omit [Preorder κ] in
theorem lookup_of_nodup (h : (l.map (·.1)).Nodup) (hm : (k, v) ∈ l) : l.lookup k = some v := by
  induction l
  case nil => cases hm
  case cons f rest ih =>
    have ⟨hf, hrest⟩ := List.nodup_cons.mp h
    rw [List.lookup_cons]
    rcases List.mem_cons.mp hm with rfl | hm
    · simp
    · have hne : k ≠ f.1 := fun he => hf (List.mem_map.mpr ⟨_, hm, he⟩)
      simp only [beq_eq_false_iff_ne.mpr hne]
      exact ih hrest hm

theorem lookup_of_mem (h : Sorted l) (hm : (k, v) ∈ l) : l.lookup k = some v :=
  lookup_of_nodup ((List.pairwise_map.mpr h).imp ne_of_lt) hm

omit [Preorder κ] in
theorem mem_of_lookup (h : l.lookup k = some v) : (k, v) ∈ l := by
  induction l
  case nil => cases h
  case cons f rest ih =>
    rw [List.lookup_cons] at h
    split at h
    case h_1 he =>
      cases h
      exact beq_iff_eq.mp he ▸ List.mem_cons_self
    case h_2 => exact List.mem_cons_of_mem _ (ih h)

-- A sorted list is known by its keys and by what stands under them.
theorem ext (h : Sorted l) (h' : Sorted l') (hk : l.map (·.1) = l'.map (·.1))
    (hg : ∀ k ∈ l.map (·.1), l.lookup k = l'.lookup k) : l = l' := by
  have hnodup {l : List (κ × β)} (h : Sorted l) : l.Nodup :=
    List.Nodup.of_map _ ((List.pairwise_map.mpr h).imp ne_of_lt)
  refine List.Perm.eq_of_pairwise (fun _ _ _ _ h h' => absurd h' (lt_asymm h)) h h' ?_
  refine (List.perm_ext_iff_of_nodup (hnodup h) (hnodup h')).mpr fun (k, v) => ?_
  constructor
  · intro hm
    have hkm : k ∈ l.map (·.1) := List.mem_map_of_mem hm
    exact mem_of_lookup (hg k hkm ▸ lookup_of_mem h hm)
  · intro hm
    have hkm : k ∈ l'.map (·.1) := List.mem_map_of_mem hm
    exact mem_of_lookup ((hg k (hk ▸ hkm)).trans (lookup_of_mem h' hm))

end

end Assoc
