import ExtManager.Crash.Theorems
import Mathlib.Data.List.Chain

namespace Crash.Prog

variable {σ ν ε α β : Type} {view : σ → ν} {R : ν → ν → Prop} {s : σ}

-- The states in which a call may leave the world, one after the other, begin with the one it is
-- started in, and what `view` shows of them changes from each to the next as `R` says.
def Paced (view : σ → ν) (R : ν → ν → Prop) (m : Prog σ ε α) (s : σ) : Prop :=
  ((m s).ends.map view).head? = some (view s) ∧ ((m s).ends.map view).IsChain R

namespace Paced

theorem silent {f : σ → Except ε α × σ} (h : view (f s).2 = view s) :
    Paced view R (silent f) s := by
  simp [Paced, Prog.silent, Result.ends, h]

theorem act {f : σ → Except ε α × σ} (h : R (view s) (view (f s).2)) :
    Paced view R (act f) s := by
  simpa [Paced, Prog.act, Result.ends] using h

theorem pure {a : α} : Paced view R (Pure.pure a : Prog σ ε α) s :=
  silent rfl

theorem raise {e : ε} : Paced view R (raise e : Prog σ ε α) s :=
  silent rfl

theorem raiseIf {c : Prop} [Decidable c] {e : ε} : Paced view R (raiseIf c e) s := by
  unfold Prog.raiseIf
  split
  case isTrue  => exact raise
  case isFalse => exact pure

-- Where a call ends in `c` and the rest of the program starts in `c`, the two make one chain.
private theorem append {l l' : List ν} {a c : ν} (h : (l ++ [c]).head? = some a ∧ (l ++ [c]).IsChain R)
    (h' : l'.head? = some c ∧ l'.IsChain R) :
    (l ++ l').head? = some a ∧ (l ++ l').IsChain R := by
  have ⟨l'', hl⟩ := List.head?_eq_some_iff.mp h'.left
  subst hl
  refine ⟨?head, List.isChain_split.mpr ⟨h.right, h'.right⟩⟩
  rw [← h.left]
  cases l <;> rfl

theorem seq {m : Prog σ ε α} {k : α → Prog σ ε β} (hm : Paced view R m s)
    (hk : ∀ a s', Returns m a s s' → Paced view R (k a) s') : Paced view R (m >>= k) s := by
  simp only [Paced, Result.ends, Bind.bind, Prog.bind, Returns] at hm hk ⊢
  generalize m s = r at hm hk ⊢
  rcases r with ⟨t, v, s'⟩
  cases v
  case error => exact hm
  case ok a  =>
    simp only [List.map_append, List.map_cons, List.map_nil, List.append_assoc] at hm hk ⊢
    exact append hm (hk a s' ⟨rfl, rfl⟩)

theorem attempt {m : Prog σ ε α} {h : ε → Prog σ ε α} (hm : Paced view R m s)
    (hh : ∀ e s', (m s).value = .error e → (m s).state = s' → Paced view R (h e) s') :
    Paced view R (attempt m h) s := by
  simp only [Paced, Result.ends, Prog.attempt] at hm hh ⊢
  generalize m s = r at hm hh ⊢
  rcases r with ⟨t, v, s'⟩
  cases v
  case ok      => exact hm
  case error e =>
    simp only [List.map_append, List.map_cons, List.map_nil, List.append_assoc] at hm hh ⊢
    exact append hm (hh e s' rfl rfl)

theorem void {m : Prog σ ε α} (h : Paced view R m s) : Paced view R (void m) s := by
  rw [Paced, ends_void]
  exact h

end Paced

-- States that look the same make a chain.
theorem isChain_map_of_forall {l : List σ} {c : ν} (hr : R c c) (h : ∀ s ∈ l, view s = c) :
    (l.map view).IsChain R := by
  have hl : l.map view = List.replicate (l.map view).length c :=
    List.eq_replicate_iff.mpr ⟨rfl, by simpa using h⟩
  rw [hl]
  exact List.isChain_replicate_of_rel _ hr

end Crash.Prog
