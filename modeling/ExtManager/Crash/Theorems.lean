import ExtManager.Crash.Basic

namespace Crash

namespace Prog

variable {σ ρ ε α β : Type} {s : σ} {Q : Except ε α → σ → Prop} {D : σ → Prop}

@[simp]
theorem wp_silent {f : σ → Except ε α × σ} : wp (silent f) Q D s ↔ Q (f s).1 (f s).2 := by
  simp [wp, silent]

@[simp]
theorem wp_act {f : σ → Except ε α × σ} : wp (act f) Q D s ↔ D s ∧ Q (f s).1 (f s).2 := by
  simp [wp, act]

@[simp]
theorem wp_pure {a : α} : wp (Pure.pure a : Prog σ ε α) Q D s ↔ Q (.ok a) s := by
  simp [Pure.pure, Prog.pure]

@[simp]
theorem wp_read {f : σ → α} : wp (read f : Prog σ ε α) Q D s ↔ Q (.ok (f s)) s := by
  simp [read]

@[simp]
theorem wp_modify {f : σ → σ} {Q : Except ε Unit → σ → Prop} :
    wp (modify f) Q D s ↔ Q (.ok ()) (f s) := by
  simp [modify]

@[simp]
theorem wp_lift {f : σ → Except ε α} : wp (lift f) Q D s ↔ Q (f s) s := by
  simp [lift]

@[simp]
theorem wp_raise {e : ε} : wp (raise e : Prog σ ε α) Q D s ↔ Q (.error e) s := by
  simp [raise]

@[simp]
theorem wp_bind {m : Prog σ ε α} {f : α → Prog σ ε β} {Q : Except ε β → σ → Prop} :
    wp (m >>= f) Q D s ↔
      wp m (fun v s' => match v with
        | .ok a    => wp (f a) Q D s'
        | .error e => Q (.error e) s') D s := by
  simp only [wp, Bind.bind, Prog.bind]
  rcases m s with ⟨t, v, s'⟩
  cases v <;> simp [or_imp, forall_and, and_assoc]

@[simp]
theorem wp_attempt {m : Prog σ ε α} {h : ε → Prog σ ε α} :
    wp (attempt m h) Q D s ↔
      wp m (fun v s' => match v with
        | .ok a    => Q (.ok a) s'
        | .error e => wp (h e) Q D s') D s := by
  simp only [wp, attempt]
  rcases m s with ⟨t, v, s'⟩
  cases v <;> simp [or_imp, forall_and, and_assoc]

theorem wp_void {m : Prog σ ε α} {Q : σ → Prop} (h : wp m (fun _ => Q) D s) :
    wp (void m) (fun _ => Q) D s := by
  refine wp_bind.mpr ⟨h.left, ?_⟩
  have h' := h.right
  cases (m s).value
  all_goals simpa using h'

theorem ends_void {m : Prog σ ε α} : (void m s).ends = (m s).ends := by
  simp only [Result.ends, void, Bind.bind, Prog.bind]
  rcases m s with ⟨t, v, s'⟩
  cases v <;> simp [Pure.pure, Prog.pure, silent]

@[simp]
theorem wp_zoom {get : σ → ρ} {set : ρ → σ → σ} {m : Prog ρ ε α} :
    wp (zoom get set m) Q D s ↔
      wp m (fun v r => Q v (set r s)) (fun r => D (set r s)) (get s) := by
  simp [wp, zoom]

@[simp]
theorem wp_ite {c : Prop} [Decidable c] {m₁ m₂ : Prog σ ε α} :
    wp (if c then m₁ else m₂) Q D s ↔ if c then wp m₁ Q D s else wp m₂ Q D s := by
  split <;> rfl

-- The rules below follow a program from its first statement on: what is left of it stays folded.

theorem wp_seq {m : Prog σ ε α} {f : α → Prog σ ε β} {R : Except ε α → σ → Prop}
    {Q : Except ε β → σ → Prop} (h : wp m R D s) (hok : ∀ a s', R (.ok a) s' → wp (f a) Q D s')
    (herr : ∀ e s', R (.error e) s' → Q (.error e) s') : wp (m >>= f) Q D s := by
  refine wp_bind.mpr ⟨h.left, ?_⟩
  have h' := h.right
  revert h'
  cases (m s).value
  case ok a    => exact hok a _
  case error e => exact herr e _

theorem wp_lift_seq {f : σ → Except ε α} {k : α → Prog σ ε β} {Q : Except ε β → σ → Prop}
    (hok : ∀ a, f s = .ok a → wp (k a) Q D s) (herr : ∀ e, f s = .error e → Q (.error e) s) :
    wp (lift f >>= k) Q D s := by
  simp only [wp_bind, wp_lift]
  cases h : f s
  case ok a    => exact hok a h
  case error e => exact herr e h

theorem wp_read_seq {f : σ → α} {k : α → Prog σ ε β} {Q : Except ε β → σ → Prop}
    (h : wp (k (f s)) Q D s) : wp (read f >>= k) Q D s := by
  simpa using h

theorem wp_raiseIf_seq {c : Prop} [Decidable c] {e : ε} {k : Unit → Prog σ ε β}
    {Q : Except ε β → σ → Prop} (hr : c → Q (.error e) s) (hk : ¬c → wp (k ()) Q D s) :
    wp (raiseIf c e >>= k) Q D s := by
  simp only [raiseIf, wp_bind, wp_ite, wp_raise, wp_pure]
  split
  case isTrue h  => exact hr h
  case isFalse h => exact hk h

theorem wp_when_seq {c : Prop} [Decidable c] {m : Prog σ ε Unit} {k : Unit → Prog σ ε β}
    {Q : Except ε β → σ → Prop} (ht : c → wp (m >>= k) Q D s) (hf : ¬c → wp (k ()) Q D s) :
    wp (when c m >>= k) Q D s := by
  by_cases h : c
  case pos => simpa [when, h] using ht h
  case neg => simpa [when, h] using hf h

theorem wp_mono {m : Prog σ ε α} {Q' : Except ε α → σ → Prop} {D' : σ → Prop}
    (h : wp m Q D s) (hq : ∀ v s', Q v s' → Q' v s') (hd : ∀ s', D s' → D' s') : wp m Q' D' s :=
  ⟨fun t ht => hd t (h.left t ht), hq _ _ h.right⟩

-- Where the condition on deaths is also what the call leaves behind, it holds of all its ends.
theorem wp_ends {m : Prog σ ε α} (h : wp m (fun _ => D) D s) : ∀ s' ∈ (m s).ends, D s' := by
  intro s' hs
  simp only [Result.ends, List.mem_append, List.mem_singleton] at hs
  cases hs
  case inl hs => exact h.left s' hs
  case inr hs => exact hs ▸ h.right

-- Started in `s`, a program stays where `D` holds, wherever it ends or dies, and a value that it
-- returns satisfies `P`.
def Keeps (D : σ → Prop) (P : α → σ → Prop) (m : Prog σ ε α) (s : σ) : Prop :=
  wp m (fun v s' => D s' ∧ ∀ a, v = .ok a → P a s') D s

namespace Keeps

variable {P : α → σ → Prop}

theorem pure {a : α} (h : D s) (hp : P a s) : Keeps D P (Pure.pure a : Prog σ ε α) s :=
  wp_pure.mpr ⟨h, fun _ ha => by injection ha with ha; exact ha ▸ hp⟩

theorem raise {e : ε} (h : D s) : Keeps D P (raise e : Prog σ ε α) s :=
  wp_raise.mpr ⟨h, fun _ ha => nomatch ha⟩

theorem lift {f : σ → Except ε β} {k : β → Prog σ ε α} (h : D s)
    (hk : ∀ b, f s = .ok b → Keeps D P (k b) s) : Keeps D P (lift f >>= k) s :=
  wp_lift_seq hk fun _ _ => ⟨h, fun _ ha => nomatch ha⟩

theorem read {f : σ → β} {k : β → Prog σ ε α} (hk : Keeps D P (k (f s)) s) :
    Keeps D P (read f >>= k) s :=
  wp_read_seq hk

theorem raiseIf {c : Prop} [Decidable c] {e : ε} {k : Unit → Prog σ ε α} (h : D s)
    (hk : ¬c → Keeps D P (k ()) s) : Keeps D P (raiseIf c e >>= k) s :=
  wp_raiseIf_seq (fun _ => ⟨h, fun _ ha => nomatch ha⟩) hk

theorem when {c : Prop} [Decidable c] {m : Prog σ ε Unit} {k : Unit → Prog σ ε α}
    (ht : c → Keeps D P (m >>= k) s) (hf : ¬c → Keeps D P (k ()) s) :
    Keeps D P (when c m >>= k) s :=
  wp_when_seq ht hf

theorem seq {R : β → σ → Prop} {m : Prog σ ε β} {k : β → Prog σ ε α} (hm : Keeps D R m s)
    (hk : ∀ b s', D s' → R b s' → Keeps D P (k b) s') : Keeps D P (m >>= k) s :=
  wp_seq hm (fun b s' h => hk b s' h.left (h.right b rfl))
    fun _ _ h => ⟨h.left, fun _ ha => nomatch ha⟩

theorem ite {c : Prop} [Decidable c] {m₁ m₂ : Prog σ ε α} (ht : c → Keeps D P m₁ s)
    (hf : ¬c → Keeps D P m₂ s) : Keeps D P (if c then m₁ else m₂) s := by
  split
  case isTrue h  => exact ht h
  case isFalse h => exact hf h

theorem mono {P' : α → σ → Prop} {m : Prog σ ε α} (h : Keeps D P m s)
    (hp : ∀ a s', P a s' → P' a s') : Keeps D P' m s :=
  wp_mono h (fun _ s' h => ⟨h.left, fun a ha => hp a s' (h.right a ha)⟩) fun _ h => h

theorem void {m : Prog σ ε α} (h : Keeps D P m s) : Keeps D (fun _ _ => True) (void m) s :=
  h.seq fun _ _ h _ => .pure h trivial

theorem ends {m : Prog σ ε α} (h : Keeps D P m s) : ∀ s' ∈ (m s).ends, D s' :=
  wp_ends (wp_mono h (fun _ _ h => h.left) fun _ h => h)

end Keeps

section Returns

variable {s' : σ} {a : α}

@[simp]
theorem returns_act {f : σ → Except ε α × σ} : Returns (act f) a s s' ↔ f s = (.ok a, s') := by
  simp [Returns, act, Prod.ext_iff]

@[simp]
theorem returns_silent {f : σ → Except ε α × σ} :
    Returns (silent f) a s s' ↔ f s = (.ok a, s') := by
  simp [Returns, silent, Prod.ext_iff]

@[simp]
theorem returns_pure {b : α} : Returns (Pure.pure b : Prog σ ε α) a s s' ↔ b = a ∧ s = s' := by
  simp [Pure.pure, Prog.pure]

@[simp]
theorem returns_read {f : σ → α} : Returns (read f : Prog σ ε α) a s s' ↔ f s = a ∧ s = s' := by
  simp [read]

@[simp]
theorem returns_modify {f : σ → σ} {u : Unit} :
    Returns (modify f : Prog σ ε Unit) u s s' ↔ f s = s' := by
  simp [modify]

@[simp]
theorem returns_lift {f : σ → Except ε α} : Returns (lift f) a s s' ↔ f s = .ok a ∧ s = s' := by
  simp [lift]

@[simp]
theorem returns_raise {e : ε} : ¬Returns (raise e : Prog σ ε α) a s s' := by
  simp [raise]

@[simp]
theorem returns_raiseIf {c : Prop} [Decidable c] {e : ε} {u : Unit} :
    Returns (raiseIf c e) u s s' ↔ ¬c ∧ s = s' := by
  by_cases h : c <;> simp [raiseIf, h]

@[simp]
theorem returns_bind {m : Prog σ ε α} {f : α → Prog σ ε β} {b : β} :
    Returns (m >>= f) b s s' ↔ ∃ a s₁, Returns m a s s₁ ∧ Returns (f a) b s₁ s' := by
  simp only [Returns, Bind.bind, Prog.bind]
  rcases m s with ⟨t, v, s₁⟩
  cases v <;> simp

@[simp]
theorem returns_void {m : Prog σ ε α} {u : Unit} :
    Returns (void m) u s s' ↔ ∃ a, Returns m a s s' := by
  simp [void]

theorem returns_attempt {m : Prog σ ε α} {h : ε → Prog σ ε α} :
    Returns (attempt m h) a s s' ↔
      Returns m a s s' ∨ ∃ e, (m s).value = .error e ∧ Returns (h e) a (m s).state s' := by
  simp only [Returns, attempt]
  rcases m s with ⟨t, v, s₁⟩
  cases v <;> simp

theorem Returns.of_wp {m : Prog σ ε α} (h : Returns m a s s') (hw : wp m Q D s) : Q (.ok a) s' :=
  h.left ▸ h.right ▸ hw.right

theorem Returns.mem_ends {m : Prog σ ε α} (h : Returns m a s s') : s' ∈ (m s).ends :=
  List.mem_append_right _ (List.mem_singleton.mpr h.right.symm)

end Returns

end Prog

namespace Reachable

variable {σ : Type} {init : σ → Prop} {step : σ → σ → Prop} {s : σ}

theorem invariant {I : σ → Prop} (h : Reachable init step s) (hi : ∀ s, init s → I s)
    (hs : ∀ s s', Reachable init step s → I s → step s s' → I s') : I s := by
  induction h
  case init h       => exact hi _ h
  case step h₁ h ih => exact hs _ _ h₁ ih h

theorem mono {init' : σ → Prop} {step' : σ → σ → Prop} (h : Reachable init step s)
    (hi : ∀ s, init s → init' s) (hs : ∀ s s', step s s' → step' s s') :
    Reachable init' step' s := by
  induction h
  case init h      => exact .init (hi _ h)
  case step h₁ ih  => exact .step ih (hs _ _ h₁)

theorem trans {s' : σ} (h : Reachable init step s) (hr : Relation.ReflTransGen step s s') :
    Reachable init step s' := by
  induction hr
  case refl       => exact h
  case tail hs ih => exact .step ih hs

end Reachable

end Crash
