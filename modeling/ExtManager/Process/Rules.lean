import ExtManager.Process.Basic

namespace Process

variable {C : Type} {A : C → Type} {ε τ σ ρ α β : Type}

namespace Discipline

variable {d : Discipline σ} {l : Option Mode} {s s' s₁ s₂ s₃ : σ}

theorem rely_refl (d : Discipline σ) (l : Option Mode) (s : σ) : d.rely l s s := by
  match l with
  | none            => exact d.any_refl s
  | some .shared    => exact d.shared_refl s
  | some .exclusive => rfl

theorem rely_trans (h : d.rely l s₁ s₂) (h' : d.rely l s₂ s₃) : d.rely l s₁ s₃ := by
  match l with
  | none            => exact d.any_trans h h'
  | some .shared    => exact d.shared_trans h h'
  | some .exclusive => exact Eq.trans h h'

theorem any_of_guar (h : d.guar l s s') : d.any s s' := by
  match l with
  | none            => exact h ▸ d.any_refl s
  | some .shared    => exact d.any_of_shared <| d.shared_of_step h
  | some .exclusive => exact d.any_of_step h

theorem any_of_rely (h : d.rely l s s') : d.any s s' := by
  match l with
  | none            => exact h
  | some .shared    => exact d.any_of_shared h
  | some .exclusive => exact h ▸ d.any_refl s

-- A call of one process is within what another has to expect, unless one of the two holds the
-- lock alone.
theorem rely_of_guar {l' : Option Mode} (h : d.guar l s s') (he : l = some .exclusive → l' = none)
    (he' : l' = some .exclusive → l = none) : d.rely l' s s' := by
  match l, l' with
  | none,            l'               => exact h ▸ d.rely_refl l' s
  | some _,          none             => exact any_of_guar h
  | some .shared,    some .shared     => exact d.shared_of_step h
  | some .exclusive, some _           => exact nomatch he rfl
  | some .shared,    some .exclusive  => exact nomatch he' rfl

end Discipline

section Safe

variable {sys : (c : C) → σ → A c → σ → Prop} {d : Discipline σ} {l : Option Mode} {s : σ}
variable {Q Q' : Except ε α → Option Mode → σ → Prop} {m : Prog C A ε α}

theorem Safe.mono (h : Safe sys d Q l m s) (hq : ∀ v l s, Q v l s → Q' v l s) :
    Safe sys d Q' l m s := by
  induction m generalizing l s with
  | ret v          => exact hq _ _ _ h
  | call c k ih    => exact fun a s' hs => ⟨(h a s' hs).left, fun s'' hr => ih a ((h a s' hs).right s'' hr)⟩
  | acquire m k ih => exact ⟨fun hl s' hr => ih true (h.left hl s' hr), fun s' hr => ih false (h.right s' hr)⟩
  | release k ih   => exact fun s' hr => ih (h s' hr)

theorem safe_andThen {f : Except ε α → Prog C A ε β} {Q : Except ε β → Option Mode → σ → Prop} :
    Safe sys d Q l (m.andThen f) s ↔ Safe sys d (fun v l' s' => Safe sys d Q l' (f v) s') l m s := by
  induction m generalizing l s with
  | ret v          => rfl
  | call c k ih    => simp only [Prog.andThen, Safe, ih]
  | acquire m k ih => simp only [Prog.andThen, Safe, ih]
  | release k ih   => simp only [Prog.andThen, Safe, ih]

-- What every call and every move of the others keeps is there at the end.
theorem Safe.keep {I : σ → Prop} (h : Safe sys d Q l m s) (hI : ∀ s s', d.any s s' → I s → I s')
    (hs : I s) : Safe sys d (fun v l s => Q v l s ∧ I s) l m s := by
  induction m generalizing l s with
  | ret v          => exact ⟨h, hs⟩
  | call c k ih    =>
    intro a s' hc
    have ⟨hg, hk⟩ := h a s' hc
    exact ⟨hg, fun s'' hr => ih a (hk s'' hr) (hI _ _ (d.any_trans (d.any_of_guar hg) (d.any_of_rely hr)) hs)⟩
  | acquire m k ih =>
    exact ⟨fun hl s' hr => ih true (h.left hl s' hr) (hI _ _ (d.any_of_rely hr) hs),
      fun s' hr => ih false (h.right s' hr) (hI _ _ (d.any_of_rely hr) hs)⟩
  | release k ih   => exact fun s' hr => ih (h s' hr) (hI _ _ hr hs)

-- A program that makes only calls without effect leaves the state to the others.
theorem Safe.of_only {p : C → Prop} (hm : m.Only p)
    (hp : ∀ c, p c → ∀ s a s', sys c s a s' → s' = s) (hg : ∀ s, d.guar l s s)
    (hq : ∀ v s', d.rely l s s' → Q v l s') : Safe sys d Q l m s := by
  induction m generalizing s with
  | ret v          => exact hq v s (d.rely_refl l s)
  | call c k ih    =>
    intro a s' hs
    cases hp c hm.left s a s' hs
    exact ⟨hg s, fun s'' hr => ih a (hm.right a) fun v s' hr' => hq v s' (d.rely_trans hr hr')⟩
  | acquire m k ih => exact hm.elim
  | release k ih   => exact hm.elim

end Safe

namespace Prog.Only

variable {p p' : C → Prop}

theorem andThen {m : Prog C A ε α} {f : Except ε α → Prog C A ε β} (h : m.Only p)
    (hf : ∀ v, (f v).Only p) : (m.andThen f).Only p := by
  induction m with
  | ret v          => exact hf v
  | call c k ih    => exact ⟨h.left, fun a => ih a (h.right a)⟩
  | acquire m k ih => exact h.elim
  | release k ih   => exact h.elim

theorem bind {m : Prog C A ε α} {f : α → Prog C A ε β} (h : m.Only p) (hf : ∀ a, (f a).Only p) :
    (m >>= f).Only p := by
  refine h.andThen fun v => ?_
  cases v
  case ok a    => exact hf a
  case error e => trivial

theorem attempt {m : Prog C A ε α} {k : ε → Prog C A ε α} (h : m.Only p)
    (hk : ∀ e, (k e).Only p) : (m.attempt k).Only p := by
  refine h.andThen fun v => ?_
  cases v
  case ok a    => trivial
  case error e => exact hk e

theorem ensure {m : Prog C A ε α} {f : Prog C A ε Unit} (h : m.Only p) (hf : f.Only p) :
    (m.ensure f).Only p :=
  h.andThen fun _ => hf.andThen fun u => by cases u <;> trivial

theorem raiseIf {c : Prop} [Decidable c] {e : ε} : (raiseIf c e : Prog C A ε Unit).Only p := by
  unfold Prog.raiseIf
  split <;> trivial

theorem when {c : Prop} [Decidable c] {m : Prog C A ε Unit} (h : m.Only p) : (when c m).Only p := by
  unfold Prog.when
  split
  case isTrue  => exact h
  case isFalse => trivial

end Prog.Only

-- Run under the lock from `s` on, the program keeps to what a sole holder may do, keeps the lock,
-- and ends as `Q` says.
def Held (sys : (c : C) → σ → A c → σ → Prop) (d : Discipline σ) (Q : Except ε α → σ → Prop)
    (m : Prog C A ε α) (s : σ) : Prop :=
  Safe sys d (fun v l s' => l = some .exclusive ∧ Q v s') (some .exclusive) m s

namespace Held

variable {sys : (c : C) → σ → A c → σ → Prop} {d : Discipline σ} {s : σ}
variable {Q Q' : Except ε α → σ → Prop} {m : Prog C A ε α}

theorem ret {v : Except ε α} (h : Q v s) : Held sys d Q (.ret v) s :=
  ⟨rfl, h⟩

theorem pure {a : α} (h : Q (.ok a) s) : Held sys d Q (Pure.pure a) s :=
  ⟨rfl, h⟩

theorem raise {e : ε} (h : Q (.error e) s) : Held sys d Q (Prog.raise e) s :=
  ⟨rfl, h⟩

theorem lift {v : Except ε α} (h : Q v s) : Held sys d Q (Prog.lift v) s :=
  ⟨rfl, h⟩

theorem call {c : C} {k : A c → Prog C A ε α}
    (h : ∀ a s', sys c s a s' → d.step .exclusive s s' ∧ Held sys d Q (k a) s') :
    Held sys d Q (.call c k) s := by
  intro a s' hs
  refine ⟨(h a s' hs).left, fun s'' hr => ?_⟩
  cases hr
  exact (h a s' hs).right

theorem mono (h : Held sys d Q m s) (hq : ∀ v s, Q v s → Q' v s) : Held sys d Q' m s :=
  Safe.mono h fun _ _ _ h => ⟨h.left, hq _ _ h.right⟩

theorem andThen {R : Except ε α → σ → Prop} {f : Except ε α → Prog C A ε β}
    {Q : Except ε β → σ → Prop} (h : Held sys d R m s) (hf : ∀ v s', R v s' → Held sys d Q (f v) s') :
    Held sys d Q (m.andThen f) s := by
  refine safe_andThen.mpr <| Safe.mono h fun v l s' h => ?_
  cases h.left
  exact hf v s' h.right

theorem bind {R : Except ε α → σ → Prop} {f : α → Prog C A ε β} {Q : Except ε β → σ → Prop}
    (h : Held sys d R m s) (hok : ∀ a s', R (.ok a) s' → Held sys d Q (f a) s')
    (herr : ∀ e s', R (.error e) s' → Q (.error e) s') : Held sys d Q (m >>= f) s := by
  refine h.andThen fun v s' hr => ?_
  cases v
  case ok a    => exact hok a s' hr
  case error e => exact .ret (herr e s' hr)

theorem attempt {R : Except ε α → σ → Prop} {k : ε → Prog C A ε α} (h : Held sys d R m s)
    (hok : ∀ a s', R (.ok a) s' → Q (.ok a) s')
    (herr : ∀ e s', R (.error e) s' → Held sys d Q (k e) s') : Held sys d Q (m.attempt k) s := by
  refine h.andThen fun v s' hr => ?_
  cases v
  case ok a    => exact .ret (hok a s' hr)
  case error e => exact herr e s' hr

theorem ensure {R : Except ε α → σ → Prop} {f : Prog C A ε Unit} (h : Held sys d R m s)
    (hf : ∀ v s', R v s' →
      Held sys d (fun u s'' => match u with | .ok _ => Q v s'' | .error e => Q (.error e) s'') f s') :
    Held sys d Q (m.ensure f) s := by
  refine h.andThen fun v s' hr => (hf v s' hr).andThen fun u s'' hu => ?_
  cases u
  case ok    => exact .ret hu
  case error => exact .ret hu

theorem capture {Q : Except ε (Except ε α) → σ → Prop}
    (h : Held sys d (fun v s' => Q (.ok v) s') m s) : Held sys d Q m.capture s :=
  h.andThen fun _ _ hq => .ret hq

theorem raiseIf {c : Prop} [Decidable c] {e : ε} {Q : Except ε Unit → σ → Prop}
    (ht : c → Q (.error e) s) (hf : ¬c → Q (.ok ()) s) : Held sys d Q (Prog.raiseIf c e) s := by
  unfold Prog.raiseIf
  split
  case isTrue h  => exact .raise (ht h)
  case isFalse h => exact .pure (hf h)

theorem when {c : Prop} [Decidable c] {m : Prog C A ε Unit} {Q : Except ε Unit → σ → Prop}
    (ht : c → Held sys d Q m s) (hf : ¬c → Q (.ok ()) s) : Held sys d Q (Prog.when c m) s := by
  unfold Prog.when
  split
  case isTrue h  => exact ht h
  case isFalse h => exact .pure (hf h)

theorem of_only {p : C → Prop} (hm : m.Only p)
    (hp : ∀ c, p c → ∀ s a s', sys c s a s' → s' = s) (hg : ∀ s, d.step .exclusive s s)
    (hq : ∀ v, Q v s) : Held sys d Q m s :=
  Safe.of_only hm hp hg fun v _ h => ⟨rfl, h ▸ hq v⟩

end Held

-- Run under the lock from `s` on, the program ends with a value as `P` says, or with an exception
-- where `E` holds.
def Yields (sys : (c : C) → σ → A c → σ → Prop) (d : Discipline σ) (P : α → σ → Prop)
    (E : σ → Prop) (m : Prog C A ε α) (s : σ) : Prop :=
  Held sys d (fun v s' => match v with | .ok a => P a s' | .error _ => E s') m s

namespace Yields

variable {sys : (c : C) → σ → A c → σ → Prop} {d : Discipline σ} {s : σ}
variable {P P' : α → σ → Prop} {E F : σ → Prop} {m : Prog C A ε α}

theorem keep {I : σ → Prop} (h : Yields sys d P E m s) (hI : ∀ s s', d.any s s' → I s → I s')
    (hs : I s) : Yields sys d (fun a s' => P a s' ∧ I s') (fun s' => E s' ∧ I s') m s := by
  refine Safe.mono (Safe.keep h hI hs) fun v l s' ⟨⟨hl, hv⟩, hi⟩ => ⟨hl, ?_⟩
  cases v
  case ok a    => exact ⟨hv, hi⟩
  case error e => exact ⟨hv, hi⟩

theorem any (h : Yields sys d P E m s) :
    Yields sys d (fun a s' => P a s' ∧ d.any s s') (fun s' => E s' ∧ d.any s s') m s :=
  h.keep (I := d.any s) (fun _ _ h hs => d.any_trans hs h) (d.any_refl s)

theorem pure {a : α} (h : P a s) : Yields sys d P E (Pure.pure a : Prog C A ε α) s :=
  Held.pure h

theorem raise {e : ε} (h : E s) : Yields sys d P E (Prog.raise e : Prog C A ε α) s :=
  Held.raise h

theorem lift {v : Except ε α} (hok : ∀ a, v = .ok a → P a s) (herr : ∀ e, v = .error e → E s) :
    Yields sys d P E (Prog.lift v : Prog C A ε α) s := by
  refine Held.lift ?_
  cases v
  case ok a    => exact hok a rfl
  case error e => exact herr e rfl

theorem mono (h : Yields sys d P E m s) (hp : ∀ a s, P a s → P' a s) (he : ∀ s, E s → F s) :
    Yields sys d P' F m s := by
  refine Held.mono h fun v s hv => ?_
  cases v
  case ok a    => exact hp a s hv
  case error e => exact he s hv

theorem bind {R : α → σ → Prop} {P : β → σ → Prop} {k : α → Prog C A ε β}
    (h : Yields sys d R E m s) (hk : ∀ a s', R a s' → Yields sys d P E (k a) s') :
    Yields sys d P E (m >>= k) s :=
  Held.bind h hk fun _ _ he => he

theorem attempt {k : ε → Prog C A ε α} (h : Yields sys d P F m s)
    (hk : ∀ e s', F s' → Yields sys d P E (k e) s') : Yields sys d P E (m.attempt k) s :=
  Held.attempt h (fun _ _ hp => hp) hk

theorem ensure {R : α → σ → Prop} {f : Prog C A ε Unit} (h : Yields sys d R F m s)
    (hok : ∀ a s', R a s' → Yields sys d (fun _ => P a) E f s')
    (herr : ∀ s', F s' → Yields sys d (fun _ => E) E f s') : Yields sys d P E (m.ensure f) s := by
  refine Held.ensure h fun v s' hv => ?_
  cases v
  case ok a    => exact Held.mono (hok a s' hv) fun u _ hu => by cases u <;> exact hu
  case error e => exact Held.mono (herr s' hv) fun u _ hu => by cases u <;> exact hu

theorem capture {P : Except ε α → σ → Prop} (h : Yields sys d (fun a => P (.ok a)) F m s)
    (he : ∀ e s', F s' → P (.error e) s') : Yields sys d P E m.capture s := by
  refine Held.capture <| Held.mono h fun v s' hv => ?_
  cases v
  case ok a    => exact hv
  case error e => exact he e s' hv

theorem raiseIf {c : Prop} [Decidable c] {e : ε} {P : Unit → σ → Prop} (ht : c → E s)
    (hf : ¬c → P () s) : Yields sys d P E (Prog.raiseIf c e : Prog C A ε Unit) s :=
  Held.raiseIf ht hf

theorem when {c : Prop} [Decidable c] {m : Prog C A ε Unit} {P : Unit → σ → Prop}
    (ht : c → Yields sys d P E m s) (hf : ¬c → P () s) : Yields sys d P E (Prog.when c m) s :=
  Held.when ht hf

theorem raiseIf_seq {c : Prop} [Decidable c] {e : ε} {k : Unit → Prog C A ε α} (ht : c → E s)
    (hf : ¬c → Yields sys d P E (k ()) s) : Yields sys d P E (Prog.raiseIf c e >>= k) s := by
  refine .bind (R := fun _ s' => s' = s ∧ ¬c) (.raiseIf ht fun hc => ⟨rfl, hc⟩) fun _ s' h => ?_
  cases h.left
  exact hf h.right

theorem lift_seq {v : Except ε β} {k : β → Prog C A ε α} (herr : ∀ e, v = .error e → E s)
    (hok : ∀ b, v = .ok b → Yields sys d P E (k b) s) :
    Yields sys d P E (Prog.lift v >>= k) s := by
  refine .bind (R := fun b s' => s' = s ∧ v = .ok b) (.lift (fun b hb => ⟨rfl, hb⟩) herr) fun b s' h => ?_
  cases h.left
  exact hok b h.right

theorem ite {c : Prop} [Decidable c] {m' : Prog C A ε α} (ht : c → Yields sys d P E m s)
    (hf : ¬c → Yields sys d P E m' s) : Yields sys d P E (if c then m else m') s := by
  split
  case isTrue h  => exact ht h
  case isFalse h => exact hf h

theorem of_only {p : C → Prop} (hm : m.Only p)
    (hp : ∀ c, p c → ∀ s a s', sys c s a s' → s' = s) (hg : ∀ s, d.step .exclusive s s)
    (hok : ∀ a, P a s) (herr : E s) : Yields sys d P E m s := by
  refine Held.of_only hm hp hg fun v => ?_
  cases v
  case ok a    => exact hok a
  case error e => exact herr

end Yields

section Reachable

variable {sys : (c : C) → σ → A c → σ → Prop} {d : Discipline σ}
variable {program : τ → Prog C A ε Unit} {allowed : τ → Prop} {init I : σ → Prop}
variable {Q : τ → Except ε Unit → Option Mode → σ → Prop} {w w' : World C A ε τ σ}

-- What holds of every reachable world: who holds the lock alone is the only one to hold it, and
-- every process can be run to its end, whatever the others do.
structure Sound (sys : (c : C) → σ → A c → σ → Prop) (d : Discipline σ) (I : σ → Prop)
    (Q : τ → Except ε Unit → Option Mode → σ → Prop) (w : World C A ε τ σ) : Prop where
  inv : I w.state
  sole : ∀ q q' p p', w.proc q = some p → w.proc q' = some p' → q ≠ q' →
    p.lock = some .exclusive → p'.lock = none
  safe : ∀ q p, w.proc q = some p → ∀ s, d.rely p.lock w.state s →
    Safe sys d (Q p.task) p.lock p.prog s

theorem put_eq {q q' : Nat} {x : Option (Proc C A ε τ)} {p : Proc C A ε τ}
    (h : (w.put q x).proc q' = some p) : (q' = q ∧ x = some p) ∨ (q' ≠ q ∧ w.proc q' = some p) := by
  by_cases hq : q' = q
  case pos => exact .inl ⟨hq, by simpa [World.put, hq] using h⟩
  case neg => exact .inr ⟨hq, by simpa [World.put, hq] using h⟩

-- One process moves on: the state changes, and it gets a new hold on the lock and a new program.
theorem Sound.update {q : Nat} {p : Proc C A ε τ} {s : σ} (h : Sound sys d I Q w) (hi : I s)
    (hl : ∀ q' p', q' ≠ q → w.proc q' = some p' →
      (p.lock = some .exclusive → p'.lock = none) ∧ (p'.lock = some .exclusive → p.lock = none))
    (ho : ∀ q' p', q' ≠ q → w.proc q' = some p' → d.rely p'.lock w.state s)
    (hp : ∀ s', d.rely p.lock s s' → Safe sys d (Q p.task) p.lock p.prog s') :
    Sound sys d I Q ({ w with state := s }.put q (some p)) where
  inv := hi
  sole := by
    intro q₁ q₂ p₁ p₂ h₁ h₂ hne he
    rcases put_eq h₁ with ⟨rfl, hx⟩ | ⟨hq₁, hp₁⟩
    · cases hx
      rcases put_eq h₂ with ⟨rfl, -⟩ | ⟨hq₂, hp₂⟩
      · exact absurd rfl hne
      · exact (hl q₂ p₂ hq₂ hp₂).left he
    · rcases put_eq h₂ with ⟨rfl, hx⟩ | ⟨hq₂, hp₂⟩
      · cases hx
        exact (hl q₁ p₁ hq₁ hp₁).right he
      · exact h.sole q₁ q₂ p₁ p₂ hp₁ hp₂ hne he
  safe := by
    intro q' p' h' s' hs
    rcases put_eq h' with ⟨rfl, hx⟩ | ⟨hq', hp'⟩
    · cases hx
      exact hp s' hs
    · exact h.safe q' p' hp' s' <| d.rely_trans (ho q' p' hq' hp') hs

theorem Sound.others {q : Nat} {p : Proc C A ε τ} (h : Sound sys d I Q w) (hp : w.proc q = some p)
    (q' : Nat) (p' : Proc C A ε τ) (hq : q' ≠ q) (hp' : w.proc q' = some p') :
    (p.lock = some .exclusive → p'.lock = none) ∧ (p'.lock = some .exclusive → p.lock = none) :=
  ⟨h.sole q q' p p' hp hp' hq.symm, h.sole q' q p' p hp' hp hq⟩

theorem Sound.step (hI : ∀ s s', d.any s s' → I s → I s')
    (hp : ∀ t, allowed t → ∀ s, I s → Safe sys d (Q t) none (program t) s)
    (h : Sound sys d I Q w) (st : Step sys program allowed w w') : Sound sys d I Q w' := by
  have stay (p : Proc C A ε τ) : d.rely p.lock w.state w.state := d.rely_refl p.lock w.state
  cases st
  case start q t _ ha =>
    exact h.update h.inv (fun _ _ _ _ => ⟨nofun, fun _ => rfl⟩) (fun _ p' _ _ => stay p')
      fun s hs => hp t ha s (hI _ _ hs h.inv)
  case call q t l c k a s hq hs =>
    have ⟨hg, hc⟩ := h.safe q _ hq w.state (stay ⟨t, l, .call c k⟩) a s hs
    refine h.update (hI _ _ (d.any_of_guar hg) h.inv) (fun q' p' hne hp' => ?_)
      (fun q' p' hne hp' => ?_) hc
    · exact h.others hq q' p' hne hp'
    · have ho := h.others hq q' p' hne hp'
      exact d.rely_of_guar hg ho.left ho.right
  case acquired q t m k hq hg =>
    have hc := h.safe q _ hq w.state (stay ⟨t, none, .acquire m k⟩)
    refine h.update h.inv (fun q' p' _ hp' => ⟨fun he => ?_, fun he => ?_⟩)
      (fun _ p' _ _ => stay p') (hc.left rfl)
    · cases he
      exact hg q' p' hp'
    · cases m
      case shared    => exact absurd he (hg q' p' hp')
      case exclusive => exact nomatch (hg q' p' hp').symm.trans he
  case refused q t l m k hq =>
    exact h.update h.inv (fun q' p' hne hp' => h.others hq q' p' hne hp')
      (fun _ p' _ _ => stay p') (h.safe q _ hq w.state (stay ⟨t, l, .acquire m k⟩)).right
  case released q t l k hq =>
    exact h.update h.inv (fun _ _ _ _ => ⟨nofun, fun _ => rfl⟩) (fun _ p' _ _ => stay p')
      (h.safe q _ hq w.state (stay ⟨t, l, .release k⟩))
  case killed q =>
    have old {q' p'} (h' : (w.put q none).proc q' = some p') : w.proc q' = some p' :=
      (put_eq h').elim (fun ⟨_, hx⟩ => nomatch hx) And.right
    exact {
      inv  := h.inv
      sole := fun q₁ q₂ p₁ p₂ h₁ h₂ => h.sole q₁ q₂ p₁ p₂ (old h₁) (old h₂)
      safe := fun q' p' h' => h.safe q' p' (old h')
    }

theorem Sound.reachable (hI : ∀ s s', d.any s s' → I s → I s') (hi : ∀ s, init s → I s)
    (hp : ∀ t, allowed t → ∀ s, I s → Safe sys d (Q t) none (program t) s)
    (h : Reachable sys program allowed init w) : Sound sys d I Q w := by
  induction h with
  | init hs      => exact ⟨hi _ hs, nofun, nofun⟩
  | step _ st ih => exact ih.step hI hp st

-- The state changes only within what the process that makes the call has promised.
theorem Sound.guar (h : Sound sys d I Q w) (st : Step sys program allowed w w') :
    w'.state = w.state ∨ ∃ q p, w.proc q = some p ∧ d.guar p.lock w.state w'.state := by
  cases st
  case call q t l c k a s hq hs =>
    exact .inr ⟨q, _, hq, (h.safe q _ hq w.state (d.rely_refl _ _) a s hs).left⟩
  all_goals exact .inl rfl

end Reachable

section Map

variable {sys : (c : C) → σ → A c → σ → Prop} {sys' : (c : C) → ρ → A c → ρ → Prop} {π : σ → ρ}
variable {program : τ → Prog C A ε Unit} {allowed : τ → Prop} {init : σ → Prop} {J : ρ → Prop}
variable {w w' : World C A ε τ σ}

-- A coarser view of the state: what each call does to it is all that has to be compared.
theorem Step.map (hs : ∀ c s a s', sys c s a s' → sys' c (π s) a (π s'))
    (st : Step sys program allowed w w') : Step sys' program allowed (w.map π) (w'.map π) := by
  cases st
  case start t hq ha  => exact .start t hq ha
  case call hq h      => exact .call hq (hs _ _ _ _ h)
  case acquired hq hg => exact .acquired hq (by cases ‹Mode› <;> exact hg)
  case refused hq     => exact .refused hq
  case released hq    => exact .released hq
  case killed q       => exact .killed q

theorem Reachable.map (hs : ∀ c s a s', sys c s a s' → sys' c (π s) a (π s'))
    (hi : ∀ s, init s → J (π s)) (h : Reachable sys program allowed init w) :
    Reachable sys' program allowed J (w.map π) := by
  induction h with
  | init h       => exact .init (hi _ h)
  | step _ st ih => exact .step ih (st.map hs)

end Map

section Exec

variable {sys : (c : C) → σ → A c → σ → Prop} {act : (c : C) → Bool → σ → A c × σ}
variable {program : τ → Prog C A ε Unit} {allowed : τ → Prop} {init : σ → Prop}

-- The world with one process in it.
def World.alone (s : σ) (p : Option (Proc C A ε τ)) : World C A ε τ σ :=
  { state := s, proc := fun q => if q = 0 then p else none }

theorem World.put_alone {s s' : σ} {p p' : Option (Proc C A ε τ)} :
    { World.alone s p with state := s' }.put 0 p' = World.alone s' p' := by
  refine congrArg (World.mk s') <| funext fun q => ?_
  by_cases hq : q = 0
  case pos => simp [hq]
  case neg => simp [World.alone, hq]

-- The process of a world moves on.
theorem Reachable.alone {s s' : σ} {p p' : Option (Proc C A ε τ)}
    (h : Reachable sys program allowed init (.alone s p))
    (st : Step sys program allowed (.alone s p) ({ World.alone s p with state := s' }.put 0 p')) :
    Reachable sys program allowed init (.alone s' p') :=
  World.put_alone (s := s) ▸ h.step st

theorem Reachable.stays {s : σ} {p p' : Option (Proc C A ε τ)}
    (h : Reachable sys program allowed init (.alone s p))
    (st : Step sys program allowed (.alone s p) ((World.alone s p).put 0 p')) :
    Reachable sys program allowed init (.alone s p') :=
  h.alone st

theorem World.alone_none {s : σ} :
    World.alone s (none : Option (Proc C A ε τ)) = ⟨s, fun _ => none⟩ := by
  refine congrArg (World.mk s) <| funext fun q => ?_
  split <;> rfl

theorem Reachable.exec (ha : ∀ c b s, sys c s (act c b s).1 (act c b s).2) {t : τ} {bs : List Bool}
    {l : Option Mode} {m : Prog C A ε Unit} {s : σ}
    (h : Reachable sys program allowed init (.alone s (some ⟨t, l, m⟩))) :
    ∃ l' m', Reachable sys program allowed init
      (.alone (Process.exec act bs l m s).2.2 (some ⟨t, l', m'⟩)) := by
  induction m generalizing bs l s with
  | ret v => exact ⟨l, _, by cases bs <;> exact h⟩
  | call c k ih =>
    match bs with
    | []      => exact ⟨l, _, h⟩
    | b :: bs => exact ih _ <| h.alone <| .call rfl <| ha c b s
  | acquire m k ih =>
    have alone {q : Nat} {p : Proc C A ε τ}
        (hp : (World.alone s (some ⟨t, none, .acquire m k⟩)).proc q = some p) : p.lock = none := by
      simp only [World.alone] at hp
      split at hp
      case isTrue  => cases hp; rfl
      case isFalse => exact nomatch hp
    match bs, l with
    | [],     l      => exact ⟨l, _, h⟩
    | _ :: _, none   =>
      refine ih _ <| h.stays <| .acquired rfl ?_
      cases m
      case shared    => exact fun q p hp he => nomatch (alone hp).symm.trans he
      case exclusive => exact fun q p hp => alone hp
    | _ :: _, some l => exact ih _ <| h.stays <| .refused rfl
  | release k ih =>
    have h := @ih bs _ _ <| h.stays <| .released rfl
    cases bs <;> exact h

theorem Reachable.runs (ha : ∀ c b s, sys c s (act c b s).1 (act c b s).2) {s : σ}
    {ts : List (τ × List Bool)} (ht : ∀ t ∈ ts, allowed t.1)
    (h : Reachable sys program allowed init ⟨s, fun _ => none⟩) :
    Reachable sys program allowed init ⟨Process.runs act program ts s, fun _ => none⟩ := by
  induction ts generalizing s with
  | nil          => exact h
  | cons t ts ih =>
    refine ih (fun t' hm => ht t' <| List.mem_cons_of_mem _ hm) ?_
    rw [← World.alone_none] at h
    have hs : Reachable sys program allowed init (.alone s (some ⟨t.1, none, program t.1⟩)) :=
      h.stays <| .start t.1 rfl <| ht t <| List.mem_cons_self ..
    have ⟨l', m', he⟩ := @Reachable.exec _ _ _ _ _ _ act _ _ _ ha _ t.2 _ _ _ hs
    rw [← World.alone_none]
    exact he.alone <| .killed 0

end Exec

end Process
