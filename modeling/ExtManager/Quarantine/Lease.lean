import ExtManager.Quarantine.Publish

namespace Quarantine

open Process Process.Prog

variable {σ α : Type} {sys : (c : Call) → σ → c.Answer → σ → Prop} {d : Discipline σ}
variable {l : Option Mode} {s : σ}

-- A system in which the quiet calls do nothing, and whoever holds the lock may do nothing.
structure Calm (sys : (c : Call) → σ → c.Answer → σ → Prop) (d : Discipline σ) : Prop where
  quiet : ∀ {c s a s'}, Quiet c → sys c s a s' → s' = s
  idle : ∀ m s, d.step m s s

theorem Calm.guar_refl (h : Calm sys d) (l : Option Mode) (s : σ) : d.guar l s s := by
  match l with
  | none   => rfl
  | some m => exact h.idle m s

theorem only_os {p : Call → Prop} {c : Call} : (os c).Only p ↔ p c :=
  ⟨And.left, fun h => ⟨h, fun _ => trivial⟩⟩

theorem only_ask {p : Call → Prop} {c : Call} : (ask c).Only p ↔ p c :=
  ⟨And.left, fun h => ⟨h, fun _ => trivial⟩⟩

theorem only_wrapOs {p : Call → Prop} {e : Error} {m : Sys α} (h : m.Only p) :
    (wrapOs e m).Only p :=
  h.attempt fun e' => by cases e' <;> trivial

theorem only_onSink {p : Call → Prop} {m k : Sys α} (h : m.Only p) (hk : k.Only p) :
    (onSink m k).Only p :=
  h.attempt fun e => by cases e <;> first | exact hk | trivial

theorem only_mapOs {p : Call → Prop} {f : Errno → Error} {m : Sys α} (h : m.Only p) :
    (mapOs f m).Only p :=
  h.attempt fun e => by cases e <;> trivial

theorem only_openJournalRoot {p : Call → Prop} {r : Side} (h : p (.openRoot r)) :
    (openJournalRoot r).Only p :=
  only_wrapOs <| only_os.mpr h

section Calm

variable {Q : Except Error α → Option Mode → σ → Prop} {m : Sys α}

theorem Calm.only (h : Calm sys d) (hm : m.Only Quiet)
    (hq : ∀ v s', d.rely l s s' → Q v l s') : Safe sys d Q l m s :=
  .of_only hm (fun _ hc _ _ _ => h.quiet hc) (h.guar_refl l) hq

-- A program, and a close after it.
theorem Calm.closing (h : Calm sys d) (hm : Safe sys d (fun v l' s' => ∀ s'', d.rely l' s' s'' →
      Q v l' s'' ∧ ∀ e, Q (.error e) l' s'') l m s) :
    Safe sys d Q l (closing (os .close) m) s := by
  refine safe_andThen.mpr <| hm.mono fun v l' s' hv => safe_andThen.mpr ?_
  refine h.only (only_os.mpr .close) fun u s'' hr => ?_
  cases u
  case ok      => exact (hv s'' hr).left
  case error e => exact (hv s'' hr).right e

end Calm

theorem Calm.acquireLease {Q : Except Error Unit → Option Mode → σ → Prop} (h : Calm sys d)
    (hl : l ≠ some .shared) (hok : ∀ s', d.any s s' → Q (.ok ()) (some .exclusive) s')
    (herr : ∀ e l' s', l' ≠ some .shared → d.any s s' → Q (.error e) l' s') :
    Safe sys d Q l acquireLease s := by
  refine safe_andThen.mpr <| h.only (only_openJournalRoot .openRoot) fun v s₁ h₁ => ?_
  have h₁ := d.any_of_rely h₁
  cases v
  case error e => exact herr e l s₁ hl h₁
  case ok =>
    refine h.closing ⟨fun hn s₂ h₂ => ?_, fun s₂ h₂ s₃ h₃ => ?_⟩
    · cases h₂
      refine h.only (only_os.mpr .fsync) fun v s₃ h₃ s₄ h₄ => ?_
      cases h₃
      cases h₄
      cases v
      case ok      => exact ⟨hok s₁ h₁, fun e => herr e _ s₁ nofun h₁⟩
      case error e => exact ⟨herr e _ s₁ nofun h₁, fun e => herr e _ s₁ nofun h₁⟩
    · have ha := d.any_trans h₁ <| d.any_trans (d.any_of_rely h₂) (d.any_of_rely h₃)
      exact ⟨herr _ l s₃ hl ha, fun e => herr e l s₃ hl ha⟩

theorem Calm.unlock {Q : Except Error Unit → Option Mode → σ → Prop} (h : Calm sys d)
    (hq : ∀ v s', d.any s s' → Q v none s') : Safe sys d Q l unlock s := by
  intro s₁ h₁
  exact h.only (only_os.mpr .close) fun v s₂ h₂ => hq v s₂ <| d.any_trans h₁ h₂

-- What is done under a lease. Whatever fails, the process is left without the lock, or with a lock
-- that it has lost track of.
theorem Calm.withLease {Q : Except Error α → Option Mode → σ → Prop} {m : Sys α}
    {P : α → σ → Prop} {E : σ → Prop} (h : Calm sys d) (hl : l ≠ some .shared)
    (hm : ∀ s', d.any s s' → Yields sys d P E m s')
    (hok : ∀ a s' s'', P a s' → d.any s' s'' → Q (.ok a) none s'')
    (herr : ∀ e l' s', l' ≠ some .shared → d.any s s' → Q (.error e) l' s') :
    Safe sys d Q l (withLease m) s := by
  refine safe_andThen.mpr <| h.acquireLease hl (fun s₁ h₁ => ?_) fun e l' s₁ hl' h₁ => ?_
  · refine safe_andThen.mpr <| Safe.mono (hm s₁ h₁).any fun v l' s₂ hv => ?_
    refine safe_andThen.mpr <| h.unlock fun u s₃ h₃ => ?_
    have ha : d.any s s₃ := by
      cases v
      case ok      => exact d.any_trans h₁ <| d.any_trans hv.right.right h₃
      case error e => exact d.any_trans h₁ <| d.any_trans hv.right.right h₃
    cases u
    case error e => exact herr e none s₃ nofun ha
    case ok =>
      cases v
      case ok a    => exact hok a s₂ s₃ hv.right.left h₃
      case error e => exact herr e none s₃ nofun ha
  · exact herr e l' s₁ hl' h₁

end Quarantine
