import ExtManager.Quarantine.Source

namespace Quarantine

open Process Process.Prog

-- The calls that neither read nor write anything.
inductive Quiet : Call → Prop
  | openRoot {s} : Quiet (.openRoot s)
  | fstat        : Quiet .fstat
  | read         : Quiet .read
  | fsync        : Quiet .fsync
  | close        : Quiet .close

-- How the system sees one of the roots: the part `get` of its state is the root `s`, on which the
-- calls on its files work. A call fails only where `faulty` holds, and a rename publishes a record
-- under a name only where it is `good`.
structure Window {σ : Type} (sys : (c : Call) → σ → c.Answer → σ → Prop) (d : Discipline σ)
    (faulty : Prop) (s : Side) (good : (AList fun _ : Name => Record) → Name → Record → Prop) where
  get : σ → Root
  set : σ → Root → σ
  get_set : ∀ x r, get (set x r) = r
  set_set : ∀ x r r', set (set x r) r' = set x r'
  set_get : ∀ x, set x (get x) = x
  file : ∀ {c x a x'}, sys (.file s c) x a x' →
    (a = (c.perform (get x)).1 ∧ x' = set x (c.perform (get x)).2 ∧
      ∀ t n v, c = .rename t n → (get x).Publishes t n v → good (get x).files n v) ∨
    (a = .error .io ∧ x' = x ∧ faulty)
  quiet : ∀ {c x a x'}, Quiet c → sys c x a x' → x' = x ∧ ∀ e, a = .error e → faulty
  -- What happens to the temporaries alone is within what every process may do.
  free : ∀ {x r}, r.files = (get x).files → d.step .exclusive x (set x r)

section Calls

variable {σ : Type} {sys : (c : Call) → σ → c.Answer → σ → Prop} {d : Discipline σ}
variable {E : σ → Prop} {x : σ} {c : Call}

theorem asks {P : c.Answer → σ → Prop}
    (h : ∀ a x', sys c x a x' → d.step .exclusive x x' ∧ P a x') : Yields sys d P E (ask c) x :=
  .call fun a x' hs => ⟨(h a x' hs).left, .ret (h a x' hs).right⟩

theorem calls {P : c.Value → σ → Prop}
    (h : ∀ a x', sys c x a x' → d.step .exclusive x x' ∧
      match a with | .ok v => P v x' | .error _ => E x') : Yields sys d P E (os c) x := by
  refine .call fun a x' hs => ?_
  have ⟨hg, ha⟩ := h a x' hs
  refine ⟨hg, ?_⟩
  cases a
  case ok v    => exact .ret ha
  case error e => exact .ret ha

end Calls

section Still

variable {σ α : Type} {sys : (c : Call) → σ → c.Answer → σ → Prop} {d : Discipline σ}
variable {faulty : Prop} {P : α → σ → Prop} {E : σ → Prop} {x : σ}

-- A program that leaves everything as it is, and fails only where calls may fail.
def Still (sys : (c : Call) → σ → c.Answer → σ → Prop) (d : Discipline σ) (faulty : Prop)
    (m : Sys Unit) : Prop :=
  ∀ x, Yields sys d (fun _ x' => x' = x) (fun x' => x' = x ∧ faulty) m x

namespace Still

theorem raise {e : Error} (h : faulty) : Still sys d faulty (raise e) :=
  fun _ => .raise ⟨rfl, h⟩

theorem pure : Still sys d faulty (Pure.pure ()) :=
  fun _ => .pure rfl

theorem attempt {m : Sys Unit} {k : Error → Sys Unit} (h : Still sys d faulty m)
    (hk : ∀ e, faulty → Still sys d faulty (k e)) : Still sys d faulty (m.attempt k) := by
  refine fun x => .attempt (h x) fun e x' hr => ?_
  cases hr.left
  exact hk e hr.right x

theorem wrapOs {m : Sys Unit} {e : Error} (h : Still sys d faulty m) :
    Still sys d faulty (wrapOs e m) :=
  h.attempt fun e' hf => by cases e' <;> exact .raise hf

-- A still program in front of another one, and one that closes what another one has opened.

theorem seq {m : Sys Unit} {k : Unit → Sys α} (h : Still sys d faulty m) (herr : faulty → E x)
    (hok : Yields sys d P E (k ()) x) : Yields sys d P E (m >>= k) x := by
  refine .bind ((h x).mono (fun _ _ hx => hx) fun x' hx => ?_) fun _ x' hx => ?_
  · cases hx.left
    exact herr hx.right
  · cases hx
    exact hok

theorem closing {f : Sys Unit} {m : Sys α} (hf : Still sys d faulty f)
    (herr : ∀ a x', P a x' → faulty → E x') (h : Yields sys d P E m x) :
    Yields sys d P E (closing f m) x := by
  refine .ensure h (fun a x' ha => ?_) fun x' he => ?_
  · refine (hf x').mono (fun _ _ hx => hx ▸ ha) fun x'' hx => ?_
    cases hx.left
    exact herr a x' ha hx.right
  · exact (hf x').mono (fun _ _ hx => hx ▸ he) fun x'' hx => hx.left ▸ he

end Still

end Still

namespace Window

variable {σ α : Type} {sys : (c : Call) → σ → c.Answer → σ → Prop} {d : Discipline σ}
variable {faulty : Prop} {s : Side} {good : (AList fun _ : Name => Record) → Name → Record → Prop}
variable {P : α → σ → Prop} {E : σ → Prop} {x : σ}

theorem refl (w : Window sys d faulty s good) (x : σ) : d.step .exclusive x x := by
  simpa [w.set_get] using w.free (x := x) rfl

theorem file_at (w : Window sys d faulty s good) {c : FileCall} {r : Root} {a : Except Errno c.Value}
    {x' : σ} (h : sys (.file s c) (w.set x r) a x') :
    (a = (c.perform r).1 ∧ x' = w.set x (c.perform r).2 ∧
      ∀ t n v, c = .rename t n → r.Publishes t n v → good r.files n v) ∨
    (a = .error .io ∧ x' = w.set x r ∧ faulty) := by
  simpa [w.get_set, w.set_set] using w.file h

theorem free_at (w : Window sys d faulty s good) {r r' : Root} (h : r'.files = r.files) :
    d.step .exclusive (w.set x r) (w.set x r') := by
  simpa [w.set_set] using w.free (x := w.set x r) (r := r') (by simpa [w.get_set] using h)

theorem still_call (w : Window sys d faulty s good) {c : Call} (hq : Quiet c)
    {k : c.Answer → Sys Unit} (hok : ∀ u, Still sys d faulty (k (.ok u)))
    (herr : ∀ e, faulty → Still sys d faulty (k (.error e))) : Still sys d faulty (.call c k) := by
  refine fun x => .call fun a x' hs => ?_
  have ⟨hx, ha⟩ := w.quiet hq hs
  cases hx
  cases a
  case ok u    => exact ⟨w.refl x, hok u x⟩
  case error e => exact ⟨w.refl x, herr e (ha e rfl) x⟩

theorem still_fsync (w : Window sys d faulty s good) : Still sys d faulty (os .fsync) :=
  w.still_call .fsync (fun _ => .pure) fun _ => .raise

theorem still_close (w : Window sys d faulty s good) : Still sys d faulty (os .close) :=
  w.still_call .close (fun _ => .pure) fun _ => .raise

theorem still_fstat (w : Window sys d faulty s good) : Still sys d faulty (os .fstat) :=
  w.still_call .fstat (fun _ => .pure) fun _ => .raise

theorem still_read (w : Window sys d faulty s good) : Still sys d faulty (os .read) :=
  w.still_call .read (fun _ => .pure) fun _ => .raise

theorem readRecord (w : Window sys d faulty s good) {n : Name} {required : Bool} :
    Yields sys d
      (fun o x' => x' = x ∧ o = (w.get x).files.lookup n ∧ (required = true → o ≠ none))
      (fun x' => x' = x ∧ (faulty ∨ (required = true ∧ (w.get x).files.lookup n = none)))
      (readRecord s n required) x := by
  have ho : Yields sys d (fun a x' => x' = x ∧ (a = .error .io ∧ faulty ∨
      a = ((FileCall.open n).perform (w.get x)).1))
      (fun _ => False) (ask (.file s (.open n))) x := by
    refine asks fun a x' hs => ?_
    rcases w.file hs with ⟨rfl, hx, -⟩ | ⟨rfl, rfl, hf⟩
    · cases hx.trans (w.set_get x)
      exact ⟨w.refl x, rfl, .inr rfl⟩
    · exact ⟨w.refl x', rfl, .inl ⟨rfl, hf⟩⟩
  refine .bind (ho.mono (fun _ _ h => h) fun _ h => h.elim) fun a x' h => ?_
  obtain ⟨rfl, ⟨rfl, hf⟩ | rfl⟩ := h
  · exact .raise ⟨rfl, .inl hf⟩
  · simp only [FileCall.perform]
    cases hl : (w.get x').files.lookup n
    case none   =>
      refine .ite (fun hr => .raise ⟨rfl, .inr ⟨hr, rfl⟩⟩) fun hr => ?_
      exact .pure ⟨rfl, rfl, fun hr' => absurd hr' hr⟩
    case some v =>
      refine w.still_close.closing (fun a x' h hf => ⟨h.left, .inl hf⟩) ?_
      refine w.still_fstat.seq (fun hf => ⟨rfl, .inl hf⟩) ?_
      refine w.still_read.seq (fun hf => ⟨rfl, .inl hf⟩) ?_
      exact .pure ⟨rfl, rfl, fun _ => by simp⟩

theorem readRecord_at (w : Window sys d faulty s good) {n : Name} {required : Bool} {r : Root} :
    Yields sys d
      (fun o x' => x' = w.set x r ∧ o = r.files.lookup n ∧ (required = true → o ≠ none))
      (fun x' => x' = w.set x r ∧ (faulty ∨ (required = true ∧ r.files.lookup n = none)))
      (Quarantine.readRecord s n required) (w.set x r) := by
  simpa only [w.get_set] using w.readRecord (x := w.set x r) (n := n)

-- After a try to publish `raw` under the name `n`, the record is there.
inductive Published (w : Window sys d faulty s good) (n : Name) (raw : Record) (x x' : σ) : Prop
  | kept (r : Root) : x' = w.set x r → r.files = (w.get x).files →
      (w.get x).files.lookup n = some raw →
      (¬faulty → r.temporaries.keys ⊆ (w.get x).temporaries.keys) → Published w n raw x x'
  | put (r : Root) : x' = w.set x r → r.files = (w.get x).files.insert n raw →
      (w.get x).files.lookup n = none → good (w.get x).files n raw →
      (¬faulty → r.temporaries.keys ⊆ (w.get x).temporaries.keys) → Published w n raw x x'

-- The try has raised: nothing has happened, or the record is there after all.
inductive Unpublished (w : Window sys d faulty s good) (n : Name) (raw : Record) (x x' : σ) : Prop
  | kept (r : Root) : x' = w.set x r → r.files = (w.get x).files →
      (faulty ∨ ∃ v, (w.get x).files.lookup n = some v ∧ v ≠ raw) → Unpublished w n raw x x'
  | put (r : Root) : x' = w.set x r → r.files = (w.get x).files.insert n raw →
      (w.get x).files.lookup n = none → good (w.get x).files n raw → faulty →
      Unpublished w n raw x x'

section Publish

variable {w : Window sys d faulty s good} {n : Name} {raw : Record} {texts : Texts} {x' : σ}

theorem Published.unpublished (h : Published w n raw x x') (hf : faulty) :
    Unpublished w n raw x x' := by
  cases h
  case kept r hx hr _ _    => exact .kept r hx hr (.inl hf)
  case put r hx hr hl hg _ => exact .put r hx hr hl hg hf

theorem discard_at {r : Root} {t : Nat} :
    Yields sys d
      (fun _ x' => ∃ r', x' = w.set x r' ∧ r'.files = r.files ∧
        (¬faulty → r'.temporaries.keys ⊆ r.temporaries.keys.erase t))
      E (discard s t) (w.set x r) := by
  have same : faulty → ∃ r', w.set x r = w.set x r' ∧ r'.files = r.files ∧
      (¬faulty → r'.temporaries.keys ⊆ r.temporaries.keys.erase t) :=
    fun hf => ⟨r, rfl, rfl, fun hn => absurd hf hn⟩
  refine .attempt (F := fun x' => ∃ r', x' = w.set x r' ∧ r'.files = r.files ∧
    (¬faulty → r'.temporaries.keys ⊆ r.temporaries.keys.erase t)) ?_ fun _ _ h => .pure h
  refine .bind (R := fun _ x' => ∃ r', x' = w.set x r' ∧ r'.files = r.files ∧
    (¬faulty → r'.temporaries.keys ⊆ r.temporaries.keys.erase t)) (calls fun a x' hs => ?_) ?_
  · rcases w.file_at hs with ⟨rfl, rfl, -⟩ | ⟨rfl, rfl, hf⟩
    · simp only [FileCall.perform]
      split
      case isTrue ht  => exact ⟨w.free_at rfl, _, rfl, rfl, fun _ => by simp⟩
      case isFalse ht =>
        have he : r.temporaries.keys.erase t = r.temporaries.keys := List.erase_of_not_mem ht
        exact ⟨w.free_at rfl, r, rfl, rfl, fun _ => by simp [he]⟩
    · exact ⟨w.free_at rfl, same hf⟩
  · rintro - x' ⟨r', rfl, hr, ht⟩
    exact (w.still_fsync _).mono (fun _ _ hx => ⟨r', hx, hr, ht⟩) fun _ hx => ⟨r', hx.left, hr, ht⟩

-- What the write and the rename of the temporary `t` leave.
inductive Renamed (w : Window sys d faulty s good) (n : Name) (raw : Record) (x : σ) (r : Root)
    (t : Nat) : Option Record → σ → Prop
  | present (r' : Root) : r'.files = r.files → r.files.lookup n = some raw →
      r'.temporaries.keys ⊆ r.temporaries.keys → Renamed w n raw x r t (some raw) (w.set x r')
  | put (r' : Root) : r'.files = r.files.insert n raw → r.files.lookup n = none →
      good r.files n raw → r'.temporaries.keys ⊆ r.temporaries.keys.erase t →
      Renamed w n raw x r t none (w.set x r')

theorem write_at {r : Root} {t : Nat} (ht : t ∈ r.temporaries) :
    Yields sys d
      (fun _ x' => x' = w.set x { r with temporaries := r.temporaries.insert t (some raw) })
      (fun x' => ∃ r', x' = w.set x r' ∧ r'.files = r.files ∧ faulty)
      (mapOs texts.persist <| closing (os .close) do
        os (.file s (.write t raw))
        os .fsync) (w.set x r) := by
  refine .attempt (F := fun x' => ∃ r', x' = w.set x r' ∧ r'.files = r.files ∧ faulty) ?_ ?_
  · refine w.still_close.closing (fun _ x' hx hf => ⟨_, hx, rfl, hf⟩) ?_
    refine .bind (R := fun _ x' =>
      x' = w.set x { r with temporaries := r.temporaries.insert t (some raw) })
      (calls fun a x' hs => ?_) fun _ x' hx => ?_
    · rcases w.file_at hs with ⟨rfl, rfl, -⟩ | ⟨rfl, rfl, hf⟩
      · exact ⟨w.free_at rfl, by simp [FileCall.perform, ht]⟩
      · exact ⟨w.free_at rfl, r, rfl, rfl, hf⟩
    · refine (w.still_fsync x').mono (fun _ _ h => h.trans hx) fun x'' h => ?_
      exact ⟨_, h.left.trans hx, rfl, h.right⟩
  · rintro e x' h
    cases e <;> exact .raise h

-- What the rename answers and does.
theorem rename_at {r : Root} {t : Nat} (ht : r.temporaries.lookup t = some (some raw))
    (hput : r.files.lookup n = none → good r.files n raw → ∀ r₁ r₂ : Root, r₁.files = r.files →
      r₂.files = r.files.insert n raw → d.step .exclusive (w.set x r₁) (w.set x r₂)) :
    Yields sys d
      (fun a x' => match a with
        | .ok _           => r.files.lookup n = none ∧ good r.files n raw ∧ x' = w.set x {
            r with files := r.files.insert n raw, temporaries := r.temporaries.erase t
          }
        | .error .present => x' = w.set x r ∧ r.files.lookup n ≠ none
        | .error _        => x' = w.set x r ∧ faulty)
      E (ask (.file s (.rename t n))) (w.set x r) := by
  refine asks fun a x' hs => ?_
  rcases w.file_at hs with ⟨rfl, rfl, hg⟩ | ⟨rfl, rfl, hf⟩
  · simp only [FileCall.perform, ht]
    split
    case isTrue hn  => exact ⟨w.free_at rfl, rfl, fun hl => AList.lookup_eq_none.mp hl hn⟩
    case isFalse hn =>
      have hl : r.files.lookup n = none := AList.lookup_eq_none.mpr hn
      have hg := hg t n raw rfl ⟨ht, hn⟩
      exact ⟨hput hl hg r _ rfl rfl, hl, hg, rfl⟩
  · exact ⟨w.free_at rfl, rfl, hf⟩

theorem publishTemporary_at {r : Root} {t : Nat} (ht : t ∈ r.temporaries)
    (hput : r.files.lookup n = none → good r.files n raw → ∀ r₁ r₂ : Root, r₁.files = r.files →
      r₂.files = r.files.insert n raw → d.step .exclusive (w.set x r₁) (w.set x r₂)) :
    Yields sys d (Renamed w n raw x r t)
      (fun x' => ∃ r', x' = w.set x r' ∧ r'.files = r.files ∧
        (faulty ∨ ∃ v, r.files.lookup n = some v ∧ v ≠ raw))
      (publishTemporary s n raw texts t) (w.set x r) := by
  refine .bind ((write_at ht).mono (fun _ _ h => h) fun x' h => ?_) ?_
  · obtain ⟨r', hx, hr, hf⟩ := h
    exact ⟨r', hx, hr, .inl hf⟩
  · rintro - x' rfl
    have hw : ({ r with temporaries := r.temporaries.insert t (some raw) } : Root).temporaries.lookup t
        = some (some raw) := AList.lookup_insert ..
    have hk : (r.temporaries.insert t (some raw)).keys ⊆ r.temporaries.keys := by
      simpa [AList.keys_insert] using ⟨ht, List.erase_subset⟩
    refine .bind (rename_at hw hput) fun a x' h => ?_
    match a with
    | .ok _ =>
      obtain ⟨hl, hg, rfl⟩ := h
      exact .pure <| .put _ rfl hl hg <| by simp [AList.keys_insert]
    | .error .present =>
      obtain ⟨rfl, hf⟩ := h
      refine .bind (w.readRecord_at.mono (fun _ _ h => h) fun x' h => ?_) fun o x' h => ?_
      · exact ⟨_, h.left, rfl, .inl <| h.right.elim id fun h' => absurd h'.right hf⟩
      · obtain ⟨rfl, ho, hn⟩ := h
        refine .raiseIf_seq (fun he => ?_) fun he => ?_
        · match hv : o with
          | none   => exact absurd rfl (hn rfl)
          | some v => exact ⟨_, rfl, rfl, .inr ⟨v, ho.symm, fun h => he <| h ▸ rfl⟩⟩
        · cases not_not.mp he
          exact .pure <| .present _ rfl ho.symm hk
    | .error .notFound => exact .raise ⟨_, h.left, rfl, .inl h.right⟩
    | .error .io => exact .raise ⟨_, h.left, rfl, .inl h.right⟩

variable (w) in
theorem create_held :
    Yields sys d
      (fun t x' => t = (w.get x).tokens ∧ x' = w.set x {
        w.get x with
        temporaries := (w.get x).temporaries.insert (w.get x).tokens none
        tokens      := (w.get x).tokens + 1
      })
      (fun x' => x' = x ∧ faulty) (mapOs texts.create <| os (.file s .create)) x := by
  refine .attempt (F := fun x' => x' = x ∧ faulty) (calls fun a x' hs => ?_) fun e x' h => ?_
  · rcases w.file hs with ⟨rfl, rfl, -⟩ | ⟨rfl, rfl, hf⟩
    · exact ⟨w.free rfl, rfl, rfl⟩
    · exact ⟨w.refl x', rfl, hf⟩
  · cases e <;> exact .raise h

variable (w) in
theorem publish
    (hput : (w.get x).files.lookup n = none → good (w.get x).files n raw → ∀ r₁ r₂ : Root,
      r₁.files = (w.get x).files → r₂.files = (w.get x).files.insert n raw →
      d.step .exclusive (w.set x r₁) (w.set x r₂)) :
    Yields sys d (fun a x' => a = raw ∧ Published w n raw x x') (Unpublished w n raw x)
      (publish s n raw texts) x := by
  refine .bind (w.readRecord.mono (fun _ _ h => h) fun x' h => ?_) fun o x' h => ?_
  · exact .kept (w.get x) (h.left.trans (w.set_get x).symm) rfl <| h.right.imp id nofun
  obtain ⟨rfl, ho, -⟩ := h
  match o with
  | some v =>
    refine .raiseIf_seq (fun hv => ?_) fun hv => ?_
    · exact .kept (w.get x') (w.set_get x').symm rfl <| .inr ⟨v, ho.symm, hv⟩
    · cases not_not.mp hv
      exact .pure ⟨rfl, .kept (w.get x') (w.set_get x').symm rfl ho.symm fun _ => List.Subset.refl _⟩
  | none =>
    set r := { w.get x' with
      temporaries := (w.get x').temporaries.insert (w.get x').tokens none
      tokens      := (w.get x').tokens + 1 : Root } with hr
    have hk : r.temporaries.keys.erase (w.get x').tokens ⊆ (w.get x').temporaries.keys := by
      simp [hr, AList.keys_insert, List.erase_subset]
    refine .bind (w.create_held.mono (fun _ _ h => h) fun x'' h => ?_) fun t x'' h => ?_
    · exact .kept (w.get x') (h.left.trans (w.set_get x').symm) rfl (.inl h.right)
    obtain ⟨rfl, rfl⟩ := h
    refine .bind (R := Renamed w n raw x' r (w.get x').tokens) ?_ fun o x'' h => ?_
    · refine .attempt (publishTemporary_at (by simp [hr]) hput) fun e x'' h => ?_
      obtain ⟨r', rfl, hr', hf⟩ := h
      refine .bind discard_at fun _ x'' h => ?_
      obtain ⟨r'', rfl, hr'', -⟩ := h
      exact .raise <| .kept r'' rfl (hr''.trans hr') hf
    cases h
    case present r' hr' hl hk' =>
      refine .bind discard_at fun _ x'' h => ?_
      obtain ⟨r'', rfl, hr'', ht⟩ := h
      refine .pure ⟨rfl, .kept r'' rfl (hr''.trans hr') hl fun hf u hu => ?_⟩
      have hu := (AList.keys_nodup _).mem_erase_iff.mp <| ht hf hu
      refine hk <| (AList.keys_nodup _).mem_erase_iff.mpr ⟨hu.left, hk' hu.right⟩
    case put r' hr' hl hg hk' =>
      have hp : Published w n raw x' (w.set x' r') :=
        .put r' rfl hr' hl hg fun _ => List.Subset.trans hk' hk
      refine w.still_fsync.seq hp.unpublished ?_
      refine .bind (w.readRecord_at.mono (fun _ _ h => h) fun x'' h => ?_) fun o x'' h => ?_
      · cases h.left
        refine hp.unpublished <| h.right.elim id fun h' => ?_
        simp [hr'] at h'
      · obtain ⟨rfl, ho, -⟩ := h
        refine .raiseIf_seq (fun hv => absurd ?_ hv) fun _ => .pure ⟨rfl, hp⟩
        simpa [hr'] using ho

end Publish

section Sweep

variable {w : Window sys d faulty s good} {r : Root}

theorem remove_at {t : Nat} (ht : t ∈ r.temporaries) {e : Error} :
    Yields sys d
      (fun _ x' => x' = w.set x { r with temporaries := r.temporaries.erase t })
      (fun x' => x' = w.set x r ∧ faulty) (wrapOs e <| os (.file s (.discard t))) (w.set x r) := by
  refine .attempt (F := fun x' => x' = w.set x r ∧ faulty) (calls fun a x' hs => ?_) fun e x' h => ?_
  · rcases w.file_at hs with ⟨rfl, rfl, -⟩ | ⟨rfl, rfl, hf⟩
    · simp only [FileCall.perform, ht, if_true]
      exact ⟨w.free_at rfl, trivial⟩
    · exact ⟨w.free_at rfl, rfl, hf⟩
  · cases e <;> exact .raise h

theorem removeTemporaries_at {ts : List Nat} (hn : ts.Nodup) (ht : ∀ t ∈ ts, t ∈ r.temporaries) :
    Yields sys d
      (fun _ x' => ∃ r', x' = w.set x r' ∧ r'.files = r.files ∧
        ∀ t, t ∈ r'.temporaries ↔ t ∈ r.temporaries ∧ t ∉ ts)
      (fun x' => ∃ r', x' = w.set x r' ∧ r'.files = r.files ∧ faulty)
      (removeTemporaries s ts) (w.set x r) := by
  induction ts generalizing r with
  | nil => exact .pure ⟨r, rfl, rfl, fun t => by simp⟩
  | cons t ts ih =>
    have ⟨hn', hn⟩ := List.nodup_cons.mp hn
    refine (w.still_fstat.wrapOs (e := _)).seq (fun hf => ⟨r, rfl, rfl, hf⟩) ?_
    refine .bind ((remove_at <| ht t <| List.mem_cons_self ..).mono (fun _ _ h => h) fun _ h => ?_)
      fun _ x' h => ?_
    · exact ⟨r, h.left, rfl, h.right⟩
    · cases h
      refine (ih hn fun t' ht' => ?_).mono (fun _ _ h => ?_) fun _ h => h
      · refine AList.mem_erase.mpr ⟨fun he => hn' (he ▸ ht'), ht t' <| List.mem_cons_of_mem _ ht'⟩
      · obtain ⟨r', hx, hr, hm⟩ := h
        refine ⟨r', hx, hr, fun t' => ?_⟩
        simp only [hm, AList.mem_erase, List.mem_cons, not_or]
        tauto

variable (w) in
theorem sweep :
    Yields sys d
      (fun names x' => names = (w.get x).files.keys ∧ ∃ r, x' = w.set x r ∧
        r.files = (w.get x).files ∧ ∀ t, t ∉ r.temporaries)
      (fun x' => ∃ r, x' = w.set x r ∧ r.files = (w.get x).files ∧ faulty)
      (sweep s) x := by
  have hl : Yields sys d
      (fun a x' => a = ((w.get x).files.keys, (w.get x).temporaries.keys) ∧ x' = w.set x (w.get x))
      (fun x' => ∃ r, x' = w.set x r ∧ r.files = (w.get x).files ∧ faulty)
      (os (.file s .list)) x := by
    refine calls fun a x' hs => ?_
    rcases w.file hs with ⟨rfl, rfl, -⟩ | ⟨rfl, rfl, hf⟩
    · exact ⟨w.free rfl, rfl, rfl⟩
    · exact ⟨w.refl x', _, (w.set_get x').symm, rfl, hf⟩
  refine .bind hl fun a x' h => ?_
  obtain ⟨rfl, rfl⟩ := h
  refine .bind (removeTemporaries_at (AList.keys_nodup _) fun _ h => h) fun _ x' h => ?_
  obtain ⟨r', rfl, hr, hm⟩ := h
  have hm t : t ∉ r'.temporaries := fun h => ((hm t).mp h).right ((hm t).mp h).left
  refine .bind (R := fun _ x'' => x'' = w.set x r') (.when (fun _ => ?_) fun _ => rfl) fun _ x'' h => ?_
  · exact (w.still_fsync _).mono (fun _ _ h => h) fun _ h => ⟨r', h.left, hr, h.right⟩
  · exact .pure ⟨rfl, r', h, hr, hm⟩

end Sweep

end Window

end Quarantine
