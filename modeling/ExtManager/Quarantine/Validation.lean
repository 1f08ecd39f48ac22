import ExtManager.Quarantine.Exclusive

namespace Quarantine

open Process

section Validation

variable [Deployment] {f : Files} {tid : Tid}

-- The records of a transaction, as reconciliation reads them after its intent.
def chain (f : Files) (tid : Tid) (intent : Record) : Chain where
  intent    := intent
  applied   := f.lookup (.record tid .applied)
  finalized := f.lookup (.record tid .finalized)
  restored  := f.lookup (.record tid .restored)
  blocked   := f.lookup (.record tid .blocked)

-- The checks of one iteration of reconciliation on the records that it has read.
structure Chain.Valid (tid : Tid) (c : Chain) (snapshot : QuarantinedJournal) : Prop where
  applied : c.checkApplied tid snapshot = .ok ()
  finalized : ∀ unapplied, c.checkFinalized tid unapplied = .ok ()
  restored : ∀ r, c.restored = some r →
    validateRestored tid c.intentDigest c.appliedDigest none r = .ok ()
  blocked : ∀ b, c.blocked = some b →
    validateBlocked tid c.intentDigest c.appliedDigest (c.finalized.map Deployment.ofRecord) b = .ok ()
  sole : ¬(c.restored ≠ none ∧ (c.finalized ≠ none ∨ c.blocked ≠ none))

-- The records of a transaction pass all checks of reconciliation.
structure Validates (f : Files) (tid : Tid) : Prop where
  grounded : ∀ st, .record tid st ∈ f → .record tid .intent ∈ f
  valid : ∀ i, f.lookup (.record tid .intent) = some i → ∃ v s, intentSnapshot tid i = .ok (v, s) ∧
    v.sourceDirectory = Deployment.sourceIdentity ∧
    v.quarantineDirectory = Deployment.quarantineIdentity ∧ (chain f tid i).Valid tid s

theorem Chained.grounded {strict : Prop} (h : Chained strict f tid) {st : Stage}
    (hm : .record tid st ∈ f) : .record tid .intent ∈ f := by
  by_contra hn
  exact AList.lookup_eq_none.mp (h.blank (AList.lookup_eq_none.mpr hn) st) hm

theorem Chained.valid (h : Chained True f tid) {i : Record} {v : Intent} {s : QuarantinedJournal}
    (hi : f.lookup (.record tid .intent) = some i) (hs : intentSnapshot tid i = .ok (v, s)) :
    (chain f tid i).Valid tid s where
  applied := by
    unfold Chain.checkApplied
    split
    case h_1      => rfl
    case h_2 a ha =>
      have ⟨i', v', s', hi', hs', he⟩ := h.applied a ha
      cases hi.symm.trans hi'
      cases hs.symm.trans hs'
      exact if_pos he
  finalized unapplied := by
    unfold Chain.checkFinalized
    split
    case h_1             => rfl
    case h_2 z hz ha     =>
      have ⟨_, a, _, ha', _⟩ := h.finalized z hz
      exact nomatch ha.symm.trans ha'
    case h_3 z a hz ha   =>
      have ⟨i', a', hi', ha', hv⟩ := h.finalized z hz
      cases hi.symm.trans hi'
      cases ha.symm.trans ha'
      exact hv
  restored r hr := by
    have ⟨_, _, i', a, hi', hv, ha⟩ := h.restored r hr
    cases hi.symm.trans hi'
    cases ha trivial
    exact hv
  blocked b hb := by
    have ⟨i', z, hi', hv, hz⟩ := h.blocked b hb
    cases hi.symm.trans hi'
    exact hz trivial ▸ hv
  sole := by
    rintro ⟨hr, ho⟩
    obtain ⟨r, hr⟩ := Option.ne_none_iff_exists'.mp hr
    have ⟨hz, hb, _⟩ := h.restored r hr
    exact ho.elim (· hz) (· hb)

theorem Chained.validates (h : Chained True f tid) : Validates f tid where
  grounded _ := h.grounded
  valid i hi := by
    have ⟨v, s, hs, hd⟩ := h.intent i hi
    exact ⟨v, s, hs, hd.left, hd.right, h.valid hi hs⟩

-- Where every record is published with care, reconciliation finds all records of the program valid,
-- whatever else fails and whatever appears under a journal's name.
theorem chains_validate {fails : Call → Disk → Prop} {w : World Call Call.Answer Error Task Disk}
    (h : Reachable (fun c d a d' => Call.Does fails c d a d' ∧ Attentive c d d') Task.program
      (fun _ => True) Disk.Fresh w) (tid : Tid) :
    Validates w.state.quarantine.files tid :=
  (chained_of_reachable (fun _ _ _ _ hs => sees hs.left fun _ => hs.right) h tid).validates

end Validation

section Careless

open Sample

-- Whether a restored or a blocked record names the digest of the record that is there.
def agrees (f : Files) (tid : Tid) : Stage → Bool
  | .restored => match f.lookup (.record tid .restored) with
    | some (.restored v) =>
      v.appliedDigest = (f.lookup (.record tid .applied)).map Deployment.ofRecord
    | _                  => true
  | .blocked  => match f.lookup (.record tid .blocked) with
    | some (.blocked v) =>
      v.finalizedDigest = (f.lookup (.record tid .finalized)).map Deployment.ofRecord
    | _                 => true
  | _         => true

theorem Validates.intent {f : Files} {tid : Tid} {st : Stage} {r : Record} (h : Validates f tid)
    (hr : f.lookup (.record tid st) = some r) : ∃ i s, (chain f tid i).Valid tid s := by
  have hm := h.grounded st <| AList.lookup_isSome.mp <| hr ▸ rfl
  have ⟨i, hi⟩ := Option.isSome_iff_exists.mp <| AList.lookup_isSome.mpr hm
  have ⟨_, s, _, _, _, hv⟩ := h.valid i hi
  exact ⟨i, s, hv⟩

theorem Validates.agrees {f : Files} {tid : Tid} (h : Validates f tid) (st : Stage) :
    agrees f tid st := by
  cases st
  case intent | applied | finalized => rfl
  case restored =>
    simp only [Quarantine.agrees]
    split
    case h_2      => rfl
    case h_1 v hr =>
      obtain ⟨i, s, hv⟩ := h.intent hr
      have hv := hv.restored _ hr
      simp only [validateRestored] at hv
      split at hv
      case isTrue h => exact decide_eq_true h.right.right.left
      case isFalse  => cases hv
  case blocked =>
    simp only [Quarantine.agrees]
    split
    case h_2      => rfl
    case h_1 v hb =>
      obtain ⟨i, s, hv⟩ := h.intent hb
      have hv := hv.blocked _ hb
      simp only [validateBlocked] at hv
      split at hv
      case isTrue h => exact decide_eq_true h.right.right.right.left
      case isFalse  => cases hv

-- The journal is taken out of service, but the applied record cannot be synchronized after its
-- rename: the handler restores the journal, and publishes that nothing has been applied.
def unsynchronized : List (Task × List Bool) :=
  [smoothly (.append 1 [65] false),
    (.actuate (binding 1) [.commit], List.replicate 98 false ++ true :: List.replicate 1000 false)]

-- A second finalization, after a file has appeared in the place of the journal.
def finalizedTwice : List (Task × List Bool) :=
  finalization ++ [.plant 1 [66], .finalize 1 11 7 process].map smoothly

theorem not_validates_of_careless :
    ¬(∀ w, Reachable (Call.Does fun _ _ => True) Task.program (fun _ => True) Disk.Fresh w →
      Validates w.state.quarantine.files 1) ∧
    ¬Validates (runs act Task.program unsynchronized disk).quarantine.files 1 ∧
    ¬Validates (runs act Task.program finalizedTwice disk).quarantine.files 1 := by
  have hu : ¬Validates (runs act Task.program unsynchronized disk).quarantine.files 1 :=
    fun h => absurd (h.agrees .restored) (by decide +kernel)
  have hf : ¬Validates (runs act Task.program finalizedTwice disk).quarantine.files 1 :=
    fun h => absurd (h.agrees .blocked) (by decide +kernel)
  exact ⟨fun h => hu <| h _ <| reachable unsynchronized, hu, hf⟩

-- A record that does not name a digest that it could have named.
def hasty : Record → Bool
  | .restored v => v.appliedDigest = none
  | .blocked v  => v.finalizedDigest = none
  | _           => false

theorem careful_of_not_hasty {f : Files} {n : Name} {v : Record} (h : hasty v = false) :
    Careful f n v := by
  unfold Careful
  split
  case h_1 => exact fun _ hn => absurd hn <| by simpa [hasty] using h
  case h_2 => exact fun _ hn => absurd hn <| by simpa [hasty] using h
  case h_3 => trivial

-- A call that would publish such a record fails.
def carefully (c : Call) (b : Bool) (d : Disk) : c.Answer × Disk :=
  match c with
    | .file .quarantine (.rename t n) =>
      if ((d.quarantine.temporaries.lookup t).join.map hasty).getD false then (.error .io, d)
      else act (.file .quarantine (.rename t n)) b d
    | c => act c b d

theorem does_carefully (c : Call) (b : Bool) (d : Disk) :
    Call.Does (fun _ _ => True) c d (carefully c b d).1 (carefully c b d).2 ∧
      Attentive c d (carefully c b d).2 := by
  unfold carefully
  split
  case h_2 hc  => exact ⟨does _ b d, fun _ t n v he _ => absurd he (hc t n)⟩
  case h_1 t n =>
    split
    case isTrue     => exact ⟨.fails trivial, fun hd => absurd rfl hd⟩
    case isFalse hh =>
      refine ⟨does _ b d, fun _ t' n' v he hp => ?_⟩
      cases he
      exact careful_of_not_hasty <| by simpa [hp.left] using hh

-- The action cannot be audited after the move, which is undone.
def unaudited : List (Task × List Bool) :=
  [smoothly (.append 1 [65] false),
    (.actuate (binding 1) [.commit], List.replicate 105 false ++ true :: List.replicate 1000 false)]

theorem chains_validate_of_unaudited :
    .record 1 .restored ∈ (runs carefully Task.program unaudited disk).quarantine.files ∧
    Validates (runs carefully Task.program unaudited disk).quarantine.files 1 := by
  have h : Reachable (fun c d a d' => Call.Does (fun _ _ => True) c d a d' ∧ Attentive c d d')
      Task.program (fun _ => True) Disk.Fresh
      ⟨runs carefully Task.program unaudited disk, fun _ => none⟩ :=
    .runs does_carefully (fun _ _ => trivial) (.init fresh)
  exact ⟨by decide +kernel, chains_validate h 1⟩

end Careless

end Quarantine
