import ExtManager.Quarantine.Lease

namespace Quarantine

open Process Process.Prog

abbrev Files : Type :=
  AList fun _ : Name => Record

-- A call that does not touch the files of the quarantine root.
def Elsewhere (c : Call) : Prop :=
  ∀ fc, c ≠ .file .quarantine fc

theorem Quiet.elsewhere {c : Call} (h : Quiet c) : Elsewhere c := by
  cases h <;> exact nofun

@[simp]
theorem lookup_insert_record {f : Files} {v : Record} {tid tid' : Tid} {st st' : Stage} :
    (f.insert (.record tid st) v).lookup (.record tid' st') =
      if tid' = tid ∧ st' = st then some v else f.lookup (.record tid' st') := by
  split
  case isTrue h  => rw [h.left, h.right, AList.lookup_insert]
  case isFalse h => exact AList.lookup_insert_ne fun he => h (by cases he; exact ⟨rfl, rfl⟩)

variable [Deployment]

-- A record that does not overlook another one: where the handler of a commit publishes that it has
-- restored without an applied record, or a finalization that it is blocked without a finalized
-- one, there is none.
def Careful (f : Files) : Name → Record → Prop
  | .record tid .restored, .restored v =>
    v.reason = .catchablePostMoveFailure → v.appliedDigest = none →
      f.lookup (.record tid .applied) = none
  | .record tid .blocked, .blocked v =>
    v.reason = .sourceReplacementCollision → v.finalizedDigest = none →
      f.lookup (.record tid .finalized) = none
  | _, _ => True

-- The records of one transaction, as the files of the quarantine root have them. Where all records
-- have been published with care (`strict`), the digests in them are those of the records there.
structure Chained (strict : Prop) (f : Files) (tid : Tid) : Prop where
  intent : ∀ i, f.lookup (.record tid .intent) = some i → ∃ v s, intentSnapshot tid i = .ok (v, s) ∧
    v.sourceDirectory = Deployment.sourceIdentity ∧
    v.quarantineDirectory = Deployment.quarantineIdentity
  applied : ∀ a, f.lookup (.record tid .applied) = some a → ∃ i v s,
    f.lookup (.record tid .intent) = some i ∧ intentSnapshot tid i = .ok (v, s) ∧
    a = appliedValue tid (Deployment.ofRecord i) s
  finalized : ∀ z, f.lookup (.record tid .finalized) = some z → ∃ i a,
    f.lookup (.record tid .intent) = some i ∧ f.lookup (.record tid .applied) = some a ∧
    validateFinalized tid (Deployment.ofRecord i) (Deployment.ofRecord a) z = .ok ()
  restored : ∀ r, f.lookup (.record tid .restored) = some r →
    f.lookup (.record tid .finalized) = none ∧ f.lookup (.record tid .blocked) = none ∧
    ∃ i a, f.lookup (.record tid .intent) = some i ∧
      validateRestored tid (Deployment.ofRecord i) a none r = .ok () ∧
      (strict → a = (f.lookup (.record tid .applied)).map Deployment.ofRecord)
  blocked : ∀ b, f.lookup (.record tid .blocked) = some b → ∃ i z,
    f.lookup (.record tid .intent) = some i ∧
    validateBlocked tid (Deployment.ofRecord i)
      ((f.lookup (.record tid .applied)).map Deployment.ofRecord) z b = .ok () ∧
    (strict → z = (f.lookup (.record tid .finalized)).map Deployment.ofRecord)

-- Records are written once, and what has been chained stays so.
structure Grows (strict : Prop) (f f' : Files) : Prop where
  persist : ∀ n v, f.lookup n = some v → f'.lookup n = some v
  chained : (∀ tid, Chained strict f tid) → ∀ tid, Chained strict f' tid

theorem Grows.refl {strict : Prop} (f : Files) : Grows strict f f :=
  ⟨fun _ _ => id, id⟩

theorem Grows.trans {strict : Prop} {f₁ f₂ f₃ : Files} (h : Grows strict f₁ f₂)
    (h' : Grows strict f₂ f₃) : Grows strict f₁ f₃ :=
  ⟨fun n v hl => h'.persist n v <| h.persist n v hl, fun hc => h'.chained <| h.chained hc⟩

-- The quarantine root without the journals, under the lock.
def recordKeeping (strict : Prop) : Discipline Root where
  step _ r r'  := Grows strict r.files r'.files
  shared r r'  := Grows strict r.files r'.files
  any r r'     := Grows strict r.files r'.files
  shared_refl _  := .refl _
  shared_trans   := .trans
  any_refl _     := .refl _
  any_trans      := .trans
  shared_of_step := id
  any_of_shared  := id
  any_of_step    := id

-- What calls do to the quarantine root without its journals: those on its files what they do
-- there, or nothing; the others nothing, whatever they answer.
inductive Sees (strict : Prop) : (c : Call) → Root → c.Answer → Root → Prop
  | performs {c r} : (∀ t n v, c = .rename t n → r.Publishes t n v → strict → Careful r.files n v) →
      Sees strict (.file .quarantine c) r (c.perform r).1 (c.perform r).2
  | fails {c r} : Sees strict (.file .quarantine c) r (.error .io) r
  | elsewhere {c r a} : Elsewhere c → Sees strict c r a r

variable {strict : Prop} {α : Type} {r r' : Root}

omit [Deployment] in
theorem Elsewhere.eq {c : Call} (h : Elsewhere c) {a : c.Answer} (hs : Sees strict c r a r') :
    r' = r := by
  cases hs
  case performs c _ => exact absurd rfl (h c)
  case fails c      => exact absurd rfl (h c)
  case elsewhere    => rfl

theorem calm : Calm (Sees strict) (recordKeeping strict) where
  quiet h hs := h.elsewhere.eq hs
  idle _ _   := .refl _

def recordWindow (strict : Prop) :
    Window (Sees strict) (recordKeeping strict) True .quarantine
      (fun f n v => strict → Careful f n v) where
  get r   := r
  set _ r := r
  get_set _ _   := rfl
  set_set _ _ _ := rfl
  set_get _     := rfl
  file hs := by
    cases hs
    case performs h  => exact .inl ⟨rfl, rfl, h⟩
    case fails       => exact .inr ⟨rfl, rfl, trivial⟩
    case elsewhere h => exact absurd rfl (h _)
  quiet h hs := ⟨h.elsewhere.eq hs, fun _ _ => trivial⟩
  free {x r} h := by
    have h : r.files = x.files := h
    exact (congrArg (Grows strict x.files) h).mpr (.refl _)

section Put

variable {f : Files} {tid : Tid} {v i : Record}

-- A record put where there is none. Only its own transaction has to be looked at.
theorem Grows.put {st : Stage} (hn : f.lookup (.record tid st) = none)
    (hc : Chained strict f tid → Chained strict (f.insert (.record tid st) v) tid) :
    Grows strict f (f.insert (.record tid st) v) where
  persist n x hx := by
    rw [AList.lookup_insert_ne (by rintro rfl; simp [hn] at hx), hx]
  chained h tid' := by
    by_cases ht : tid' = tid
    case pos => exact ht ▸ hc (h tid)
    case neg =>
      have he st' : (f.insert (.record tid st) v).lookup (.record tid' st') =
          f.lookup (.record tid' st') := by simp [ht]
      have h := h tid'
      constructor
      all_goals simp only [he]
      exacts [h.intent, h.applied, h.finalized, h.restored, h.blocked]

-- Where there is no intent there is nothing.
theorem Chained.blank (h : Chained strict f tid) (hn : f.lookup (.record tid .intent) = none)
    (st : Stage) : f.lookup (.record tid st) = none := by
  by_contra hs
  have ⟨x, hx⟩ := Option.ne_none_iff_exists'.mp hs
  cases st
  case intent    => exact hs hn
  case applied   => have ⟨_, _, _, hi, _⟩ := h.applied x hx; simp [hn] at hi
  case finalized => have ⟨_, _, hi, _⟩ := h.finalized x hx; simp [hn] at hi
  case restored  => have ⟨_, _, _, _, hi, _⟩ := h.restored x hx; simp [hn] at hi
  case blocked   => have ⟨_, _, hi, _⟩ := h.blocked x hx; simp [hn] at hi

theorem intentSnapshot_intentValue {b : Binding} {s : QuarantinedJournal}
    (ht : tid = Deployment.ofBinding b) : intentSnapshot tid (intentValue tid b s) = .ok ({
      transactionId       := tid
      binding             := b
      sourceDirectory     := Deployment.sourceIdentity
      quarantineDirectory := Deployment.quarantineIdentity
      journal             := s.journal
      identity            := s.identity
      bytes               := s.raw.length
      raw                 := s.raw
      sha256              := Deployment.ofBytes s.raw
    }, s) := by
  simp [intentSnapshot, intentValue, ht]

theorem Chained.put_intent {b : Binding} {s : QuarantinedJournal} (h : Chained strict f tid)
    (hn : f.lookup (.record tid .intent) = none) (ht : tid = Deployment.ofBinding b) :
    Chained strict (f.insert (.record tid .intent) (intentValue tid b s)) tid := by
  have hb := h.blank hn
  constructor
  case intent =>
    simp only [lookup_insert_record, and_self, if_true, Option.some.injEq]
    rintro _ rfl
    exact ⟨_, s, intentSnapshot_intentValue ht, rfl, rfl⟩
  all_goals simp [hb]

theorem Chained.put_applied {w : Intent} {s : QuarantinedJournal} (h : Chained strict f tid)
    (hi : f.lookup (.record tid .intent) = some i) (hs : intentSnapshot tid i = .ok (w, s))
    (hz : f.lookup (.record tid .finalized) = none) (hr : f.lookup (.record tid .restored) = none)
    (hb : f.lookup (.record tid .blocked) = none) :
    Chained strict (f.insert (.record tid .applied) (appliedValue tid (Deployment.ofRecord i) s))
      tid := by
  constructor
  case intent  => simpa using h.intent
  case applied => simpa using ⟨i, hi, w, s, hs, rfl⟩
  all_goals simp [hz, hr, hb]

theorem Chained.put_finalized {a : Record} (h : Chained strict f tid)
    (hi : f.lookup (.record tid .intent) = some i) (ha : f.lookup (.record tid .applied) = some a)
    (hz : validateFinalized tid (Deployment.ofRecord i) (Deployment.ofRecord a) v = .ok ())
    (hr : f.lookup (.record tid .restored) = none) (hb : f.lookup (.record tid .blocked) = none) :
    Chained strict (f.insert (.record tid .finalized) v) tid := by
  constructor
  case intent    => simpa using h.intent
  case applied   => simpa using h.applied
  case finalized => simpa using ⟨i, hi, a, ha, hz⟩
  all_goals simp [hr, hb]

theorem Chained.put_restored {a : Option Digest} (h : Chained strict f tid)
    (hi : f.lookup (.record tid .intent) = some i)
    (hv : validateRestored tid (Deployment.ofRecord i) a none v = .ok ())
    (ha : strict → a = (f.lookup (.record tid .applied)).map Deployment.ofRecord)
    (hz : f.lookup (.record tid .finalized) = none)
    (hb : f.lookup (.record tid .blocked) = none) :
    Chained strict (f.insert (.record tid .restored) v) tid := by
  constructor
  case intent   => simpa using h.intent
  case applied  => simpa using h.applied
  case restored => simpa [hz, hb] using ⟨i, hi, a, hv, ha⟩
  all_goals simp [hz, hb]

theorem Chained.put_blocked {z : Option Digest} (h : Chained strict f tid)
    (hi : f.lookup (.record tid .intent) = some i)
    (hv : validateBlocked tid (Deployment.ofRecord i)
      ((f.lookup (.record tid .applied)).map Deployment.ofRecord) z v = .ok ())
    (hz : strict → z = (f.lookup (.record tid .finalized)).map Deployment.ofRecord)
    (hr : f.lookup (.record tid .restored) = none) :
    Chained strict (f.insert (.record tid .blocked) v) tid := by
  constructor
  case intent    => simpa using h.intent
  case applied   => simpa using h.applied
  case finalized => simpa using h.finalized
  case blocked   => simpa using ⟨i, hi, z, hv, hz⟩
  all_goals simp [hr]

end Put

end Quarantine
