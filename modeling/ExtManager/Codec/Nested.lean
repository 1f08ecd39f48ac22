import ExtManager.Codec.Fallible
import ExtManager.Codec.Scanner

-- What a reader does inside of a value that is not closed yet.
namespace Scanner

variable {ε : Type} {d : Dialect ε} {σ σ' : Config} {t : Text} {c : Nat} {v : Value} {e : ε}
variable {stack base : List Frame}

theorem run_eq : run d σ t = t.foldlM (step d) σ >>= finish d := by
  induction t generalizing σ with
  | nil         => rfl
  | cons c t ih =>
    rw [run, List.foldlM_cons]
    cases step d σ c
    case error => rfl
    case ok    => exact ih

-- What is raised is raised by some step, or at the end.
theorem run_error : run d σ t = .error e ↔
    (∃ before c after σ', t = before ++ c :: after ∧ before.foldlM (step d) σ = .ok σ' ∧
      step d σ' c = .error e) ∨
    ∃ σ', t.foldlM (step d) σ = .ok σ' ∧ finish d σ' = .error e := by
  rw [run_eq, Fallible.bind_error, Fallible.foldlM_error_iff]

def Mode.ended : Mode → Bool
  | .done _ | .rest _ => true
  | _                 => false

-- A bracket is open whatever the stack is.
def Mode.opens : Mode → Bool
  | .first | .key _ _ | .colon _ _ | .item _ | .field _     => true
  | .text role _ _ | .escape role _ _ | .hex role _ _ _ _   => role.isSome
  | .value | .bare _ | .done _ | .rest _                    => false

structure Config.Inside (σ : Config) : Prop where
  going  : σ.mode.ended = false
  within : σ.mode.opens ∨ σ.stack ≠ []

def Config.Done (σ : Config) : Prop :=
  ∃ v, σ = ⟨.done v, []⟩

-- What has been read stands in the place of a value above the stack.
def Config.lift (base : List Frame) : Config → Config
  | ⟨.done v, []⟩  => complete v base
  | ⟨mode, stack⟩ => ⟨mode, stack ++ base⟩

theorem Config.lift_of_going (h : σ.mode.ended = false) :
    σ.lift base = ⟨σ.mode, σ.stack ++ base⟩ := by
  obtain ⟨mode, stack⟩ := σ
  cases mode
  case done => cases h
  all_goals rfl

theorem complete_inside (h : stack ≠ []) : (complete v stack).Inside := by
  cases stack
  case nil => exact absurd rfl h
  case cons frame stack =>
    cases frame
    all_goals exact ⟨rfl, .inl rfl⟩

theorem complete_cases : (complete v stack).Inside ∨ (complete v stack).Done := by
  cases stack
  case nil  => exact .inr ⟨v, rfl⟩
  case cons => exact .inl (complete_inside (List.cons_ne_nil _ _))

theorem lift_complete : (complete v stack).lift base = complete v (stack ++ base) := by
  cases stack
  case nil => rfl
  case cons frame stack =>
    cases frame
    all_goals rfl

theorem Config.Inside.lift (h : σ.Inside) : (σ.lift base).Inside := by
  rw [lift_of_going h.going]
  exact ⟨h.going, h.within.imp_right fun hs hn => hs (List.append_eq_nil_iff.mp hn).left⟩

theorem Config.Done.lift (h : σ.Done) (hb : base ≠ []) : (σ.lift base).Inside := by
  obtain ⟨v, rfl⟩ := h
  exact complete_inside hb

section Step

theorem start_inside (h : start d c stack = .ok σ) (hs : stack ≠ []) : σ.Inside := by
  unfold start at h
  repeat' split at h
  all_goals cases h
  all_goals exact ⟨rfl, .inr hs⟩

theorem endObject_cases {fields : Fields} (h : endObject d fields stack = .ok σ) :
    σ.Inside ∨ σ.Done := by
  have ⟨_, _, h⟩ := bind_eq_ok.mp h
  cases h
  exact complete_cases

theorem after_cases (h : after d σ c = .ok σ') (hσ : σ.Inside) : σ'.Inside ∨ σ'.Done := by
  unfold after at h
  split at h
  case h_1 =>
    repeat' split at h
    all_goals cases h
    · exact .inl ⟨rfl, .inr (List.cons_ne_nil _ _)⟩
    · exact complete_cases
  case h_2 =>
    repeat' split at h
    · cases h
      exact .inl ⟨rfl, .inl rfl⟩
    · exact endObject_cases h
    · cases h
  case h_3 v he => exact absurd hσ.going (by simp [he, Mode.ended])
  case h_4 => cases h

-- A value is left only behind its last character.
theorem step_cases (h : step d σ c = .ok σ') (hσ : σ.Inside) : σ'.Inside ∨ σ'.Done := by
  obtain ⟨mode, stack⟩ := σ
  have hw := hσ.within
  cases mode
  case value =>
    have hs : stack ≠ [] := hw.resolve_left (by simp [Mode.opens])
    simp only [step] at h
    split at h
    case isTrue  => cases h; exact .inl hσ
    case isFalse => exact .inl (start_inside h hs)
  case first =>
    simp only [step] at h
    repeat' split at h
    case _ => cases h; exact .inl hσ
    case _ => cases h; exact complete_cases
    case _ => exact .inl (start_inside h (List.cons_ne_nil _ _))
  case key fields close =>
    simp only [step] at h
    repeat' split at h
    case _ => cases h; exact .inl hσ
    case _ => cases h; exact .inl ⟨rfl, .inl rfl⟩
    case _ => exact endObject_cases h
    case _ => cases h
  case colon fields name =>
    simp only [step] at h
    repeat' split at h
    case _ => cases h; exact .inl hσ
    case _ => cases h; exact .inl ⟨rfl, .inr (List.cons_ne_nil _ _)⟩
    case _ => cases h
  case item | field =>
    simp only [step] at h
    split at h
    case isTrue  => cases h; exact .inl hσ
    case isFalse => exact after_cases h hσ
  case bare token =>
    have hs : stack ≠ [] := hw.resolve_left (by simp [Mode.opens])
    simp only [step] at h
    split at h
    case isTrue  => cases h; exact .inl ⟨rfl, .inr hs⟩
    case isFalse =>
      obtain ⟨v, _, h⟩ := bind_eq_ok.mp h
      split at h
      case isTrue  => cases h; exact complete_cases
      case isFalse => exact after_cases h (complete_inside hs)
  case text role acc pending =>
    simp only [step] at h
    repeat' split at h
    case _ =>
      cases role
      case none   => cases h; exact complete_cases
      case some f =>
        obtain ⟨_, _, h⟩ := bind_eq_ok.mp h
        cases h
        exact .inl ⟨rfl, .inl rfl⟩
    case _ => cases h; exact .inl ⟨rfl, hw⟩
    case _ => cases h
    case _ => cases h; exact .inl ⟨rfl, hw⟩
  case escape role acc pending =>
    simp only [step] at h
    repeat' split at h
    all_goals cases h
    all_goals exact .inl ⟨rfl, hw⟩
  case hex role acc pending left unit =>
    simp only [step] at h
    repeat' split at h
    all_goals cases h
    case _ => exact .inl ⟨rfl, hw⟩
    case _ =>
      unfold addUnit
      repeat' split
      all_goals exact .inl ⟨rfl, hw⟩
  case done | rest => exact absurd hσ.going (by simp [Mode.ended])

theorem finish_inside (hσ : σ.Inside) : finish d σ ≠ .ok v := by
  obtain ⟨mode, stack⟩ := σ
  intro h
  cases mode
  case bare token =>
    have hs : stack ≠ [] := hσ.within.resolve_left nofun
    have ⟨_, _, h⟩ := bind_eq_ok.mp h
    rw [if_neg (by simpa using hs)] at h
    cases h
  case done | rest => exact absurd hσ.going (by simp [Mode.ended])
  all_goals cases h

end Step

section Lift

theorem start_lift : start d c (stack ++ base) = (start d c stack).map (Config.lift base) := by
  unfold start
  repeat' split
  all_goals rfl

theorem endObject_lift {fields : Fields} : endObject d fields (stack ++ base) =
    (endObject d fields stack).map (Config.lift base) := by
  unfold endObject
  cases d.object fields
  case error => rfl
  case ok    => exact congrArg Except.ok lift_complete.symm

theorem endText_lift {role : Option Fields} : endText d role t (stack ++ base) =
    (endText d role t stack).map (Config.lift base) := by
  cases role
  case none => exact congrArg Except.ok lift_complete.symm
  case some fields =>
    simp only [endText]
    cases d.key fields t
    all_goals rfl

theorem after_lift (h : σ.Inside) :
    after d (σ.lift base) c = (after d σ c).map (Config.lift base) := by
  rw [Config.lift_of_going h.going]
  obtain ⟨mode, stack⟩ := σ
  cases mode
  case item items =>
    simp only [after]
    repeat' split
    · rfl
    · exact congrArg Except.ok lift_complete.symm
    · rfl
  case field fields =>
    simp only [after]
    repeat' split
    · rfl
    · exact endObject_lift
    · rfl
  case done => exact absurd h.going (by simp [Mode.ended])
  all_goals rfl

-- Nothing below a value takes part in reading it.
theorem step_lift (h : σ.Inside) :
    step d (σ.lift base) c = (step d σ c).map (Config.lift base) := by
  have hl : after d (σ.lift base) c = (after d σ c).map (Config.lift base) := after_lift h
  rw [Config.lift_of_going h.going] at hl ⊢
  obtain ⟨mode, stack⟩ := σ
  cases mode
  case value =>
    simp only [step]
    split
    · rfl
    · exact start_lift
  case first =>
    simp only [step]
    repeat' split
    · rfl
    · exact congrArg Except.ok lift_complete.symm
    · exact (start_lift : start d c (.arr [] :: stack ++ base) = _)
  case key fields close =>
    simp only [step]
    repeat' split
    · rfl
    · rfl
    · exact endObject_lift
    · rfl
  case colon fields name =>
    simp only [step]
    repeat' split
    all_goals rfl
  case item | field =>
    simp only [step]
    split
    · rfl
    · exact hl
  case bare token =>
    have hs : stack ≠ [] := h.within.resolve_left (by simp [Mode.opens])
    simp only [step]
    split
    · rfl
    cases literal d token.reverse
    case error => rfl
    case ok v  =>
      have hc : (complete v stack).lift base = complete v (stack ++ base) := lift_complete
      change (if isSpace c then _ else after d (complete v (stack ++ base)) c) = _
      rw [← hc, after_lift (complete_inside hs)]
      change _ = (if isSpace c then _ else after d (complete v stack) c).map (Config.lift base)
      split <;> rfl
  case text role acc pending =>
    simp only [step]
    repeat' split
    · exact endText_lift
    all_goals rfl
  case escape role acc pending =>
    simp only [step]
    repeat' split
    all_goals rfl
  case hex role acc pending left unit =>
    simp only [step]
    cases hexDigit? c
    case none => rfl
    case some =>
      dsimp only
      split
      · rfl
      · unfold addUnit
        repeat' split
        all_goals rfl
  case done | rest => exact absurd h.going (by simp [Mode.ended])

end Lift

section Torn

variable {p q r raw : Text}

theorem step_done (ht : d.trailing = false) (hσ : σ.Done) (h : step d σ c = .ok σ') :
    isSpace c ∧ σ' = σ := by
  obtain ⟨v, rfl⟩ := hσ
  simp only [step, after, ht, Bool.false_and, Bool.false_eq_true, if_false] at h
  split at h
  case isTrue hc => exact ⟨hc, (Except.ok.inj h).symm⟩
  case isFalse   => cases h

theorem spaces_of_done (ht : d.trailing = false) (hσ : σ.Done)
    (h : r.foldlM (step d) σ = .ok σ') : ∀ c ∈ r, isSpace c := by
  induction r with
  | nil         => exact nofun
  | cons c r ih =>
    rw [List.foldlM_cons] at h
    have ⟨_, hs, h⟩ := bind_eq_ok.mp h
    have ⟨hc, he⟩ := step_done ht hσ hs
    exact List.forall_mem_cons.mpr ⟨hc, ih (he ▸ h)⟩

-- A value that has more to come is read in the same way above any stack.
theorem lift_of_run (ht : d.trailing = false) (hσ : σ.Inside) (h : run d σ (q ++ r) = .ok v)
    (hl : ∀ c ∈ (q ++ r).getLast?, ¬isSpace c) : ∃ σ', (σ'.Inside ∨ σ'.Done ∧ r = []) ∧
      q.foldlM (step d) σ = .ok σ' ∧ ∀ base, q.foldlM (step d) (σ.lift base) = .ok (σ'.lift base) := by
  induction q generalizing σ with
  | nil         => exact ⟨σ, .inl hσ, rfl, fun _ => rfl⟩
  | cons c q ih =>
    have ⟨σ₁, hs, h⟩ := bind_eq_ok.mp h
    have hlift (base : List Frame) : step d (σ.lift base) c = .ok (σ₁.lift base) := by
      rw [step_lift hσ, hs]
      rfl
    rcases step_cases hs hσ with hσ₁ | hσ₁
    · have hl' : ∀ c ∈ (q ++ r).getLast?, ¬isSpace c := by
        intro c' hc'
        refine hl c' ?_
        rw [List.cons_append, List.getLast?_cons, Option.mem_def.mp hc']
        rfl
      have ⟨σ', hc, hq, hb⟩ := ih hσ₁ h hl'
      refine ⟨σ', hc, ?_, fun base => ?_⟩
      · rw [List.foldlM_cons, hs]
        exact hq
      · rw [List.foldlM_cons, hlift]
        exact hb base
    · -- only spaces may follow, and the last character is none
      have hnil : q ++ r = [] := by
        rw [run_eq] at h
        have ⟨_, h, _⟩ := bind_eq_ok.mp h
        by_contra hne
        refine hl _ ?_ (spaces_of_done ht hσ₁ h _ (List.getLast_mem hne))
        rw [List.cons_append, List.getLast?_cons, List.getLast?_eq_getLast_of_ne_nil hne]
        rfl
      obtain ⟨rfl, rfl⟩ := List.append_eq_nil_iff.mp hnil
      refine ⟨σ₁, .inr ⟨hσ₁, rfl⟩, ?_, fun base => ?_⟩
      · rw [List.foldlM_cons, hs]
        rfl
      · rw [List.foldlM_cons, hlift]
        rfl

-- An object with a key that starts with a letter, and nothing around it.
structure Record (d : Dialect ε) (raw : Text) : Prop where
  parsed : ∃ v, read d raw = .ok v
  start  : ∃ c r, raw = '\x7b'.toNat :: '"'.toNat :: c :: r ∧ isLetter c
  last   : ∀ c ∈ raw.getLast?, ¬isSpace c

-- Behind an opening brace.
def opened (stack : List Frame) : Config :=
  ⟨.key [] true, stack⟩

theorem opened_inside : (opened stack).Inside :=
  ⟨rfl, .inl rfl⟩

theorem step_brace : step d ⟨.value, stack⟩ '\x7b'.toNat = .ok (opened stack) :=
  rfl

-- What follows the brace of a record, up to any point of it.
theorem Record.prefix_cases (h : Record d ('\x7b'.toNat :: q ++ r)) (ht : d.trailing = false) :
    ∃ σ, (σ.Inside ∨ σ.Done ∧ r = []) ∧ q.foldlM (step d) (opened []) = .ok σ ∧
      ∀ base, q.foldlM (step d) (opened base) = .ok (σ.lift base) := by
  have ⟨v, hv⟩ := h.parsed
  have ⟨_, hs, hv⟩ := bind_eq_ok.mp (show run d _ (_ :: (q ++ r)) = .ok v from hv)
  cases step_brace.symm.trans hs
  refine lift_of_run ht opened_inside hv fun c hc => h.last c ?_
  rw [List.cons_append, List.getLast?_cons, Option.mem_def.mp hc]
  rfl

theorem not_stop_of_letter (h : isLetter c) : !isSpace c ∧ c ≠ ','.toNat ∧ c ≠ ']'.toNat ∧
    c ≠ '\x7d'.toNat ∧ c ≠ ':'.toNat := by
  simp only [isLetter, Bool.or_eq_true, Bool.and_eq_true, decide_eq_true_eq] at h
  simp [isSpace] at h ⊢
  omega

-- A letter does not follow a text.
theorem step_letter (hc : isLetter c) {role : Option Fields} {text : Text}
    (hw : role.isSome ∨ stack ≠ []) (h : endText d role text stack = .ok σ) :
    σ.Inside ∧ step d σ c ≠ .ok σ' := by
  obtain ⟨hs, hcomma, hbracket, hbrace, hcolon⟩ := not_stop_of_letter hc
  cases role
  case none =>
    cases h
    have hne : stack ≠ [] := hw.resolve_left (by simp)
    refine ⟨complete_inside hne, fun h => ?_⟩
    cases stack
    case nil => exact hne rfl
    case cons frame stack =>
      cases frame
      all_goals
        simp only [complete, step, after, hcomma, hbracket, hbrace, if_false] at h
        rw [if_neg (by simpa using hs)] at h
        cases h
  case some fields =>
    obtain ⟨_, _, h⟩ := bind_eq_ok.mp h
    cases h
    refine ⟨⟨rfl, .inl rfl⟩, fun h => ?_⟩
    simp only [step, hcolon, if_false] at h
    rw [if_neg (by simpa using hs)] at h
    cases h

-- A record, or the start of one, closes nothing that has been open before it.
theorem Record.nested (h : Record d raw) (ht : d.trailing = false) (hσ : σ.Inside) (hp : p <+: raw)
    (h' : p.foldlM (step d) σ = .ok σ') : σ'.Inside := by
  obtain ⟨c, rest, hraw, hc⟩ := h.start
  obtain ⟨r, hr⟩ := hp
  cases p
  case nil => cases h'; exact hσ
  case cons b q =>
    rw [hraw, List.cons_append, List.cons.injEq] at hr
    obtain ⟨rfl, hr⟩ := hr
    -- a value may begin here
    have hopen {base : List Frame} (hb : base ≠ [])
        (hq : q.foldlM (step d) (opened base) = .ok σ') : σ'.Inside := by
      rw [hraw, ← hr] at h
      have ⟨σ₁, hσ₁, _, hl⟩ := h.prefix_cases ht
      cases (hl base).symm.trans hq
      exact hσ₁.elim (fun h => h.lift) fun h => h.left.lift hb
    obtain ⟨σ₁, hs, hq⟩ := bind_eq_ok.mp (List.foldlM_cons.symm.trans h')
    clear h'
    obtain ⟨mode, stack⟩ := σ
    cases mode
    case value =>
      cases step_brace.symm.trans hs
      exact hopen (hσ.within.resolve_left nofun) hq
    case first =>
      have hb : step d ⟨.first, stack⟩ '\x7b'.toNat = .ok (opened (.arr [] :: stack)) := rfl
      cases hb.symm.trans hs
      exact hopen (List.cons_ne_nil _ _) hq
    case text role acc pending =>
      -- the brace is part of the text, the quote ends it
      cases (show step d ⟨.text role acc pending, stack⟩ '\x7b'.toNat =
        .ok ⟨.text role ('\x7b'.toNat :: flush acc pending) none, stack⟩ from rfl).symm.trans hs
      cases q
      case nil => cases hq; exact ⟨rfl, hσ.within⟩
      case cons b q =>
        obtain ⟨rfl, hr'⟩ := List.cons.inj hr
        obtain ⟨σ₂, hend, hrest⟩ := bind_eq_ok.mp (List.foldlM_cons.symm.trans hq)
        have hl (σ' : Config) : σ₂.Inside ∧ step d σ₂ c ≠ .ok σ' :=
          step_letter hc hσ.within (show endText d role _ stack = .ok σ₂ from hend)
        cases q
        case nil => cases hrest; exact (hl σ').left
        case cons b q =>
          obtain ⟨rfl, -⟩ := List.cons.inj hr'
          obtain ⟨σ₃, hletter, -⟩ := bind_eq_ok.mp (List.foldlM_cons.symm.trans hrest)
          exact absurd hletter (hl σ₃).right
    case bare token =>
      have hne : stack ≠ [] := hσ.within.resolve_left nofun
      obtain ⟨v, -, ha⟩ := bind_eq_ok.mp (show literal d token.reverse >>= _ = _ from hs)
      cases stack
      case nil => exact absurd rfl hne
      case cons frame stack =>
        cases frame
        all_goals cases (show Except.error d.malformed = .ok σ₁ from ha)
    case done | rest => exact absurd hσ.going (by simp [Mode.ended])
    case key fields close =>
      have he : step d ⟨.key fields close, stack⟩ '\x7b'.toNat = .error d.malformed := by
        cases close <;> rfl
      cases he.symm.trans hs
    all_goals cases hs

-- The start of a line that is not a line of its own.
def Broken (d : Dialect ε) (t : Text) : Prop :=
  ∀ σ, t.foldlM (step d) ⟨.value, []⟩ = .ok σ → σ.Inside ∨ σ.Done

theorem Record.broken (h : Record d raw) (ht : d.trailing = false) (hp : p <+: raw) (hne : p ≠ []) :
    Broken d p := by
  intro σ hs
  obtain ⟨c, rest, hraw, -⟩ := h.start
  obtain ⟨r, hr⟩ := hp
  cases p
  case nil => exact absurd rfl hne
  case cons b q =>
    rw [hraw, List.cons_append, List.cons.injEq] at hr
    obtain ⟨rfl, hr⟩ := hr
    rw [hraw, ← hr] at h
    have ⟨σ₁, hσ₁, hq, _⟩ := h.prefix_cases ht
    rw [List.foldlM_cons, step_brace] at hs
    cases hq.symm.trans hs
    exact hσ₁.imp_right And.left

theorem Broken.inside (hb : Broken d t) (h : Record d raw) (ht : d.trailing = false) (hp : p <+: raw)
    (hne : p ≠ []) (hs : (t ++ p).foldlM (step d) ⟨.value, []⟩ = .ok σ) : σ.Inside := by
  rw [List.foldlM_append] at hs
  have ⟨σ₁, h₁, hs⟩ := bind_eq_ok.mp hs
  rcases hb σ₁ h₁ with hσ | hσ
  · exact h.nested ht hσ hp hs
  · obtain ⟨c, rest, hraw, -⟩ := h.start
    obtain ⟨r, hr⟩ := hp
    cases p
    case nil => exact absurd rfl hne
    case cons b q =>
      rw [hraw, List.cons_append, List.cons.injEq] at hr
      obtain ⟨rfl, -⟩ := hr
      rw [List.foldlM_cons] at hs
      have ⟨_, hs, _⟩ := bind_eq_ok.mp hs
      exact absurd (step_done ht hσ hs).left (by decide)

theorem Broken.append (hb : Broken d t) (h : Record d raw) (ht : d.trailing = false) (hp : p <+: raw)
    (hne : p ≠ []) : Broken d (t ++ p) :=
  fun _ hs => .inl (hb.inside h ht hp hne hs)

-- A record behind a start that has been left is no text to read.
theorem Broken.unreadable (hb : Broken d t) (h : Record d raw) (ht : d.trailing = false) :
    read d (t ++ raw) ≠ .ok v := by
  intro hv
  have ⟨σ, hs, hf⟩ := bind_eq_ok.mp (run_eq.symm.trans hv)
  have hne : raw ≠ [] := by
    obtain ⟨_, _, hraw, -⟩ := h.start
    rw [hraw]
    exact List.cons_ne_nil _ _
  exact finish_inside (hb.inside h ht (List.prefix_refl raw) hne hs) hf

end Torn

end Scanner
