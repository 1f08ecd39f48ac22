import ExtManager.Coordinator.Steps
import ExtManager.Gate.Refinement

open Crash Prog Relation

namespace Coordinator

variable [Sha256] {τ π : Type} [TrafficAdapter τ] {c : Call} {op : Op}
variable {w₀ w : World τ π} {α : Type} {P : α → World τ π → Prop} {g : Gate τ} {planId : String}

-- Started in `w`, the rest `m` of an operation only makes steps of that operation, wherever it
-- ends or dies, and a value that it returns satisfies `P`.
abbrev Runs (c : Call) (op : Op) (w₀ : World τ π) (P : α → World τ π → Prop) (m : M τ π α)
    (w : World τ π) : Prop :=
  Keeps (Steps c op w₀) P m w

omit [Sha256] [TrafficAdapter τ] in
theorem wp_onGate {m : Gate.M τ α} {Q : Except Exc α → World τ π → Prop} {D : World τ π → Prop}
    (hg : w.traffic = .exposure g) : wp (onGate m) Q D w ↔
      wp m (fun v g' => Q v (w.setTraffic (.exposure g')))
        (fun g' => D (w.setTraffic (.exposure g'))) g.start := by
  have h : onGate m w =
      zoom (fun _ => g.start) (fun g w => w.setTraffic (.exposure g)) m w := by
    simp [onGate, hg]
  unfold wp
  rw [h]
  exact wp_zoom

namespace Runs

theorem row {k : Activation → M τ π α} (h : Steps c op w₀ w)
    (hk : ∀ a, w.store.activation planId = some a → Runs c op w₀ P (k a) w) :
    Runs c op w₀ P (row planId >>= k) w :=
  .lift h fun a ha => hk a (Store.row_ok_iff.mp ha)

theorem transaction {body : Store → Except Exc Store} {k : Unit → M τ π α} (h : Steps c op w₀ w)
    (hc : ∀ s, body w.store = .ok s → Commit c op w₀ w s)
    (hk : ∀ s, body w.store = .ok s → Steps c op w₀ (w.setStore s) →
      Runs c op w₀ P (k ()) (w.setStore s)) : Runs c op w₀ P (transaction body >>= k) w := by
  refine wp_bind.mpr (wp_act.mpr ⟨h, ?_⟩)
  cases hb : body w.store
  case ok s    => exact hk s hb (h.tail (.commit (hc s hb)))
  case error e => exact ⟨h, fun _ ha => nomatch ha⟩

theorem last {body : Store → Except Exc Store} (h : Steps c op w₀ w)
    (hc : ∀ s, body w.store = .ok s → Commit c op w₀ w s) :
    Runs c op w₀ (fun _ _ => True) (Coordinator.transaction body) w := by
  refine wp_act.mpr ⟨h, ?_⟩
  cases hb : body w.store
  case ok s    => exact ⟨h.tail (.commit (hc s hb)), fun _ _ => trivial⟩
  case error e => exact ⟨h, fun _ _ => trivial⟩

theorem hit {point : String} {k : Unit → M τ π α} (h : Steps c op w₀ w)
    (hk : Runs c op w₀ P (k ()) w) : Runs c op w₀ P (hit point >>= k) w := by
  refine wp_bind.mpr (wp_silent.mpr ?_)
  by_cases hp : point ∈ w.faults
  case pos => simpa [hp] using h.tail .fault
  case neg => simp only [hp, if_false]; exact hk

theorem isExposure {k : Bool → M τ π α}
    (hg : ∀ g, w.traffic = .exposure g → Runs c op w₀ P (k true) w)
    (hp : ∀ t, w.traffic = .plain t → Runs c op w₀ P (k false) w) :
    Runs c op w₀ P (isExposure >>= k) w := by
  refine .read ?_
  split
  case h_1 g h => exact hg g h
  case h_2 t h => exact hp t h

section Gate

variable {β : Type} {m : Gate.M τ β} {o : Gate.Op}

theorem gate (h : Steps c op w₀ w) (hg : w.traffic = .exposure g) (hc : GateCall op w o)
    (ho : o.ends g = (m g.start).ends) :
    Runs c op w₀ (fun a w' => ∃ g', Gate.Returned m a g g' ∧ w' = w.setTraffic (.exposure g'))
      (Coordinator.onGate m) w := by
  have hs (g') (hm : g' ∈ (m g.start).ends) : Steps c op w₀ (w.setTraffic (.exposure g')) :=
    h.tail (.gate hg hc (ho ▸ hm))
  refine (wp_onGate hg).mpr ⟨fun g' hm => hs g' (List.mem_append_left _ hm), ?_, fun a ha => ?_⟩
  · exact hs _ (List.mem_append_right _ (List.mem_singleton.mpr rfl))
  · exact ⟨_, ⟨ha, rfl⟩, rfl⟩

theorem onGate {k : β → M τ π α} (h : Steps c op w₀ w) (hg : w.traffic = .exposure g)
    (hc : GateCall op w o) (ho : o.ends g = (m g.start).ends)
    (hk : ∀ a g', Gate.Returned m a g g' → Steps c op w₀ (w.setTraffic (.exposure g')) →
      Runs c op w₀ P (k a) (w.setTraffic (.exposure g'))) :
    Runs c op w₀ P (onGate m >>= k) w :=
  .seq (gate h hg hc ho) fun a _ h ⟨g', hr, he⟩ => he ▸ hk a g' hr (he ▸ h)

-- `try` with a call of the gate in it.
theorem attemptGate {f : β → α} {k : Exc → M τ π α} (h : Steps c op w₀ w)
    (hg : w.traffic = .exposure g) (hc : GateCall op w o) (ho : o.ends g = (m g.start).ends)
    (hok : ∀ b g', Gate.Returned m b g g' → P (f b) (w.setTraffic (.exposure g')))
    (hk : ∀ e g', (m g.start).value = .error e → (m g.start).state = g' →
      Steps c op w₀ (w.setTraffic (.exposure g')) →
      Runs c op w₀ P (k e) (w.setTraffic (.exposure g'))) :
    Runs c op w₀ P (attempt (Coordinator.onGate m >>= fun b => Pure.pure (f b)) k) w := by
  have hs (g') (hm : g' ∈ (m g.start).ends) : Steps c op w₀ (w.setTraffic (.exposure g')) :=
    h.tail (.gate hg hc (ho ▸ hm))
  have hl := hs _ (List.mem_append_right _ (List.mem_singleton.mpr rfl))
  refine wp_attempt.mpr (wp_bind.mpr ((wp_onGate hg).mpr ⟨fun g' hm =>
    hs g' (List.mem_append_left _ hm), ?_⟩))
  cases hv : (m g.start).value
  case ok b =>
    refine wp_pure.mpr ⟨hl, fun a ha => ?_⟩
    injection ha with ha
    exact ha ▸ hok b _ ⟨hv, rfl⟩
  case error e => exact hk e _ hv rfl hl

end Gate

theorem plain {f : π → Except Exc Unit × π} {t : π} (h : Steps c op w₀ w)
    (ht : w.traffic = .plain t) :
    Runs c op w₀ (fun _ w' => ∃ t', w' = w.setTraffic (.plain t')) (Coordinator.onPlain f) w := by
  refine wp_act.mpr ⟨h, ?_⟩
  simp only [ht]
  exact ⟨h.tail (.plain ht), fun _ _ => ⟨_, rfl⟩⟩

theorem onPlain {f : π → Except Exc Unit × π} {k : Unit → M τ π α} {t : π}
    (h : Steps c op w₀ w) (ht : w.traffic = .plain t)
    (hk : ∀ t', Steps c op w₀ (w.setTraffic (.plain t')) →
      Runs c op w₀ P (k ()) (w.setTraffic (.plain t'))) : Runs c op w₀ P (onPlain f >>= k) w :=
  .seq (plain h ht) fun _ _ h ⟨t', he⟩ => he ▸ hk t' (he ▸ h)

end Runs

section Transactions

omit [Sha256] in
theorem ok_of_bind {β γ : Type} {m : Except Exc β} {f : β → Except Exc γ} {r : γ}
    (h : m >>= f = .ok r) : ∃ b, m = .ok b ∧ f b = .ok r := by
  cases m
  case ok b    => exact ⟨b, rfl, h⟩
  case error e => contradiction

variable {s s' : Store} {target : State}

-- A transition with the rows that the transaction writes before and after it.
theorem commit_transition (older newer : List JournalRow) (outcomes : List RollbackOutcome)
    (hid : op.planId = planId)
    (hs : Store.transition { w.store with
      journal  := older ++ w.store.journal
      outcomes := outcomes ++ w.store.outcomes } planId target = .ok s)
    (hs' : s' = { s with journal := newer ++ s.journal })
    (hr : ∀ b, JournalRow.Moved planId b target (newer ++ .moved planId b target :: older))
    (hc : Cause op w₀ w target) (ho : Concludes op w₀ target outcomes) : Commit c op w₀ w s' := by
  have ⟨a, ha, ht, he⟩ := Store.transition_ok_iff.mp hs
  subst hid hs' he
  have h : Commit c op w₀ w (w.store.shift op.planId { a with state := target }
      (newer ++ .moved op.planId a.state target :: older) outcomes) :=
    .shift ha ht (hr _) hc ho
  simpa [Store.shift, Store.setActivation, JournalRow.moved] using h

theorem commit_transition_log {kind : JournalKind} {operation : String} {detail : Json}
    (hid : op.planId = planId)
    (hs : (do
      let s ← w.store.transition planId target
      pure (s.log planId kind operation detail)) = .ok s)
    (hr : ∀ b, JournalRow.Moved planId b target
      [⟨planId, kind, operation, detail⟩, .moved planId b target])
    (hc : Cause op w₀ w target) (ho : target.concluded = false) : Commit c op w₀ w s := by
  have ⟨s', hs', he⟩ := ok_of_bind hs
  injection he with he
  exact commit_transition [] [_] [] hid hs' he.symm hr hc (.going ho)

theorem commit_note {operation : String} {detail : Json} {a : Activation}
    (hid : op.planId = planId) (ha : w.store.activation planId = some a)
    (ho : operation = "rollback.host" ∨ operation = "rollback.traffic")
    (hs : Except.ok (w.store.log planId .receipt operation detail) = (.ok s : Except Exc Store)) :
    Commit c op w₀ w s := by
  injection hs with hs
  subst hs hid
  exact .note ha ho

end Transactions

theorem prepare_runs (h : Steps c op w₀ w) (hid : op.planId = planId) :
    Runs c op w₀ (fun _ _ => True) (prepare c planId) w := by
  unfold prepare
  refine Runs.row h fun a ha => Runs.transaction h (fun s hs => ?_) fun s hs h => ?_
  · exact commit_transition_log hid hs (fun _ => .prepare) (.other (.inl ⟨rfl, by simp⟩)) rfl
  refine Runs.hit h <| .lift h fun receipt _ => Runs.hit h ?_
  refine Runs.transaction h (fun s' hs' => ?_) fun s' hs' h => ?_
  · exact commit_transition [_] [] [] hid hs' rfl (fun _ => .prepared)
      (.other (.inl ⟨rfl, by simp⟩)) (.going rfl)
  refine Runs.isExposure (fun g hg => ?_) (fun t _ => .pure h trivial)
  have ⟨a', ha', hst⟩ := Store.activation_of_transition hs'
  exact (Runs.gate h hg (.close (hid ▸ ha') (by simp [hst, State.live])) rfl).mono
    fun _ _ _ => trivial

omit [Sha256] in
theorem launchWal_ok {launchId : String} {s s' : Store} (h : launchWal planId launchId s = .ok s') :
    ∃ a, s.activation planId = some a ∧ a.state = .prepared ∧
      s' = s.shift planId { a with state := .launching, launchId := some launchId }
        [⟨planId, .wal, "launch", .obj [("launch_id", .str launchId)]⟩,
          .moved planId .prepared .launching] [] := by
  have ⟨s₁, hs₁, h⟩ := ok_of_bind h
  have ⟨a', ha', h⟩ := ok_of_bind h
  have ⟨a, ha, ht, he⟩ := Store.transition_ok_iff.mp hs₁
  injection h with h
  subst h he
  have he : a' = { a with state := .launching } := by
    simpa [Store.row, Store.shift, Store.setActivation] using ha'.symm
  subst he
  have hst : a.state = .prepared := by
    revert ht
    cases a.state <;> simp [State.transitions]
  refine ⟨a, ha, hst, ?_⟩
  simp only [Store.shift, Store.setActivation, Store.log, Store.mk.injEq, true_and, and_true, hst]
  refine ⟨funext fun id => ?_, rfl⟩
  by_cases he : id = planId <;> simp [he]

theorem launch_runs {launchId : String} (h : Steps c op w₀ w) (hop : op = .launch planId launchId) :
    Runs c op w₀ (fun _ _ => True) (launch c planId launchId) w := by
  unfold launch
  have hid : planId = op.planId := by rw [hop]; rfl
  subst hid
  refine Runs.row h fun a ha => Runs.transaction h (fun s hs => ?_) fun s hs h => ?_
  all_goals have ⟨b, hb, hp, he⟩ := launchWal_ok hs
  · exact he ▸ .launch hb hp
  refine Runs.hit h <| .lift h fun inventory _ => Runs.hit h <| Runs.last h fun s' hs' => ?_
  have ⟨s₁, hi, ht⟩ := ok_of_bind hs'
  have ⟨b', hb', _, he'⟩ := Store.transition_ok_iff.mp ht
  have hact : s.activation op.planId =
      some { b with state := .launching, launchId := some launchId } := by
    simp [he, Store.shift, Store.setActivation]
  have hb'' : b' = { b with state := .launching, launchId := some launchId } := by
    have : s₁.activation = s.activation := by
      simp only [Store.setInventory] at hi
      split at hi
      case isTrue  => injection hi with hi; rw [← hi]; rfl
      case isFalse => contradiction
    simpa [Store.log, this, hact] using hb'.symm
  subst he' hb''
  exact .launched hop hact rfl hi

theorem observe_runs {item : Attestation} {now : Option Int} (h : Steps c op w₀ w)
    (hop : op = .observe planId item now) :
    Runs c op w₀ (fun _ _ => True) (observe c planId item now) w := by
  unfold observe
  refine Runs.row h fun a ha => .raiseIf h fun ho => .lift h fun _ hv => .read <|
    .raiseIf h fun hst => Runs.last h fun s hs => ?_
  subst hop
  exact .evidence rfl ha (not_not.mp ho) hv hst hs

theorem refreshInventory_runs {inventory : List ProcessIdentity} (h : Steps c op w₀ w)
    (hop : op = .refreshInventory planId inventory) :
    Runs c op w₀ (fun _ _ => True) (refreshInventory planId inventory) w := by
  unfold refreshInventory
  refine Runs.row h fun a ha => .raiseIf h fun ho => Runs.last h fun s hs => ?_
  have ⟨s', hs', he⟩ := ok_of_bind hs
  injection he with he
  subst hop he
  exact .refresh rfl ha (not_not.mp ho) hs'

theorem resumeObserving_runs (h : Steps c op w₀ w) (hid : op.planId = planId) :
    Runs c op w₀ (fun _ _ => True) (resumeObserving planId) w :=
  Runs.last h fun _ hs =>
    commit_transition [] [] [] hid hs rfl (fun _ => .bare rfl) (.other (.inl ⟨rfl, by simp⟩))
      (.going rfl)

omit [Sha256] in
theorem Cause.congr [Sha256] {w' : World τ π} {target : State} (h : Cause op w₀ w target)
    (ht : w'.traffic = w.traffic) : Cause op w₀ w' target := by
  cases h
  case other h                  => exact .other h
  case plain h hl               => exact .plain (ht.trans h) hl
  case opened ha hp hn h₀ h hr  => exact .opened ha hp hn h₀ (ht.trans h) hr
  case reopened h₀ h hr         => exact .reopened h₀ (ht.trans h) hr
  case rolledBack h₀ h hr he    => exact .rolledBack h₀ (ht.trans h) hr he
  case failClosed h hr hc       => exact .failClosed (ht.trans h) hr hc
  case reconciled h₀ h hr hs    => exact .reconciled h₀ (ht.trans h) hr hs
  case hostFailed ho hf h₀ h hr hs => exact .hostFailed ho hf h₀ (ht.trans h) hr hs

-- A fail-close makes a rollback fail safe, or leaves it unknown.
theorem Cause.of_failClose {n : Int} {reason : String} {res : FailCloseResult} {g' : Gate τ}
    {hostFailed : Bool} (ht : w.traffic = .exposure g')
    (hr : Gate.Returned (Gate.failClose n reason) res g g') :
    Cause op w₀ w (rollbackTarget hostFailed res.classification) := by
  rcases (Gate.failClosed_of_returned hr).right with ⟨hc, _⟩ | hc
  · have he : rollbackTarget hostFailed res.classification = .failedSafe := by
      simp [rollbackTarget, hc]
    exact he ▸ .failClosed ht hr hc
  · have he : rollbackTarget hostFailed res.classification = .safetyUnknown := by
      simp [rollbackTarget, hc]
    exact he ▸ .other (.inr rfl)

section Rollback

variable {plan : Plan} {a : Activation}

omit [Sha256] in
theorem rollbackTarget_concluded {hostFailed : Bool} {outcome : RollbackClass} :
    (rollbackTarget hostFailed outcome).concluded := by
  unfold rollbackTarget
  split
  · rfl
  split <;> rfl

-- The gate's part of a rollback leaves the tables alone and gives a cause for the plan's target.
theorem rollbackOnGate_runs {hostFailed : Bool} (h : Steps c op w₀ w) (hg : w.traffic = .exposure g)
    (h₀ : w₀.traffic = .exposure g) (ha : w.store.activation op.planId = some a)
    (hs : a.state.live) :
    Runs c op w₀ (fun r w' => w'.store = w.store ∧ Cause op w₀ w' (rollbackTarget hostFailed r.1))
      (rollbackOnGate plan hostFailed) w := by
  unfold rollbackOnGate
  -- an exception of the first call leaves a gate of which nothing is known
  have herr {e : Exc} {g' : Gate τ} (h : Steps c op w₀ (w.setTraffic (.exposure g'))) :
      Runs c op w₀
        (fun r w' => w'.store = w.store ∧ Cause op w₀ w' (rollbackTarget hostFailed r.1))
        (attempt
          (do
            let res ← onGate
              (Gate.failClose (plan.predecessor.generation + 1) "traffic rollback failed")
            pure (res.classification, some e.str))
          fun e' => pure (.safetyUnknown, some (e.str ++ "; fail-close: " ++ e'.str)))
        (w.setTraffic (.exposure g')) := by
    refine Runs.attemptGate h rfl (.failClose ha hs) ends_void (fun res g' hr => ⟨rfl, ?_⟩)
      fun e g' _ _ h => .pure h ⟨rfl, .other (.inr rfl)⟩
    exact .of_failClose rfl hr
  cases hostFailed
  case true =>
    refine Runs.attemptGate h hg (.failClose ha hs) ends_void (fun res g' hr => ⟨rfl, ?_⟩)
      fun e g' _ _ h => herr h
    exact .of_failClose rfl hr
  case false =>
    refine Runs.attemptGate h hg (.rollback ha hs) ends_void (fun o g' hr => ⟨rfl, ?_⟩)
      fun e g' _ _ h => herr h
    exact .rolledBack h₀ rfl hr rfl

theorem rollbackExposure_runs {hostOutcome : Json} {hostError : Option String}
    (h : Steps c op w₀ w) (hid : op.planId = planId) (hg : w.traffic = .exposure g)
    (h₀ : w₀.traffic = .exposure g) (ha : w.store.activation planId = some a)
    (hs : a.state = .rollback) :
    Runs c op w₀ (fun _ _ => True) (rollbackExposure planId plan hostOutcome hostError) w := by
  subst hid
  unfold rollbackExposure
  refine .seq (rollbackOnGate_runs h hg h₀ ha (by simp [hs, State.live])) fun r w' h ⟨hw, hc⟩ => ?_
  refine Runs.hit h <| Runs.transaction h (fun s hs => ?_) fun s hs h => ?_
  · exact commit_note rfl (hw ▸ ha) (.inr rfl) hs
  · refine Runs.transaction h (fun s hs => ?_) fun _ _ h => .pure h trivial
    exact commit_transition [] [] [_] rfl hs rfl (fun _ => .bare (State.logged_of_concluded rollbackTarget_concluded)) (hc.congr rfl)
      (.recorded rollbackTarget_concluded)

variable [TrafficGate π]

theorem rollbackPlain_runs {t : π} {hostOutcome : Json} {hostError : Option String}
    (h : Steps c op w₀ w) (hid : op.planId = planId) (ht : w.traffic = .plain t) :
    Runs c op w₀ (fun _ _ => True) (rollbackPlain planId plan hostOutcome hostError) w := by
  unfold rollbackPlain
  refine .seq (R := fun _ w' => ∃ t', w'.traffic = .plain t') ?_ fun error w' h ⟨t', ht'⟩ => ?_
  · cases hostError
    case some e =>
      refine wp_attempt.mpr (wp_bind.mpr (wp_raise.mpr (wp_pure.mpr ⟨h, fun _ _ => ⟨t, ht⟩⟩)))
    case none =>
      refine wp_attempt.mpr (wp_bind.mpr (wp_act.mpr ⟨h, ?_⟩))
      simp only [ht]
      cases (TrafficGate.restore plan.predecessor t).1
      all_goals exact wp_pure.mpr ⟨h.tail (.plain ht), fun _ _ => ⟨_, rfl⟩⟩
  cases error
  case some e =>
    refine Runs.transaction h (fun s hs => ?_) fun _ _ h => .raise h
    exact commit_transition [] [] [_] hid hs rfl (fun _ => .bare rfl) (.plain ht' rfl) (hid ▸ .recorded rfl)
  case none =>
    refine Runs.transaction h (fun s hs => ?_) fun _ _ h => .pure h trivial
    exact commit_transition [_] [] [_] hid hs rfl (fun _ => .restored) (.plain ht' rfl)
      (hid ▸ .recorded rfl)

theorem rollback_runs {reason : String} (h : Steps c op w₀ w) (hid : op.planId = planId)
    (ht : w.traffic = w₀.traffic) :
    Runs c op w₀ (fun _ _ => True) (rollback c planId reason) w := by
  unfold rollback
  refine Runs.row h fun a ha => Runs.transaction h (fun s hs => ?_) fun s hs h => ?_
  · exact commit_transition_log hid hs (fun _ => .rollback) (.other (.inl ⟨rfl, by simp⟩)) rfl
  have ⟨s', hs', he⟩ := ok_of_bind hs
  have ⟨a', ha', hst⟩ := Store.activation_of_transition hs'
  injection he with he
  have ha : s.activation planId = some a' := he ▸ ha'
  refine .read <| Runs.transaction h (fun s hs => commit_note hid ha (.inl rfl) hs)
    fun s hs h => ?_
  injection hs with hs
  subst hs
  refine Runs.isExposure (fun g hg => ?_) fun t ht' => ?_
  · exact rollbackExposure_runs h hid hg (ht.symm.trans hg) ha hst
  · exact rollbackPlain_runs h hid ht'

theorem externalLeaseLost_runs (h : Steps c op w₀ w) (hid : op.planId = planId)
    (ht : w.traffic = w₀.traffic) :
    Runs c op w₀ (fun _ _ => True) (externalLeaseLost c planId) w := by
  unfold externalLeaseLost
  refine Runs.row h fun a ha => Runs.transaction h (fun s hs => ?_) fun s hs h => ?_
  · exact commit_transition [] [] [] hid hs rfl (fun _ => .bare rfl) (.other (.inl ⟨rfl, by simp⟩))
      (.going rfl)
  refine .ite (fun _ => Runs.transaction h (fun s hs => ?_) fun _ _ h => .pure h trivial)
    fun _ => rollback_runs h hid ht
  exact commit_transition [] [] [] hid hs rfl (fun _ => .bare rfl) (.other (.inl ⟨rfl, by simp⟩))
      (.going rfl)

end Rollback

omit [Sha256] in
theorem commitWal_ok {plan : Plan} {expected : Int} {s s' : Store}
    (h : commitWal planId plan expected s = .ok s') :
    ∃ a, s.activation planId = some a ∧ .commitReady ∈ a.state.transitions ∧
      s.generation = expected ∧ plan.predecessor.generation = expected ∧
      s' = { s.shift planId { a with state := .commitReady }
        [⟨planId, .wal, "commit", .obj [("from", .int expected)]⟩,
          .moved planId a.state .commitReady] [] with
        generation := s.generation + 1 } := by
  have ⟨s₁, hs₁, h⟩ := ok_of_bind h
  have ⟨a, ha, ht, he⟩ := Store.transition_ok_iff.mp hs₁
  subst he
  simp only [Store.bump] at h
  split at h
  case isTrue hg =>
    injection h with h
    exact ⟨a, ha, ht, hg.left, hg.right, h.symm⟩
  case isFalse => contradiction

variable [TrafficGate π]

theorem commit_runs {expected : Int} :
    Runs c (.commit planId expected) w (fun _ _ => True) (commit c planId expected) w := by
  have h : Steps c (.commit planId expected) w w := .refl
  unfold commit
  refine Runs.row h fun a ha => .ite (fun _ => ?_) fun _ => ?_
  · exact .seq (externalLeaseLost_runs h rfl rfl) fun _ _ h _ => .raise h
  refine .read <| .raiseIf h fun hc => Runs.transaction h (fun s hs => ?_) fun s hs h => ?_
  all_goals obtain ⟨a', ha', ht, hg, hp, he⟩ := commitWal_ok hs
  all_goals have hact : a' = a := Option.some.inj (ha'.symm.trans ha)
  all_goals subst hact
  · exact .wal rfl rfl ha ht (not_not.mp hc) hg hp he
  -- the traffic effect, and with it the cause for the plan to be effective
  refine Runs.hit h <| .seq (R := fun _ w' => Cause (.commit planId expected) w w' .effective) ?_
    fun _ w' h hc => Runs.hit h <| Runs.transaction h (fun s hs => ?_) fun _ _ h =>
      .read <| .pure h trivial
  · refine Runs.isExposure (fun g hg' => ?_) fun t ht => ?_
    · refine .raiseIf h fun _ => .lift h fun proof _ => ?_
      have hact : s.activation planId = some { a' with state := .commitReady } := by
        simp [he, Store.shift, Store.setActivation]
      have hlt : a'.plan.predecessor.generation < s.generation := by
        simp only [he]
        omega
      refine Runs.onGate h hg' (.open hact rfl hlt) ends_void fun _ g' hr h => .pure h ?_
      exact .opened ha' (hp.trans hg.symm) (by rw [hp]) hg' rfl hr
    · refine (Runs.plain h ht).mono fun _ w' hw => ?_
      obtain ⟨t', he⟩ := hw
      exact .plain (t := t') (by simp [he]) rfl
  · exact commit_transition [_] [] [] rfl hs rfl (fun _ => .effective) hc (.going rfl)

section Recover

variable {plan : Plan} {a : Activation}

omit [TrafficGate π] in
theorem recoverTarget_runs {host : Option Json} {state : GateState} {g₀ : Gate τ}
    (h : Steps c op w₀ w) (ho : op = .recover planId) (h₀ : w₀.traffic = .exposure g₀)
    (hg : w.traffic = .exposure g) (ha : w.store.activation planId = some a)
    (hs : a.state.live) (hr : Gate.Returned Gate.reconcile state g₀ g)
    (hhost : ∀ detail, host = some detail → hostFailed detail → HostFailed w₀ planId) :
    Runs c op w₀ (fun r w' => w'.store = w.store ∧ r.2.concluded ∧ Cause op w₀ w' r.2)
      (recoverTarget plan host state) w := by
  have ha : w.store.activation op.planId = some a := by rw [ho]; exact ha
  unfold recoverTarget
  cases host
  case none =>
    refine Runs.onGate h hg (.failClose ha hs) ends_void fun res g' hr h => .pure h ⟨rfl, ?_⟩
    rcases (Gate.failClosed_of_returned hr).right with ⟨hc, _⟩ | hc
    · simpa [hc] using ⟨rfl, .failClosed rfl hr hc⟩
    · simpa [hc] using ⟨rfl, .other (.inr rfl)⟩
  case some detail =>
    refine .ite (fun _ => .pure h ⟨rfl, rfl, .other (.inr rfl)⟩) fun hu => ?_
    refine .ite (fun hf => .pure h ⟨rfl, rfl, ?_⟩) fun _ => ?_
    · rcases hf with hf | hf
      · exact .reconciled h₀ hg hr (.inl ⟨hf, rfl⟩)
      · exact .hostFailed ho (hhost detail rfl hf) h₀ hg hr hu
    refine .ite (fun hb => .pure h ⟨rfl, rfl, .reconciled h₀ hg hr (.inr ⟨hb, rfl⟩)⟩) fun _ => ?_
    refine Runs.onGate h hg (.failClose ha hs) ends_void fun res g' hr h => .pure h ⟨rfl, ?_⟩
    rcases (Gate.failClosed_of_returned hr).right with ⟨hc, _⟩ | hc
    · simpa [hc] using ⟨rfl, .failClosed rfl hr hc⟩
    · simpa [hc] using ⟨rfl, .other (.inr rfl)⟩

omit [TrafficGate π] in
theorem recoverRollback_runs (ha : w.store.activation planId = some a) (hs : a.state = .rollback)
    (hg : w.traffic = .exposure g) :
    Runs c (.recover planId) w (fun _ _ => True) (recoverRollback planId plan) w := by
  have h : Steps c (.recover planId) w w := .refl
  have hl : a.state.live := by simp [hs, State.live]
  unfold recoverRollback
  refine .read <| Runs.onGate h hg (.reconcile ha hl) ends_void fun state g' hr h => ?_
  refine .seq (recoverTarget_runs h rfl hg rfl ha hl hr fun detail hd hf => ?_)
    fun r w' h ⟨hw, hset, hc⟩ => Runs.transaction h (fun s hs => ?_) fun _ _ h => .pure h trivial
  · exact ⟨⟨a, ha, hs⟩, detail, hd, hf⟩
  · exact commit_transition [_] [] [_] rfl hs rfl
      (fun _ => .recovered (State.logged_of_concluded hset)) hc (.recorded hset)

omit [TrafficGate π] in
theorem recoverCommit_runs (ha : w.store.activation planId = some a) (hs : a.state = .commitReady)
    (hg : w.traffic = .exposure g) :
    Runs c (.recover planId) w (fun _ _ => True) (recoverCommit planId plan) w := by
  have h : Steps c (.recover planId) w w := .refl
  have hl : a.state.live := by simp [hs, State.live]
  unfold recoverCommit
  refine Runs.onGate h hg (.reconcile ha hl) ends_void fun state g' hr h => ?_
  refine .ite (fun ho => ?_) fun _ => .when (fun _ => ?_) fun _ => ?_
  · refine Runs.transaction h (fun s hs => ?_) fun _ _ h => .pure h trivial
    exact commit_transition [_] [] [] rfl hs rfl (fun _ => .reopened) (.reopened hg rfl (ho ▸ hr))
      (.going rfl)
  · refine .seq (Keeps.void (Runs.gate h rfl (.rollback ha hl) ends_void)) fun _ w' h _ => ?_
    refine Runs.transaction h (fun s hs => ?_) fun _ _ h => Runs.row h fun _ _ => .pure h trivial
    exact commit_transition_log rfl hs (fun _ => .recovery) (.other (.inl ⟨rfl, by simp⟩)) rfl
  · refine Runs.transaction h (fun s hs => ?_) fun _ _ h => Runs.row h fun _ _ => .pure h trivial
    exact commit_transition_log rfl hs (fun _ => .recovery) (.other (.inl ⟨rfl, by simp⟩)) rfl

omit [TrafficGate π] in
theorem recoverPreOpen_runs {state : State} (ha : w.store.activation planId = some a)
    (hl : a.state.live) (hg : w.traffic = .exposure g) :
    Runs c (.recover planId) w (fun _ _ => True) (recoverPreOpen planId plan state) w := by
  unfold recoverPreOpen
  refine Runs.onGate .refl hg (.rollback ha hl) ends_void fun _ g' _ h => ?_
  refine Runs.transaction h (fun s hs => ?_) fun _ _ h => Runs.row h fun _ _ => .pure h trivial
  exact commit_transition_log rfl hs (fun _ => .recovery) (.other (.inl ⟨rfl, by simp⟩)) rfl

theorem recover_runs : Runs c (.recover planId) w (fun _ _ => True) (recover planId) w := by
  have h : Steps c (.recover planId) w w := .refl
  unfold recover
  refine Runs.row h fun a ha => Runs.isExposure (fun g hg => ?_) fun t ht => ?_
  case refine_1 =>
    cases hs : a.state
    case rollback    => exact recoverRollback_runs ha hs hg
    case commitReady => exact recoverCommit_runs ha hs hg
    case preparing | launching | observing =>
      exact recoverPreOpen_runs ha (by simp [hs, State.live]) hg
    all_goals exact Runs.row h fun _ _ => .pure h trivial
  case refine_2 =>
    cases hs : a.state
    case rollback =>
      have hs' := hs
      refine Runs.transaction h (fun s hs => ?_) fun _ _ h => .pure h trivial
      exact commit_transition [] [] [] rfl hs rfl (fun _ => .bare rfl) (.plain ht rfl)
        (.unrecorded ⟨planId, a, t, rfl, ha, hs', ht⟩ rfl)
    case observing =>
      refine Runs.onPlain h ht fun t' h => Runs.transaction h (fun s hs => ?_)
        fun _ _ h => Runs.row h fun _ _ => .pure h trivial
      exact commit_transition [] [] [] rfl hs rfl (fun _ => .bare rfl)
        (.other (.inl ⟨rfl, by simp⟩)) (.going rfl)
    case preparing | launching | commitReady =>
      refine Runs.onPlain h ht fun t' h => Runs.transaction h (fun s hs => ?_)
        fun _ _ h => Runs.row h fun _ _ => .pure h trivial
      exact commit_transition_log rfl hs (fun _ => .recovery) (.other (.inl ⟨rfl, by simp⟩)) rfl
    all_goals exact Runs.row h fun _ _ => .pure h trivial

end Recover

theorem plan_runs {plan : Plan} :
    Runs c (.plan plan) w (fun _ _ => True) (Coordinator.plan plan) w := by
  have h : Steps c (.plan plan) w w := .refl
  unfold Coordinator.plan
  refine .raiseIf h fun ho => Runs.transaction h (fun s hs => ?_) fun s hs h => ?_
  · have ⟨hne, hall⟩ := not_or.mp ho
    exact .insert rfl hne (by simpa using hall) hs
  have ha : s.activation plan.planId = some ⟨plan, .planned, none⟩ := by
    simp only [Store.insert] at hs
    split at hs
    case h_1 => contradiction
    case h_2 =>
      injection hs with hs
      simp [← hs, Store.log, Store.setActivation]
  refine Runs.isExposure (fun g hg => ?_) fun t ht => ?_
  · refine .seq (R := fun _ _ => True) ?_ fun _ _ h _ => .pure h trivial
    refine Runs.attemptGate h hg (.stage rfl ha) ends_void (fun _ _ _ => trivial)
      fun e g' he hg' h => Runs.transaction h (fun s' hs' => ?_) fun _ _ h => .raise h
    injection hs' with hs'
    exact hs' ▸ .delete rfl hs hg rfl he hg'
  · exact Runs.onPlain h ht fun _ h => .pure h trivial

-- Whatever an operation does, and wherever it stops, it got there in steps.
theorem Op.steps_of_ends {w' : World τ π} (h : w' ∈ op.ends c w) : Steps c op w w' := by
  suffices hr : Runs c op w (fun _ _ => True) (op.run c) w from hr.ends w' h
  cases op
  case plan              => exact plan_runs.void
  case prepare           => exact prepare_runs .refl rfl
  case launch            => exact launch_runs .refl rfl
  case observe           => exact observe_runs .refl rfl
  case refreshInventory  => exact refreshInventory_runs .refl rfl
  case commit            => exact commit_runs.void
  case recover           => exact recover_runs.void
  case resumeObserving   => exact resumeObserving_runs .refl rfl
  case rollback          => exact (rollback_runs .refl rfl rfl).void
  case externalLeaseLost => exact (externalLeaseLost_runs .refl rfl rfl).void

end Coordinator
