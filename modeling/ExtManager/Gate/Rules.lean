import ExtManager.Crash.Theorems
import ExtManager.Gate.Operations

open Crash Prog

namespace GateDb

variable {db : GateDb} {row : GateRow} {generation : Int} {target : GateState}
variable {operation : GateOperation} {kind : GateKind} {detail : Json} {fence : Option String}
variable {operationId : Option OperationId}

theorem getRow_ok_iff : db.getRow = .ok row ↔ db.row = some row ∧ row.schemaVersion = 2 := by
  unfold getRow
  cases db.row
  case none     => simp
  case some row' =>
    by_cases h : row'.schemaVersion = 2 <;> simp [h]
    · intro h'
      exact h' ▸ h
    · intro h' h''
      exact h (h' ▸ h'')

-- The database after a transition of `row`, with the update that follows in the same transaction.
def moved (db : GateDb) (row : GateRow) (generation : Int) (target : GateState)
    (operation : GateOperation) (kind : GateKind) (detail : Json) (fence : Option String)
    (operationId : Option OperationId) (update : Nat → GateRow → GateRow) : GateDb :=
  { db.append generation kind operation (some row.state) (some target) fence detail
      operationId with
    row := some (update db.nextSeq
      { row with state := target, transitionSeq := db.nextSeq, revision := row.revision + 1 }) }

theorem transition_ok_iff {r : Nat × GateDb} :
    db.transition generation target operation kind detail fence operationId = .ok r ↔
      ∃ row, db.getRow = .ok row ∧ row.state.accepts target ∧ r = (db.nextSeq,
        db.moved row generation target operation kind detail fence operationId fun _ row => row) := by
  unfold transition
  cases hr : db.getRow
  case error e => simp
  case ok row  =>
    have h := (getRow_ok_iff.mp hr).left
    cases ha : row.state.accepts target
    case false => simp [ha]
    case true  =>
      simp only [moved, updateRow, append, h, Option.map_some, if_true, Except.ok.injEq,
        exists_eq_left', true_and, ha]
      exact eq_comm

theorem moved_updateRow {update : Nat → GateRow → GateRow} {f : GateRow → GateRow} :
    (db.moved row generation target operation kind detail fence operationId update).updateRow f =
      db.moved row generation target operation kind detail fence operationId
        fun seq row => f (update seq row) := by
  simp [moved, updateRow]

theorem pendingRecoveryClose_eq_none : db.pendingRecoveryClose = none ↔
    ∀ t ∈ db.transitions, t.operation = .openReconcileCloseAll → t.kind = .intent →
      db.hasReceipt t.operationId := by
  simp [pendingRecoveryClose]

-- A recovery close that is not pending stays so until the next one is announced.
theorem pendingRecoveryClose_cons {db' : GateDb} {t : GateTransition}
    (h : db.pendingRecoveryClose = none) (ht : db'.transitions = t :: db.transitions)
    (hk : t.operation = .openReconcileCloseAll → t.kind ≠ .intent) :
    db'.pendingRecoveryClose = none := by
  rw [pendingRecoveryClose_eq_none] at h ⊢
  intro t' ht' ho hi
  rw [ht, List.mem_cons] at ht'
  cases ht'
  case inl he => exact absurd hi (he ▸ hk (he ▸ ho))
  case inr hm =>
    have h' := h t' hm ho hi
    simp only [hasReceipt, ht, List.any_cons, Bool.or_eq_true] at h' ⊢
    exact .inr h'

-- The operation id of a new row: no other operation takes over the id of a recovery close.
def Correlated (db : GateDb) (operation : GateOperation) (id : Option OperationId) : Prop :=
  operation = .openReconcileCloseAll ∨ ∀ i, id = some i → i.scope ≠ .openReconcileClose ∨
    ∃ t ∈ db.transitions, t.operation ≠ .openReconcileCloseAll ∧ t.operationId = i

theorem Correlated.new : db.Correlated operation none :=
  .inr (by simp)

theorem Correlated.scope {id : OperationId} (h : id.scope ≠ .openReconcileClose) :
    db.Correlated operation (some id) :=
  .inr fun _ he => .inl (Option.some.inj he ▸ h)

theorem Correlated.mem {t : GateTransition} (h : t ∈ db.transitions)
    (ho : t.operation ≠ .openReconcileCloseAll) : db.Correlated operation (some t.operationId) :=
  .inr fun _ he => .inr ⟨t, h, ho, Option.some.inj he⟩

theorem latest_mem {t : GateTransition} (h : db.latest operation kind = some t) :
    t ∈ db.transitions ∧ t.operation = operation ∧ t.kind = kind := by
  have hp := List.find?_some h
  simp only [decide_eq_true_eq] at hp
  exact ⟨List.mem_of_find?_eq_some h, hp⟩

theorem latest_of_pending {t : GateTransition} (h : db.pending operation = some t) :
    db.latest operation .intent = some t := by
  simp only [pending] at h
  split at h
  case h_1 hi _ =>
    split at h
    case isTrue  => rw [← h, hi]
    case isFalse => contradiction
  case h_2 hi _ => rw [← h, hi]
  case h_3      => contradiction

end GateDb

namespace Gate

variable {τ : Type} [TrafficAdapter τ] {g : Gate τ} {D : Gate τ → Prop} {α : Type}

-- The gate after a route query that answered `v` and left the adapter as `t`.
def queried (g : Gate τ) (v : Except Exc RouteState) (t : τ) : Gate τ :=
  match v with
  | .ok r    => (g.setTraffic t).addRead r
  | .error _ => g.setTraffic t

section

variable {Q : Except Exc α → Gate τ → Prop}

omit [TrafficAdapter τ] in
theorem wp_row_seq {k : GateRow → M τ α} (hok : ∀ row, g.db.getRow = .ok row → wp (k row) Q D g)
    (herr : ∀ e, g.db.getRow = .error e → Q (.error e) g) : wp (row >>= k) Q D g :=
  wp_lift_seq hok herr

omit [TrafficAdapter τ] in
theorem wp_transaction_seq {body : GateDb → Except Exc GateDb} {k : Unit → M τ α} (hd : D g)
    (hok : ∀ db, body g.db = .ok db → wp (k ()) Q D (g.setDb db))
    (herr : ∀ e, body g.db = .error e → Q (.error e) g) : wp (transaction body >>= k) Q D g := by
  simp only [wp_bind, transaction, wp_act]
  refine ⟨hd, ?_⟩
  cases h : body g.db
  case ok db   => exact hok db h
  case error e => exact herr e h

omit [TrafficAdapter τ] in
theorem wp_append_seq {generation : Int} {kind : GateKind} {operation : GateOperation}
    {fromState : GateState} {fence : Option String} {detail : Json}
    {operationId : Option OperationId} {k : Unit → M τ α} (hd : D g)
    (hk : wp (k ()) Q D (g.setDb (g.db.append generation kind operation (some fromState) none
      fence detail operationId))) :
    wp (append generation kind operation fromState fence detail operationId >>= k) Q D g := by
  refine wp_transaction_seq hd (fun db h => ?_) (fun e h => ?_)
  · injection h with h
    exact h ▸ hk
  · contradiction

omit [TrafficAdapter τ] in
theorem wp_transition {generation : Int} {target : GateState} {operation : GateOperation}
    {kind : GateKind} {detail : Json} {fence : Option String} {operationId : Option OperationId}
    {update : Nat → GateRow → GateRow} {Q : Except Exc Unit → Gate τ → Prop} (hd : D g)
    (hok : ∀ row, g.db.getRow = .ok row → row.state.accepts target →
      Q (.ok ()) (g.setDb
        (g.db.moved row generation target operation kind detail fence operationId update)))
    (herr : ∀ e, Q (.error e) g) :
    wp (transition generation target operation kind detail fence operationId update) Q D g := by
  simp only [transition, transaction, wp_act]
  refine ⟨hd, ?_⟩
  cases h : g.db.transition generation target operation kind detail fence operationId
  case error e => exact herr e
  case ok r    =>
    obtain ⟨row, hr, ha, he⟩ := GateDb.transition_ok_iff.mp h
    subst he
    simp only [GateDb.moved_updateRow]
    exact hok row hr ha

omit [TrafficAdapter τ] in
theorem wp_transition_seq {generation : Int} {target : GateState} {operation : GateOperation}
    {kind : GateKind} {detail : Json} {fence : Option String} {operationId : Option OperationId}
    {update : Nat → GateRow → GateRow} {k : Unit → M τ α} (hd : D g)
    (hok : ∀ row, g.db.getRow = .ok row → row.state.accepts target →
      wp (k ()) Q D (g.setDb
        (g.db.moved row generation target operation kind detail fence operationId update)))
    (herr : ∀ e, Q (.error e) g) :
    wp (transition generation target operation kind detail fence operationId update >>= k) Q D g :=
  wp_bind.mpr <| wp_transition hd hok herr

omit [TrafficAdapter τ] in
theorem wp_transitionAfter_seq {before : GateDb → GateDb} {generation : Int} {target : GateState}
    {operation : GateOperation} {kind : GateKind} {detail : Json}
    {operationId : Option OperationId} {k : Unit → M τ α} (hd : D g)
    (hok : ∀ row, (before g.db).getRow = .ok row → row.state.accepts target →
      wp (k ()) Q D (g.setDb ((before g.db).moved row generation target operation kind detail none
        operationId fun _ row => row)))
    (herr : ∀ e, (∀ row, (before g.db).getRow = .ok row → ¬row.state.accepts target) →
      Q (.error e) g) :
    wp (transitionAfter before generation target operation kind detail operationId >>= k) Q D g := by
  refine wp_transaction_seq hd (fun db hdb => ?_) (fun e he => ?_)
  all_goals
    cases h : (before g.db).transition generation target operation kind detail none operationId
  case refine_1.error => simp [h] at hdb
  case refine_1.ok =>
    have ⟨row, hr, ha, he⟩ := GateDb.transition_ok_iff.mp h
    subst he
    simp only [h, Except.ok.injEq] at hdb
    exact hdb ▸ hok row hr ha
  case refine_2.ok => simp [h] at he
  case refine_2.error =>
    refine herr e fun row hr ha => ?_
    exact absurd (h.symm.trans (GateDb.transition_ok_iff.mpr ⟨row, hr, ha, rfl⟩)) (by simp)

omit [TrafficAdapter τ] in
theorem wp_hit_seq {point : String} {k : Unit → M τ α}
    (hr : ∀ faults, Q (.error (.injectedCrash point)) (g.setFaults faults))
    (hk : point ∉ g.faults → wp (k ()) Q D g) : wp (hit point >>= k) Q D g := by
  simp only [wp_bind, hit, wp_silent]
  by_cases h : point ∈ g.faults
  case pos => simpa [h] using hr _
  case neg => simpa [h] using hk h

omit [TrafficAdapter τ] in
theorem wp_now_seq {k : Int → M τ α}
    (h : wp (k (g.clock g.ticks)) Q D g.tick) : wp (now >>= k) Q D g := by
  simpa [now] using h

theorem wp_readRoute_seq {k : RouteState → M τ α}
    (h : wp (k (TrafficAdapter.route g.traffic)) Q D
      (g.addRead (TrafficAdapter.route g.traffic))) :
    wp (readRoute >>= k) Q D g := by
  simpa [readRoute] using h

omit [TrafficAdapter τ] in
theorem wp_call_seq {β : Type} {f : τ → Except Exc β × τ} {k : β → M τ α} (hd : D g)
    (hok : ∀ a, (f g.traffic).1 = .ok a → wp (k a) Q D (g.setTraffic (f g.traffic).2))
    (herr : ∀ e, (f g.traffic).1 = .error e →
      Q (.error e) (g.setTraffic (f g.traffic).2)) :
    wp (call f >>= k) Q D g := by
  simp only [wp_bind, call, wp_act]
  refine ⟨hd, ?_⟩
  cases h : (f g.traffic).1
  case ok a    => exact hok a h
  case error e => exact herr e h

theorem wp_queryRoute_seq {k : RouteState → M τ α} (hd : D g)
    (hok : ∀ r t, TrafficAdapter.queryRoute g.traffic = (.ok r, t) →
      wp (k r) Q D (g.queried (.ok r) t))
    (herr : ∀ e t, TrafficAdapter.queryRoute g.traffic = (.error e, t) →
      Q (.error e) (g.queried (.error e) t)) :
    wp (queryRoute >>= k) Q D g := by
  simp only [wp_bind, queryRoute, wp_act]
  refine ⟨hd, ?_⟩
  rcases h : TrafficAdapter.queryRoute g.traffic with ⟨v, t⟩
  cases v
  case ok r    => exact hok r t h
  case error e => exact herr e t h

theorem wp_tryQueryRoute_seq {k : Except String RouteState → M τ α} (hd : D g)
    (hok : ∀ r t, TrafficAdapter.queryRoute g.traffic = (.ok r, t) →
      wp (k (.ok r)) Q D (g.queried (.ok r) t))
    (herr : ∀ e t, TrafficAdapter.queryRoute g.traffic = (.error e, t) →
      wp (k (.error e.str)) Q D (g.queried (.error e) t)) :
    wp (tryQueryRoute >>= k) Q D g := by
  simp only [wp_bind, tryQueryRoute, wp_attempt, queryRoute, wp_act, wp_pure]
  refine ⟨hd, ?_⟩
  rcases h : TrafficAdapter.queryRoute g.traffic with ⟨v, t⟩
  cases v
  case ok r    => exact hok r t h
  case error e => exact herr e t h

theorem wp_tryCloseAll_seq {k : Option String → M τ α} (hd : D g)
    (hok : (TrafficAdapter.closeAll g.traffic).1 = .ok () →
      wp (k none) Q D (g.setTraffic (TrafficAdapter.closeAll g.traffic).2))
    (herr : ∀ e, (TrafficAdapter.closeAll g.traffic).1 = .error e →
      wp (k (some e.str)) Q D (g.setTraffic (TrafficAdapter.closeAll g.traffic).2)) :
    wp (tryCloseAll >>= k) Q D g := by
  simp only [wp_bind, tryCloseAll, wp_attempt, call, wp_act, wp_pure]
  refine ⟨hd, ?_⟩
  cases h : (TrafficAdapter.closeAll g.traffic).1
  case ok      => exact hok h
  case error e => exact herr e h

theorem wp_tryRestore_seq {row : GateRow} {k : Option RouteState → M τ α} (hd : D g)
    (h : ∀ v, restoreCall row g.traffic = (v, (restoreCall row g.traffic).2) →
      wp (k v.toOption) Q D (g.setTraffic (restoreCall row g.traffic).2)) :
    wp (tryRestore row >>= k) Q D g := by
  simp only [wp_bind, tryRestore, wp_attempt, call, wp_act, wp_pure]
  refine ⟨hd, ?_⟩
  cases hv : (restoreCall row g.traffic).1
  case ok r    => exact h (.ok r) (hv ▸ rfl)
  case error e => exact h (.error e) (hv ▸ rfl)

end

end Gate
