import ExtManager.Gate.Steps

open Crash Prog Relation

namespace Gate

variable [Sha256] {τ : Type} [TrafficAdapter τ] {op : Op} {g₀ g : Gate τ}
variable {α : Type} {P : α → Gate τ → Prop}

-- Started in `g`, the rest `m` of an operation only makes steps of that operation, wherever it
-- ends or dies, and a value that it returns satisfies `P`.
abbrev Runs (op : Op) (g₀ : Gate τ) (P : α → Gate τ → Prop) (m : M τ α) (g : Gate τ) : Prop :=
  Keeps (Steps op g₀) P m g

namespace Runs

theorem row {k : GateRow → M τ α} (h : Steps op g₀ g)
    (hk : ∀ row, g.db.getRow = .ok row → Runs op g₀ P (k row) g) :
    Runs op g₀ P (row >>= k) g :=
  wp_row_seq hk fun _ _ => ⟨h, fun _ ha => nomatch ha⟩

theorem hit {point : String} {k : Unit → M τ α} (h : Steps op g₀ g)
    (hk : Runs op g₀ P (k ()) g) : Runs op g₀ P (hit point >>= k) g :=
  wp_hit_seq (fun _ => ⟨h.tail .fault, fun _ ha => nomatch ha⟩) fun _ => hk

-- Where the process has not died, the point is no fault.
theorem alive {point : String} {k : Unit → M τ α} (h : Steps op g₀ g)
    (hk : point ∉ g.faults → Runs op g₀ P (k ()) g) : Runs op g₀ P (Gate.hit point >>= k) g :=
  wp_hit_seq (fun _ => ⟨h.tail .fault, fun _ ha => nomatch ha⟩) hk

theorem now {k : Int → M τ α} (h : Steps op g₀ g)
    (hk : Steps op g₀ g.tick → Runs op g₀ P (k (g.clock g.ticks)) g.tick) :
    Runs op g₀ P (now >>= k) g :=
  wp_now_seq (hk (h.tail .tick))

theorem readRoute {k : RouteState → M τ α} (h : Steps op g₀ g) (hu : Undecided g₀ g)
    (hk : Steps op g₀ (g.addRead (TrafficAdapter.route g.traffic)) →
      Runs op g₀ P (k (TrafficAdapter.route g.traffic))
        (g.addRead (TrafficAdapter.route g.traffic))) :
    Runs op g₀ P (readRoute >>= k) g :=
  wp_readRoute_seq (hk (h.tail (.read hu)))

theorem queryRoute {k : RouteState → M τ α} (h : Steps op g₀ g) (hu : Undecided g₀ g)
    (hk : ∀ r t, TrafficAdapter.queryRoute g.traffic = (.ok r, t) →
      Steps op g₀ (g.queried (.ok r) t) → Runs op g₀ P (k r) (g.queried (.ok r) t)) :
    Runs op g₀ P (queryRoute >>= k) g :=
  wp_queryRoute_seq h (fun r t hq => hk r t hq (h.tail (.query hu hq)))
    fun _ _ hq => ⟨h.tail (.query hu hq), fun _ ha => nomatch ha⟩

theorem tryQueryRoute {k : Except String RouteState → M τ α} (h : Steps op g₀ g)
    (hu : Undecided g₀ g)
    (hok : ∀ r t, TrafficAdapter.queryRoute g.traffic = (.ok r, t) →
      Steps op g₀ (g.queried (.ok r) t) → Runs op g₀ P (k (.ok r)) (g.queried (.ok r) t))
    (herr : ∀ e t, TrafficAdapter.queryRoute g.traffic = (.error e, t) →
      Steps op g₀ (g.queried (.error e) t) →
      Runs op g₀ P (k (.error e.str)) (g.queried (.error e) t)) :
    Runs op g₀ P (tryQueryRoute >>= k) g :=
  wp_tryQueryRoute_seq h (fun r t hq => hok r t hq (h.tail (.query hu hq)))
    fun e t hq => herr e t hq (h.tail (.query hu hq))

theorem tryCloseAll {row : GateRow} {k : Option String → M τ α} (h : Steps op g₀ g)
    (hr : g.db.getRow = .ok row) (hu : Undecided g₀ g) (hc : CloseCause op g₀ g row)
    (hk : ∀ error,
      (error = none → (TrafficAdapter.closeAll g.traffic).1 = .ok ()) →
      Steps op g₀ (g.setTraffic (TrafficAdapter.closeAll g.traffic).2) →
      Runs op g₀ P (k error) (g.setTraffic (TrafficAdapter.closeAll g.traffic).2)) :
    Runs op g₀ P (tryCloseAll >>= k) g :=
  wp_tryCloseAll_seq h (fun ho => hk none (fun _ => ho) (h.tail (.closeAll hr hu hc)))
    fun e _ => hk (some e.str) (fun he => nomatch he) (h.tail (.closeAll hr hu hc))

theorem tryRestore {row : GateRow} {k : Option RouteState → M τ α} (h : Steps op g₀ g)
    (hs : Step op g₀ g (g.setTraffic (restoreCall row g.traffic).2))
    (hk : ∀ v, restoreCall row g.traffic = (v, (restoreCall row g.traffic).2) →
      Steps op g₀ (g.setTraffic (restoreCall row g.traffic).2) →
      Runs op g₀ P (k v.toOption) (g.setTraffic (restoreCall row g.traffic).2)) :
    Runs op g₀ P (tryRestore row >>= k) g :=
  wp_tryRestore_seq h fun v hv => hk v hv (h.tail hs)

theorem call {β : Type} {f : τ → Except Exc β × τ} {k : β → M τ α} (h : Steps op g₀ g)
    (hs : Step op g₀ g (g.setTraffic (f g.traffic).2))
    (hk : ∀ b, (f g.traffic).1 = .ok b → Steps op g₀ (g.setTraffic (f g.traffic).2) →
      Runs op g₀ P (k b) (g.setTraffic (f g.traffic).2)) :
    Runs op g₀ P (call f >>= k) g :=
  wp_call_seq h (fun b hb => hk b hb (h.tail hs)) fun _ _ => ⟨h.tail hs, fun _ ha => nomatch ha⟩

theorem transaction {body : GateDb → Except Exc GateDb} {k : Unit → M τ α} (h : Steps op g₀ g)
    (hc : ∀ db, body g.db = .ok db → Commit op g₀ g db)
    (hk : ∀ db, body g.db = .ok db → Steps op g₀ (g.setDb db) →
      Runs op g₀ P (k ()) (g.setDb db)) :
    Runs op g₀ P (transaction body >>= k) g :=
  wp_transaction_seq h (fun db hb => hk db hb (h.tail (.commit (hc db hb))))
    fun _ _ => ⟨h, fun _ ha => nomatch ha⟩

theorem transitionAfter {before : GateDb → GateDb} {n : Int} {target : GateState}
    {operation : GateOperation} {kind : GateKind} {detail : Json} {id : Option OperationId}
    {k : Unit → M τ α} (h : Steps op g₀ g)
    (hc : ∀ row, (before g.db).getRow = .ok row → row.state.accepts target → Commit op g₀ g
      ((before g.db).moved row n target operation kind detail none id fun _ row => row))
    (hk : ∀ row, (before g.db).getRow = .ok row → Steps op g₀ (g.setDb
        ((before g.db).moved row n target operation kind detail none id fun _ row => row)) →
      Runs op g₀ P (k ()) (g.setDb
        ((before g.db).moved row n target operation kind detail none id fun _ row => row))) :
    Runs op g₀ P (transitionAfter before n target operation kind detail id >>= k) g :=
  wp_transitionAfter_seq h (fun row hr ha => hk row hr (h.tail (.commit (hc row hr ha))))
    fun _ _ => ⟨h, fun _ ha => nomatch ha⟩

theorem last {body : GateDb → Except Exc GateDb} (h : Steps op g₀ g)
    (hc : ∀ db, body g.db = .ok db → Commit op g₀ g db) :
    Runs op g₀ (fun _ _ => True) (Gate.transaction body) g := by
  simp only [Runs, Keeps, Gate.transaction, wp_act]
  refine ⟨h, ?_⟩
  split
  case h_1 db hb => exact ⟨h.tail (.commit (hc db hb)), fun _ _ => trivial⟩
  case h_2       => exact ⟨h, fun _ _ => trivial⟩

theorem append {row : GateRow} {kind : GateKind} {operation : GateOperation}
    {fromState : GateState} {fence : Option String} {detail : Json} {id : Option OperationId} {k : Unit → M τ α}
    {n : Int} (h : Steps op g₀ g) (hr : g.db.getRow = .ok row) (hn : n = row.candidateGeneration)
    (hnote : Note row kind operation id) (hid : g.db.Correlated operation id)
    (hk : Steps op g₀ (g.setDb (g.db.append n kind operation (some fromState) none fence detail
        id)) →
      Runs op g₀ P (k ()) (g.setDb (g.db.append n kind operation (some fromState) none fence
        detail id))) :
    Runs op g₀ P (append n kind operation fromState fence detail id >>= k) g := by
  subst hn
  exact wp_append_seq h (hk (h.tail (.commit (.append hr hnote hid))))

theorem transition {row : GateRow} {target : GateState} {operation : GateOperation} {kind : GateKind}
    {detail : Json} {fence : Option String} {id : Option OperationId}
    {update : Nat → GateRow → GateRow} {k : Unit → M τ α} {n : Int} (h : Steps op g₀ g)
    (hr : g.db.getRow = .ok row) (hn : n = row.candidateGeneration)
    (m : row.state.accepts target →
      Move op g₀ g row target operation kind detail fence id update)
    (hid : g.db.Correlated operation id)
    (hk : row.state.accepts target →
      Steps op g₀ (g.setDb (g.db.moved row n target operation kind detail fence id update)) →
      Runs op g₀ P (k ()) (g.setDb (g.db.moved row n target operation kind detail fence id
        update))) :
    Runs op g₀ P (transition n target operation kind detail fence id update >>= k) g := by
  subst hn
  refine wp_transition_seq h (fun row' hr' ha => ?_) (fun _ => ⟨h, fun _ hv => nomatch hv⟩)
  have he : row = row' := by simpa [hr] using hr'
  subst he
  exact hk ha (h.tail (.commit (.move hr ha (m ha) hid)))

end Runs

omit [Sha256] in
theorem Observed.queried {r : RouteState} {t : τ}
    (h : TrafficAdapter.queryRoute g.traffic = (.ok r, t)) : (g.queried (.ok r) t).Observed r :=
  ⟨rfl, .inr ⟨g.traffic, h⟩⟩

omit [Sha256] in
theorem Observed.read : (g.addRead (TrafficAdapter.route g.traffic)).Observed
    (TrafficAdapter.route g.traffic) :=
  ⟨rfl, .inl rfl⟩

omit [Sha256] in
theorem onlyRoute_recordRoute {actual : Except String RouteState} :
    OnlyRoute (recordRoute actual) := by
  intro seq row
  cases actual
  case ok r    => exact ⟨_, _, rfl⟩
  case error _ => exact ⟨_, _, rfl⟩

omit [Sha256] in
theorem onlyRoute_id : OnlyRoute fun _ row => row :=
  fun _ row => ⟨row.routeGeneration, row.routeFence, rfl⟩

omit [Sha256] [TrafficAdapter τ] in
theorem state?_moved {row : GateRow} {n : Int} {target : GateState} {operation : GateOperation}
    {kind : GateKind} {detail : Json} {fence : Option String} {id : Option OperationId}
    {update : Nat → GateRow → GateRow} (hu : OnlyRoute update) :
    (g.setDb (g.db.moved row n target operation kind detail fence id update)).state? =
      some target := by
  have ⟨_, _, he⟩ := hu g.db.nextSeq
    { row with state := target, transitionSeq := g.db.nextSeq, revision := row.revision + 1 }
  simp [state?, GateDb.moved, he]

omit [Sha256] in
theorem closeClass_ok {r : RouteState} :
    closeClass (.ok r) = if r.isClosed then .failedSafe else .safetyUnknown :=
  rfl

-- The verdict of a close after which the route was queried.
theorem closeClass_verdict {r : RouteState} {row : GateRow} {operation : GateOperation}
    (ho : g.Observed r) : Verdict op g₀ g row operation (closeClass (.ok r)).target := by
  rw [closeClass_ok]
  split
  case isTrue h => exact .failedSafe ho h
  case isFalse  => exact .safetyUnknown

omit [Sha256] in
theorem rollbackClass_ok {row : GateRow} {r : RouteState} :
    rollbackClass row (.ok r) =
      if isPredecessor row r then .restoredStrong
      else if r.isClosed then .failedSafe else .safetyUnknown :=
  rfl

-- The verdict of `reconcile` on an unfinished rollback.
theorem rollbackClass_verdict {r : RouteState} {row : GateRow} (ho : g.Observed r) :
    Verdict op g₀ g row .rollback (rollbackClass row (.ok r)).target := by
  rw [rollbackClass_ok]
  split
  case isTrue h => exact .restored ho h
  case isFalse  =>
    split
    case isTrue h => exact .failedSafe ho h
    case isFalse  => exact .safetyUnknown

-- A verdict rests on the adapter and on what was read from it.
theorem Verdict.setDb {row : GateRow} {operation : GateOperation} {s : GateState} {db : GateDb}
    (h : Verdict op g₀ g row operation s) : Verdict op g₀ (g.setDb db) row operation s := by
  cases h
  case restored ho hp       => exact .restored ho hp
  case rolledBack he hv hp  => exact .rolledBack he hv hp
  case failedSafe ho hc     => exact .failedSafe ho hc
  case unchecked he hc hd   => exact .unchecked he hc hd
  case safetyUnknown        => exact .safetyUnknown

-- A fail-close ends where it says, and it says `FAILED_SAFE` only of a route it has seen closed.
def FailClosed (res : FailCloseResult) (g : Gate τ) : Prop :=
  g.state? = some res.classification.target ∧
    (res.classification = .failedSafe ∧ (∃ r, g.Observed r ∧ r.isClosed) ∨
      res.classification = .safetyUnknown)

theorem failClose_runs {n : Int} {reason : String} (h : Steps op g₀ g) (hu : Undecided g₀ g)
    (hc : ∀ row g', g.db.getRow = .ok row → row.candidateGeneration = n → g'.traffic = g.traffic →
      g'.db.row = g.db.row → g'.Announced .failClose → "fail_close.before_effect" ∉ g.faults →
      CloseCause op g₀ g' row) :
    Runs op g₀ FailClosed (failClose n reason) g := by
  unfold failClose
  refine Runs.row h fun row hr => .raiseIf h fun hn => ?_
  replace hn := not_not.mp hn
  subst hn
  refine Runs.append h hr rfl .failCloseIntent .new fun h => Runs.alive h fun ha => ?_
  refine Runs.tryCloseAll h hr hu (hc row _ hr rfl rfl rfl ⟨_, _, rfl, rfl, rfl⟩ ha) fun _ _ h => ?_
  refine Runs.hit h ?_
  refine Runs.tryQueryRoute h hu (fun r t hq h => ?_) (fun e t hq h => ?_)
  case refine_1 =>
    have ho := Observed.queried hq
    have hv : Verdict op g₀ _ row .failClose _ := closeClass_verdict ho
    refine Runs.transition h hr rfl (fun _ => .terminal hv (by simp) onlyRoute_recordRoute) .new
      fun _ h => ?_
    refine .pure h ⟨rfl, ?_⟩
    rw [closeClass_ok]
    split
    case isTrue hcl => exact .inl ⟨rfl, r, ho, hcl⟩
    case isFalse    => exact .inr rfl
  case refine_2 =>
    refine Runs.transition h hr rfl
      (fun _ => .terminal .safetyUnknown (by simp) onlyRoute_recordRoute) .new fun _ h => ?_
    exact .pure h ⟨rfl, .inr rfl⟩

theorem stage_runs {candidate predecessor : Json} (h : Steps op g₀ g) (hu : Undecided g₀ g)
    (ho : op = .stage candidate predecessor) :
    Runs op g₀ (fun _ _ => True) (stage candidate predecessor) g := by
  unfold stage
  refine .lift h fun n hn => .read ?_
  split
  case h_1 => exact .raiseIf h fun _ => .pure h trivial
  case h_2 hrow =>
    refine Runs.readRoute h hu fun h => .raiseIf h fun hm => .read ?_
    push Not at hm
    refine Runs.transitionAfter h (fun row hr _ => ?_) (fun _ _ h => ?_)
    case refine_1 =>
      have hrow' := (GateDb.getRow_ok_iff.mp hr).left
      injection hrow' with hrow'
      subst hrow'
      exact .stage ho hrow hn Observed.read hm.1 hm.2.1 hm.2.2
    case refine_2 => exact .pure h trivial

theorem closeEffect_runs {row : GateRow} (h : Steps op g₀ g) (h₀ : g.db.row = g₀.db.row)
    (hr : g.db.getRow = .ok row) (hop : op = .close row.candidateGeneration)
    (hf : g.faults = g₀.faults) (ht₀ : g.traffic = g₀.traffic) :
    Runs op g₀ (fun _ _ => True) (closeEffect row row.candidateGeneration) g := by
  have hu : Undecided g₀ g := .inl (by rw [state?, h₀, state?])
  unfold closeEffect
  refine Runs.alive h fun hbefore => Runs.call h .close fun _ hclose h => Runs.alive h fun hafter => ?_
  refine Runs.queryRoute h hu fun r t hq h => Runs.alive h fun hquery => ?_
  refine .ite (fun hm => ?_) (fun hm => ?_)
  case refine_1 =>
    refine Runs.append h hr rfl .closeReceipt (.scope (by simp)) fun h => ?_
    refine .seq (failClose_runs h hu fun row' g' hr' _ ht hk ha hfail => ?_) fun _ _ h _ => .raise h
    have he : row = row' := Except.ok.inj (hr.symm.trans hr')
    subst he
    have ht' : g'.traffic = t := ht
    refine .close hop (hk.trans h₀) ha (ht' ▸ hq) hm ?_ (ht₀ ▸ Prod.ext hclose rfl)
    rw [← hf]
    simp only [closePoints, List.forall_mem_cons]
    exact ⟨hbefore, hafter, hquery, hfail, nofun⟩
  case refine_2 =>
    exact Runs.transition h hr rfl (fun _ => .closed (Observed.queried hq) hm) (.scope (by simp))
      fun _ h =>
      .pure h trivial

theorem close_runs {n : Int} (h : Steps (.close n) g₀ g) (h₀ : g.db.row = g₀.db.row)
    (hf : g.faults = g₀.faults) (ht : g.traffic = g₀.traffic) :
    Runs (.close n) g₀ (fun _ _ => True) (close n) g := by
  unfold close closeCandidate
  refine Runs.row h fun row hr => .raiseIf h fun hn => ?_
  replace hn := not_not.mp hn
  subst hn
  refine .ite (fun _ => .pure h trivial) fun _ => .read <| .when (fun _ => ?_) (fun _ => ?_)
  · exact Runs.append h hr rfl .closeIntent (.scope (by simp)) fun h =>
      closeEffect_runs h h₀ hr rfl hf ht
  · exact closeEffect_runs h h₀ hr rfl hf ht

omit [TrafficAdapter τ] in
theorem ofDetail_intentDetail {p : OpenProof} :
    OpenProof.ofDetail p.intentDetail = .ok (p, p.digest) :=
  rfl

omit [Sha256] [TrafficAdapter τ] in
theorem accepts_opening {s : GateState} (h : s.accepts .opening) :
    s = .candidateClosed ∨ s = .opening := by
  revert h
  cases s <;> decide

-- A returned fence is that of the open candidate's route, unless the candidate was open before.
def Opened (g₀ : Gate τ) (n : Int) (fence : String) (g : Gate τ) : Prop :=
  g₀.state? = some .candidateOpen ∨
    g.state? = some .candidateOpen ∧
      ∃ r, g.Observed r ∧ r.generation = some n ∧ r.fence = fence

theorem openEffect_runs {row row' : GateRow} {intent : GateTransition} {proof : OpenProof}
    {fence : String} {n : Int} (h : Steps op g₀ g) (hr : g.db.getRow = .ok row)
    (hs : row.state = .opening) (hn : n = row.candidateGeneration)
    (hc : row'.candidate = row.candidate) (hclean : g.db.pendingRecoveryClose = none)
    (hi : g.db.latest .open .intent = some intent) (hf : intent.fence = some fence)
    (hd : intent.detail = proof.intentDetail) :
    Runs op g₀ (Opened g₀ n) (openEffect row' n proof fence) g := by
  have hu : Undecided g₀ g := .inr (by simp [state?, (GateDb.getRow_ok_iff.mp hr).left, hs])
  unfold openEffect
  subst hn
  rw [hc]
  refine Runs.hit h <| Runs.now h fun h => Runs.call h (.open hr hs hi hf) fun _ _ h => Runs.hit h ?_
  refine Runs.queryRoute h hu fun r t hq h => Runs.hit h <| .ite (fun hm => ?_) (fun hm => ?_)
  case refine_1 =>
    refine Runs.append h hr rfl (.openReceipt hs) (.scope (by simp)) fun h => ?_
    refine .seq (failClose_runs h hu fun row' g' hr' _ _ _ _ _ => ?_) fun _ _ h _ => .raise h
    exact .opening (Except.ok.inj (hr.symm.trans hr') ▸ hs)
  case refine_2 =>
    have ho := Observed.queried hq
    have ⟨hn, hfence, _⟩ : r.generation = some row.candidateGeneration ∧ some r.fence = some fence ∧
        digestOf r.snapshot = proof.candidateDigest := by
      simpa [candidateMismatch, not_or] using hm
    injection hfence with hfence
    subst hfence
    refine Runs.transition h hr rfl (fun _ => .opened hs hclean hi (hd ▸ ofDetail_intentDetail) ho
      (hf ▸ hm) (.inl rfl)) .new fun _ h => ?_
    exact .pure h <| .inr ⟨rfl, r, ho, hn, rfl⟩

theorem openCandidate_runs {row : GateRow} {proof : OpenProof} (h : Steps op g₀ g)
    (hop : op = .open row.candidateGeneration proof)
    (hr : g.db.getRow = .ok row) (hs : row.state ≠ .opening)
    (hd : proof.candidateDigest = row.candidateDigest) (hl : proof.lease = row.lease)
    (hclean : row.state = .candidateClosed → g.db.pendingRecoveryClose = none) :
    Runs op g₀ (Opened g₀ row.candidateGeneration)
      (openCandidate row row.candidateGeneration proof) g := by
  unfold openCandidate
  refine Runs.hit h <| Runs.transition h hr rfl (fun _ => .opening hop hs hd hl) .new fun ha h => ?_
  have hclosed : row.state = .candidateClosed := (accepts_opening ha).resolve_right hs
  refine openEffect_runs h (GateDb.getRow_ok_iff.mpr ⟨rfl, (GateDb.getRow_ok_iff.mp hr).right⟩) rfl
    rfl rfl ?_ rfl rfl rfl
  exact GateDb.pendingRecoveryClose_cons (hclean hclosed) rfl (by simp)

theorem open_runs {n : Int} {proof : OpenProof} (h : Steps (.open n proof) g₀ g)
    (h₀ : g.state? = g₀.state?) (hclean : g.state? = some .candidateClosed →
      g.db.pendingRecoveryClose = none) :
    Runs (.open n proof) g₀ (Opened g₀ n) («open» n proof) g := by
  unfold «open»
  refine Runs.row h fun row hr => .raiseIf h fun hn => .lift h fun _ _ => .raiseIf h fun _ =>
    .raiseIf h fun hd => .raiseIf h fun _ => Runs.now h fun h => .read <| .raiseIf h fun hl => ?_
  have hrow := (GateDb.getRow_ok_iff.mp hr).left
  have ⟨_, hn⟩ : proof.generation = n ∧ row.candidateGeneration = n := by simpa [not_or] using hn
  have ⟨hl, _⟩ := not_or.mp hl
  subst hn
  refine .ite (fun hs => .raiseIf h fun _ => .pure h <| .inl ?_)
    fun _ => .ite (fun _ => .raise h) fun hs => ?_
  case refine_1 => rw [← h₀, state?, hrow, ← hs]; rfl
  case refine_2 =>
    refine openCandidate_runs h rfl hr hs (not_not.mp hd) (not_not.mp hl) fun hs => hclean ?_
    rw [state?, hrow, ← hs]; rfl

-- A drain that says so leaves the candidate open and no request of the predecessor unfinished.
def Drained (n : Int) (drained : Bool) (g : Gate τ) : Prop :=
  drained = true → g.state? = some .candidateOpen ∧ g.db.unfinished n = 0

theorem finishDrain_runs {row row' : GateRow} {n : Int} (h : Steps op g₀ g)
    (hr : g.db.getRow = .ok row') (hs : row'.state = .draining)
    (hn : n = row'.candidateGeneration)
    (hp : row'.predecessorGeneration = row.predecessorGeneration) :
    Runs op g₀ (Drained row.predecessorGeneration) (finishDrain row n) g := by
  unfold finishDrain
  refine .read <| .ite (fun _ => .pure h (by simp [Drained])) fun hu => ?_
  replace hu := not_not.mp hu
  exact Runs.transition h hr hn (fun _ => .drained hs (hp ▸ hu)) .new fun _ h => .pure h fun _ => ⟨rfl, hu⟩

theorem drain_runs {n : Int} (hop : op = .drain n) (h : Steps op g₀ g) :
    Runs op g₀ (fun drained g' => ∃ row, g.db.getRow = .ok row ∧
      Drained row.predecessorGeneration drained g') (drain n) g := by
  unfold drain
  refine Runs.row h fun row hr => .raiseIf h fun hn => ?_
  replace hn := not_not.mp hn
  suffices hd : Runs op g₀ (Drained row.predecessorGeneration) _ g from
    hd.mono fun _ _ h => ⟨row, hr, h⟩
  have hmove : op = .drain row.candidateGeneration := by rw [hop, hn]
  refine .when (fun _ => Runs.transition h hr hn.symm (fun _ => .draining hmove) .new fun _ h => ?_)
    fun hs => ?_
  · exact finishDrain_runs h
      (GateDb.getRow_ok_iff.mpr ⟨rfl, (GateDb.getRow_ok_iff.mp hr).right⟩) rfl hn.symm rfl
  · exact finishDrain_runs h hr (not_not.mp hs) hn.symm rfl

omit [Sha256] in
theorem admission?_requestId {db : GateDb} {id : String} {a : Admission}
    (h : db.admission? id = some a) : a.requestId = id := by
  simpa using List.find?_some h

theorem finishAdmission_runs {existing : Admission} {result : AdmissionResult} (h : Steps op g₀ g)
    (he : g.db.admission? existing.requestId = some existing) :
    Runs op g₀ (fun _ _ => True) (finishAdmission existing result) g := by
  unfold finishAdmission
  refine .raiseIf h fun _ => .raiseIf h fun _ => .raiseIf h fun hf => Runs.last h fun db hb => ?_
  injection hb with hb
  subst hb
  exact .finish he (by simpa using hf)

theorem grantAdmission_runs {request : AdmissionRequest} {result : Option AdmissionResult}
    (h : Steps op g₀ g) (hop : op = .observe request result) (h₀ : g.db.row = g₀.db.row)
    (ht : g.traffic = g₀.traffic) (he : g.db.admission? request.requestId = none) :
    Runs op g₀ (fun a g => g.db.admission? a.requestId = some a) (grantAdmission request) g := by
  have hu : Undecided g₀ g := .inl (by rw [state?, h₀, state?])
  unfold grantAdmission
  refine Runs.row h fun row hr => .raiseIf h fun hb => Runs.readRoute h hu fun h => ?_
  split
  case h_1 => exact .raise h
  case h_2 n hn =>
    refine .raiseIf h fun _ => .ite (fun hm => ?_) fun hm => .raiseIf h fun hk => ?_
    case refine_1 =>
      refine .seq (failClose_runs h hu fun row' g' hr' _ ht' _ ha _ => ?_) fun _ _ h _ => .raise h
      have hrow := Except.ok.inj (hr.symm.trans hr')
      subst hrow
      exact .observe hm.left ha (by rw [ht']; exact hm)
    case refine_2 =>
      refine Runs.transaction h (fun db hdb => ?_) fun db hdb h => .pure h ?_
      · injection hdb with hdb
        subst hdb
        exact .admission hop h₀ hr hb ⟨Observed.read, ht ▸ rfl⟩ hn hm hk he
      · injection hdb with hdb
        subst hdb
        simp [GateDb.admission?, insertAdmission]

theorem admitted_runs {request : AdmissionRequest} {result : Option AdmissionResult}
    (h : Steps op g₀ g) (hop : op = .observe request result) (h₀ : g.db.row = g₀.db.row)
    (ht : g.traffic = g₀.traffic) :
    Runs op g₀ (fun a g => g.db.admission? a.requestId = some a) (admitted request) g := by
  unfold admitted
  refine .read ?_
  split
  case h_1 a he => exact .pure h (admission?_requestId he ▸ he)
  case h_2 he   => exact grantAdmission_runs h hop h₀ ht he

theorem observe_runs {request : AdmissionRequest} {result : Option AdmissionResult}
    (h : Steps op g₀ g) (hop : op = .observe request result) (h₀ : g.db.row = g₀.db.row)
    (ht : g.traffic = g₀.traffic) :
    Runs op g₀ (fun _ _ => True) (observe request result) g := by
  unfold observe
  refine .seq (admitted_runs h hop h₀ ht) fun a g h he => ?_
  cases result
  case none   => exact .pure h trivial
  case some _ => exact .seq (finishAdmission_runs h he) fun _ _ h _ => .pure h trivial

-- A rollback ends where it says, with what lets it say so.
def RolledBackAs (op : Op) (g₀ : Gate τ) (c : RollbackClass) (g : Gate τ) : Prop :=
  g.state? = some c.target ∧
    ∃ row, g₀.db.getRow = .ok row ∧ Verdict op g₀ g row .rollback c.target

-- The outcome of a restore that leaves the gate in `g`: the route is read once more before the
-- receipt.
def RestoredAs (op : Op) (g₀ g : Gate τ) (row : GateRow) (c : RollbackClass) (g' : Gate τ) : Prop :=
  g'.db = g.db ∧
    Verdict op g₀ (g'.addRead (TrafficAdapter.route g'.traffic)) row .rollback c.target

section

variable {row : GateRow} {oracle : Option BehavioralOracleResult}

theorem closeAfterRestore_runs {v : Except Exc RouteState} (h : Steps op g₀ g)
    (hr : g.db.getRow = .ok row) (hu : g.state? = g₀.state?)
    (hop : op = .rollback row.candidateGeneration oracle) (ha : g.Announced .rollback)
    (hv : restoreCall row g₀.traffic = (v, g.traffic)) (hl : ∀ r, v = .ok r → ¬isPredecessor row r)
    (hf : "rollback.after_intent" ∉ g₀.faults) :
    Runs op g₀ (RestoredAs op g₀ g row) closeAfterRestore g := by
  unfold closeAfterRestore
  refine Runs.tryCloseAll h hr (.inl hu) (.rollback hop ha hv hl hf) fun _ _ h => ?_
  refine Runs.readRoute h (.inl hu) fun h => .pure h ⟨rfl, ?_⟩
  split
  case isTrue hc => exact .failedSafe Observed.read hc
  case isFalse   => exact .safetyUnknown

theorem restoreOutcome_runs {v : Except Exc RouteState} (h : Steps op g₀ g)
    (hr : g.db.getRow = .ok row) (hu : g.state? = g₀.state?)
    (hop : op = .rollback row.candidateGeneration oracle) (ha : g.Announced .rollback)
    (hv : restoreCall row g₀.traffic = (v, g.traffic)) (hf : "rollback.after_intent" ∉ g₀.faults) :
    Runs op g₀ (RestoredAs op g₀ g row) (restoreOutcome row oracle v.toOption) g := by
  unfold restoreOutcome
  refine .read ?_
  cases v
  case error => exact closeAfterRestore_runs h hr hu hop ha hv (by simp) hf
  case ok r  =>
    refine .ite (fun hp => .pure h ⟨rfl, .rolledBack hop hv (.inl hp)⟩) fun hp => ?_
    refine .ite (fun hb => .pure h ⟨rfl, .rolledBack hop hv (.inr hb)⟩) fun _ => ?_
    exact closeAfterRestore_runs h hr hu hop ha hv (fun _ he => Except.ok.inj he ▸ hp) hf

theorem rollback_runs {n : Int} (h : Steps (.rollback n oracle) g₀ g) (h₀ : g.db = g₀.db)
    (ht : g.traffic = g₀.traffic) (hf : g.faults = g₀.faults) :
    Runs (.rollback n oracle) g₀ (RolledBackAs (.rollback n oracle) g₀) (rollback n oracle) g := by
  unfold rollback
  refine Runs.row h fun row hr => .raiseIf h fun hn => ?_
  replace hn := not_not.mp hn
  subst hn
  have hu : g.state? = g₀.state? := by rw [state?, h₀, state?]
  have hr₀ : g₀.db.getRow = .ok row := h₀ ▸ hr
  refine Runs.append h hr rfl .rollbackIntent .new fun h => Runs.alive h fun ha => ?_
  replace ha : "rollback.after_intent" ∉ g₀.faults := hf ▸ ha
  refine Runs.tryRestore h (.restore hr hu rfl ⟨_, _, rfl, rfl, rfl⟩ ht ha) fun v hv h => ?_
  refine .seq (restoreOutcome_runs h hr hu rfl ⟨_, _, rfl, rfl, rfl⟩ (ht ▸ hv) ha)
    fun c g' h ⟨hdb, hc⟩ => Runs.hit h ?_
  have hu' : g'.state? = g₀.state? := by rw [state?, hdb]; exact hu
  refine Runs.readRoute h (.inl hu') fun h => ?_
  refine Runs.transition h (hdb ▸ hr) rfl (fun _ => .terminal hc (.inl rfl) ?_) .new fun _ h => ?_
  · exact fun _ _ => ⟨_, _, rfl⟩
  · exact .pure h ⟨rfl, row, hr₀, hc.setDb⟩

end

-- What lets `reconcile` return a state.
-- `reconcile` has taken up a rollback, and all that it has called is a query.
structure TakesUp (g₀ g : Gate τ) : Prop where
  failClose : g₀.db.pending .failClose = none
  recovery  : g₀.db.pendingRecoveryClose = none
  rollback  : (g₀.db.pending .rollback).isSome
  query     : ∃ v, TrafficAdapter.queryRoute g₀.traffic = (v, g.traffic)

inductive Reconciled (op : Op) (g₀ : Gate τ) : GateState → Gate τ → Prop
  | calm {row} : g₀.db.getRow = .ok row → row.state ≠ .opening →
      g₀.db.pending .failClose = none → g₀.db.pendingRecoveryClose = none →
      g₀.db.pending .rollback = none → Reconciled op g₀ row.state g₀
  | opened {row intent r g} : g₀.db.getRow = .ok row → row.state = .opening →
      g₀.db.pending .failClose = none → g₀.db.pendingRecoveryClose = none →
      g₀.db.pending .rollback = none →
      g₀.db.latest .open .intent = some intent → g.Observed r →
      r.generation = some row.candidateGeneration → some r.fence = intent.fence →
      g.state? = some .candidateOpen → Reconciled op g₀ .candidateOpen g
  | settled {row operation s g} : g₀.db.getRow = .ok row → Verdict op g₀ g row operation s →
      (operation = .rollback → TakesUp g₀ g) → g.state? = some s → Reconciled op g₀ s g

section

variable {row : GateRow} {intent : GateTransition} {operation : GateOperation}

theorem settle_runs {target : GateState} {detail : Json} {id : Option OperationId}
    {update : Nat → GateRow → GateRow} (h : Steps op g₀ g) (hr₀ : g₀.db.getRow = .ok row)
    (hr : g.db.getRow = .ok row) (hv : Verdict op g₀ g row operation target)
    (ho : operation = .rollback ∨ operation = .failClose ∨ operation = .open)
    (ht : operation = .rollback → TakesUp g₀ g) (hu : OnlyRoute update)
    (hid : g.db.Correlated operation id) :
    Runs op g₀ (Reconciled op g₀)
      (do
        transition row.candidateGeneration target operation .receipt detail none id update
        pure target) g :=
  Runs.transition h hr rfl (fun _ => .terminal hv ho hu) hid fun _ h =>
    .pure h <| .settled hr₀ hv.setDb (fun ho => ⟨(ht ho).failClose, (ht ho).recovery,
      (ht ho).rollback, (ht ho).query⟩) (state?_moved hu)

theorem reconcileFailClose_runs (h : Steps op g₀ g₀) (hr : g₀.db.getRow = .ok row)
    (hid : g₀.db.Correlated .failClose (some intent.operationId)) :
    Runs op g₀ (Reconciled op g₀) (reconcileFailClose row intent) g₀ := by
  unfold reconcileFailClose
  refine Runs.tryQueryRoute h (.inl rfl) (fun r t hq h => ?_) (fun e t _ h => ?_)
  · exact settle_runs h hr hr (closeClass_verdict (Observed.queried hq)) (by simp) (by simp)
      onlyRoute_recordRoute hid
  · exact settle_runs h hr hr .safetyUnknown (by simp) (by simp)
      onlyRoute_recordRoute hid

theorem reconcileRollback_runs (h : Steps op g₀ g₀) (hr : g₀.db.getRow = .ok row)
    (hnf : g₀.db.pending .failClose = none) (hnc : g₀.db.pendingRecoveryClose = none)
    (hp : (g₀.db.pending .rollback).isSome)
    (hid : g₀.db.Correlated .rollback (some intent.operationId)) :
    Runs op g₀ (Reconciled op g₀) (reconcileRollback row intent) g₀ := by
  unfold reconcileRollback
  refine Runs.tryQueryRoute h (.inl rfl) (fun r t hq h => ?_) (fun e t hq h => ?_)
  · exact settle_runs h hr hr (rollbackClass_verdict (Observed.queried hq)) (.inl rfl)
      (fun _ => ⟨hnf, hnc, hp, _, hq⟩) onlyRoute_id hid
  · exact settle_runs h hr hr .safetyUnknown (.inl rfl) (fun _ => ⟨hnf, hnc, hp, _, hq⟩)
      onlyRoute_id hid

theorem recordRecoveryClose_runs {actual : Except String RouteState} (h : Steps op g₀ g)
    (hr₀ : g₀.db.getRow = .ok row) (hr : g.db.getRow = .ok row)
    (hp : g.db.pendingRecoveryClose = some intent)
    (hv : Verdict op g₀ g row .open (closeClass actual).target) :
    Runs op g₀ (Reconciled op g₀) (recordRecoveryClose row intent actual) g := by
  unfold recordRecoveryClose
  refine .lift h fun openIntent hi => Runs.transitionAfter h (fun row' hr' ha => ?_)
    fun row' hr' h => .pure h ?_
  case refine_1 =>
    have hrow := Except.ok.inj (hr.symm.trans hr')
    subst hrow
    have hi' : g.db.latest .open .intent = some openIntent := by
      cases hl : g.db.latest .open .intent <;> simp_all
    have ⟨hm, ho, _⟩ := GateDb.latest_mem hi'
    exact .recovery hr hp ha hv (.mem hm (by simp [ho]))
  case refine_2 => exact .settled hr₀ hv.setDb (by simp) rfl

theorem reconcileRecoveryClose_runs (h : Steps op g₀ g₀) (hr : g₀.db.getRow = .ok row)
    (hp : g₀.db.pendingRecoveryClose = some intent) :
    Runs op g₀ (Reconciled op g₀) (reconcileRecoveryClose row intent) g₀ := by
  unfold reconcileRecoveryClose
  refine Runs.hit h <| Runs.tryCloseAll h hr (.inl rfl) (.recovery (by simp [hp])) fun _ _ h => Runs.hit h ?_
  refine Runs.tryQueryRoute h (.inl rfl) (fun r t hq h => Runs.hit h ?_) (fun e t _ h => Runs.hit h ?_)
  · exact recordRecoveryClose_runs h hr hr hp (closeClass_verdict (Observed.queried hq))
  · exact recordRecoveryClose_runs h hr hr hp .safetyUnknown

theorem cancelOpen_runs {reason : String} {n : Int} (h : Steps op g₀ g)
    (hr₀ : g₀.db.getRow = .ok row) (hr : g.db.getRow = .ok row) (hs : row.state = .opening)
    (hn : n = row.candidateGeneration) (hid : g.db.Correlated .open (some intent.operationId)) :
    Runs op g₀ (Reconciled op g₀) (cancelOpen intent n reason) g := by
  have hu : Undecided g₀ g := .inr (by simp [state?, (GateDb.getRow_ok_iff.mp hr).left, hs])
  unfold cancelOpen
  refine Runs.append h hr hn (.openReceipt hs) hid fun h => ?_
  refine .seq (failClose_runs h hu fun row' g' hr' _ _ _ _ _ => ?_)
    fun res g' h ⟨hstate, hres⟩ => .pure h ?_
  case refine_1 => exact .opening (Except.ok.inj (hr.symm.trans hr') ▸ hs)
  case refine_2 =>
    cases hres
    case inl hres =>
      have ⟨hclass, r, ho, hc⟩ := hres
      have hv : Verdict op g₀ g' row .failClose .failedSafe := .failedSafe ho hc
      rw [hclass] at hstate ⊢
      exact .settled hr₀ hv (by simp) hstate
    case inr hclass =>
      have hv : Verdict op g₀ g' row .failClose .safetyUnknown := .safetyUnknown
      rw [hclass] at hstate ⊢
      exact .settled hr₀ hv (by simp) hstate

theorem reconcileClose_runs {r₀ : RouteState} {n : Int}
    (hop : op = .reconcile) (h : Steps op g₀ g) (hr₀ : g₀.db.getRow = .ok row)
    (hr : g.db.getRow = .ok row) (hs : row.state = .opening) (hn : n = row.candidateGeneration)
    (hi : g.db.latest .open .intent = some intent)
    (hu : ∀ r t t₁, TrafficAdapter.closeAll g.traffic = (.ok (), t₁) →
      TrafficAdapter.queryRoute t₁ = (.ok r, t) → UncheckedClose g₀ r t) :
    Runs op g₀ (Reconciled op g₀) (reconcileClose intent n r₀) g := by
  have hun : Undecided g₀ g := .inr (by simp [state?, (GateDb.getRow_ok_iff.mp hr).left, hs])
  subst hn
  have ⟨hm, ho, _⟩ := GateDb.latest_mem hi
  unfold reconcileClose
  refine Runs.append h hr rfl (.recoveryIntent hs) (.inl rfl) fun h => Runs.hit h ?_
  refine Runs.tryCloseAll h hr hun (.opening hs) fun e he h => Runs.hit h ?_
  refine Runs.tryQueryRoute h hun (fun r t hq h => Runs.hit h ?_) (fun e' t _ h => Runs.hit h ?_)
  case refine_1 =>
    refine Runs.append h hr rfl (.recoveryReceipt hs) (.inl rfl) fun h => .ite (fun _ => ?_) fun hno => ?_
    · exact cancelOpen_runs h hr₀ hr hs rfl (.mem (.tail _ (.tail _ hm)) (by simp [ho]))
    · replace hno : e = none := by simpa [joinErrors] using hno
      have hc : TrafficAdapter.closeAll g.traffic =
          (.ok (), (TrafficAdapter.closeAll g.traffic).2) := Prod.ext (he hno) rfl
      exact settle_runs h hr₀ hr (.unchecked hop (hu r t _ hc hq) rfl) (by simp) (by simp)
        (fun _ _ => ⟨_, _, rfl⟩) (.mem (.tail _ (.tail _ hm)) (by simp [ho]))
  case refine_2 =>
    refine Runs.append h hr rfl (.recoveryReceipt hs) (.inl rfl) fun h => .ite (fun _ => ?_) fun hno => ?_
    · exact cancelOpen_runs h hr₀ hr hs rfl (.mem (.tail _ (.tail _ hm)) (by simp [ho]))
    · cases e <;> simp [joinErrors] at hno

theorem reconcileOpening_runs (h : Steps .reconcile g₀ g₀) (hr : g₀.db.getRow = .ok row)
    (hs : row.state = .opening) (hnf : g₀.db.pending .failClose = none)
    (hnc : g₀.db.pendingRecoveryClose = none) (hnr : g₀.db.pending .rollback = none) :
    Runs .reconcile g₀ (Reconciled .reconcile g₀) (reconcileOpening row) g₀ := by
  have hu : Undecided g₀ g₀ := .inl rfl
  unfold reconcileOpening
  refine .lift h fun intent hi => .lift h fun proof hp => Runs.now h fun h => .read ?_
  have hi' : g₀.db.latest .open .intent = some intent := by
    cases hl : g₀.db.latest .open .intent <;> simp_all
  have hid : g₀.db.Correlated .open (some intent.operationId) :=
    .mem (GateDb.latest_mem hi').left (by simp [(GateDb.latest_mem hi').right.left])
  refine .ite (fun _ => cancelOpen_runs h hr hr hs rfl hid) fun hv => ?_
  have ⟨hd, hv⟩ := not_or.mp hv
  have ⟨hl, hv⟩ := not_or.mp hv
  have hrec : Recovering g₀ row intent proof :=
    ⟨hr, hs, hnf, hnc, hnr, hi', hp, not_not.mp hd, not_not.mp hl, not_not.mp hv⟩
  refine Runs.tryQueryRoute h hu (fun r t hq h => ?_) fun _ _ _ h =>
    cancelOpen_runs h hr hr hs rfl hid
  refine .ite (fun hm => ?_) fun hm => ?_
  · exact reconcileClose_runs rfl h hr hr hs rfl hi' fun r' t' t₁ hc hq' =>
      ⟨row, intent, proof, r, t, t₁, hrec, hq, hm, hc, hq'⟩
  · have ho := Observed.queried hq
    have ⟨hn, hf, _⟩ : r.generation = some row.candidateGeneration ∧ some r.fence = intent.fence ∧
        digestOf r.snapshot = proof.1.candidateDigest := by
      simpa [candidateMismatch, not_or] using hm
    refine Runs.transition h hr rfl (fun _ => .opened hs hnc hi' hp ho hm (.inr rfl))
      (.mem (GateDb.latest_mem hi').left (by simp [(GateDb.latest_mem hi').right.left])) fun _ h => ?_
    exact .pure h <| .opened hr hs hnf hnc hnr hi' ho hn hf rfl

theorem reconcile_runs (h : Steps .reconcile g₀ g₀) :
    Runs .reconcile g₀ (Reconciled .reconcile g₀) reconcile g₀ := by
  unfold reconcile
  refine Runs.row h fun row hr => .read ?_
  split
  case h_1 hp =>
    have ⟨hm, ho, _⟩ := GateDb.latest_mem (GateDb.latest_of_pending hp)
    exact reconcileFailClose_runs h hr (.mem hm (by simp [ho]))
  case h_2 hnf =>
    split
    case h_1 intent hp => exact reconcileRecoveryClose_runs h hr hp
    case h_2 hnc =>
      split
      case h_1 hp =>
        have ⟨hm, ho, _⟩ := GateDb.latest_mem (GateDb.latest_of_pending hp)
        exact reconcileRollback_runs h hr hnf hnc (by simp [hp]) (.mem hm (by simp [ho]))
      case h_2 hnr =>
        refine .ite (fun hs => .pure h <| .calm hr hs hnf hnc hnr) fun hs => ?_
        exact reconcileOpening_runs h hr (not_not.mp hs) hnf hnc hnr

end

theorem Runs.returned {m : M τ α} {a : α} {g' : Gate τ} (h : Runs op g.start P m g.start)
    (hr : Returned m a g g') : Steps op g.start g' ∧ P a g' := by
  have ⟨_, hs, hp⟩ := h
  rw [hr.left, hr.right] at hp
  rw [hr.right] at hs
  exact ⟨hs, hp a rfl⟩

theorem failClosed_of_returned {n : Int} {reason : String} {res : FailCloseResult} {g' : Gate τ}
    (hr : Returned (failClose n reason) res g g') : FailClosed res g' := by
  have h : Runs (.failClose n reason) g.start FailClosed (failClose n reason) g.start :=
    failClose_runs .refl (.inl rfl) fun row _ _ hn ht _ ha hf => .failClose (by rw [hn]) ha hf ht
  exact (h.returned hr).right

-- Whatever an operation does, and wherever it stops, it got there in steps.
theorem Op.ends_steps {g' : Gate τ}
    (hclean : g.state? = some .candidateClosed → g.db.pendingRecoveryClose = none)
    (h : g' ∈ op.ends g) : Steps op g.start g' := by
  have h₀ : Steps op g.start g.start := .refl
  suffices hw : Runs op g.start (fun _ _ => True) op.run g.start from hw.ends g' h
  cases op
  case stage     => exact (stage_runs h₀ (.inl rfl) rfl).void
  case close     => exact (close_runs h₀ rfl rfl rfl).mono fun _ _ _ => trivial
  case «open»    => exact (open_runs h₀ rfl hclean).void
  case drain     => exact (drain_runs rfl h₀).void
  case observe   => exact (observe_runs h₀ rfl rfl rfl).void
  case rollback  => exact (rollback_runs h₀ rfl rfl rfl).void
  case failClose =>
    refine (failClose_runs h₀ (.inl rfl) fun row g' _ hn ht _ ha hf => ?_).void
    exact .failClose (by rw [hn]) ha hf ht
  case reconcile => exact (reconcile_runs h₀).void

end Gate
