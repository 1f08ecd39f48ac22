import ExtManager.Gate.Runs

open Crash Prog Relation GateDb

namespace Gate

variable [Sha256] {τ : Type} [TrafficAdapter τ]

-- A run of calls none of which is killed: each one comes to its end where `may` holds, by returning
-- or by raising, and between two calls time passes and the environment changes the adapter.
inductive Calls (may : Op → Gate τ → Prop) (env : τ → τ → Prop) : Gate τ → Gate τ → Prop
  | op {g} (op : Op) : may op g → Calls may env g (op.after g)
  | time {g clock ticks authority} : Calls may env g
      { g with clock := clock, ticks := ticks, authority := authority }
  | env {g t} : env g.traffic t → Calls may env g (g.setTraffic t)

variable {g g' : Gate τ} {α : Type} {a : α} {u : Unit}

theorem Calls.next {may : Op → Gate τ → Prop} {env : τ → τ → Prop} (h : Calls may env g g') :
    Next Always Anything g g' := by
  cases h
  case op op _ => exact .op op trivial Op.after_mem
  case time    => exact .restart
  case env     => exact .env trivial

theorem reachable_calls {init : Gate τ → Prop} {may : Op → Gate τ → Prop} {env : τ → τ → Prop}
    (h : Reachable init (Calls may env) g) : Reachable init (Next Always Anything) g :=
  h.mono (fun _ h => h) fun _ _ h => h.next

section Returns

omit [Sha256] [TrafficAdapter τ] in
theorem returns_hit {point : String} (h : Returns (hit point : M τ Unit) u g g') : g' = g := by
  simp only [hit, returns_silent] at h
  split at h
  case isTrue  => simp at h
  case isFalse => exact (congrArg Prod.snd h).symm

omit [Sha256] [TrafficAdapter τ] in
theorem returns_now {now : Int} (h : Returns (Gate.now : M τ Int) now g g') : g' = g.tick := by
  simp only [Gate.now, returns_silent] at h
  exact (congrArg Prod.snd h).symm

omit [Sha256] [TrafficAdapter τ] in
theorem returns_call {f : τ → Except Exc α × τ} (h : Returns (call f) a g g') : g'.db = g.db := by
  simp only [call, returns_act] at h
  exact (congrArg (·.2.db) h).symm

omit [Sha256] in
theorem returns_queryRoute {r : RouteState} (h : Returns (queryRoute : M τ RouteState) r g g') :
    g'.db = g.db := by
  simp only [queryRoute, returns_act] at h
  split at h
  all_goals exact (congrArg (·.2.db) h).symm

omit [Sha256] in
theorem returns_readRoute {r : RouteState} (h : Returns (readRoute : M τ RouteState) r g g') :
    g' = g.addRead r ∧ TrafficAdapter.route g.traffic = r := by
  simp only [readRoute, returns_silent, Prod.mk.injEq, Except.ok.injEq] at h
  exact ⟨h.left ▸ h.right.symm, h.left⟩

-- A call that is caught leaves the database alone, whatever it does.
omit [Sha256] [TrafficAdapter τ] in
theorem returns_attempt_call {β : Type} {f : τ → Except Exc β × τ} {k : β → α} {k' : Exc → α}
    (h : Returns (attempt (do let b ← call f; pure (k b)) fun e => pure (k' e)) a g g') :
    g'.db = g.db := by
  refine h.of_wp (Q := fun _ g' => g'.db = g.db) (D := fun _ => True) ?_
  simp only [call, wp_attempt, wp_bind, wp_act, wp_pure, true_and]
  split
  all_goals simp

omit [Sha256] in
theorem returns_tryQueryRoute {v : Except String RouteState}
    (h : Returns (tryQueryRoute : M τ _) v g g') : g'.db = g.db := by
  refine h.of_wp (Q := fun _ g' => g'.db = g.db) (D := fun _ => True) ?_
  simp only [tryQueryRoute, queryRoute, wp_attempt, wp_bind, wp_act, wp_pure, true_and]
  rcases TrafficAdapter.queryRoute g.traffic with ⟨v, t⟩
  cases v
  all_goals rfl

omit [Sha256] [TrafficAdapter τ] in
theorem returns_transaction {body : GateDb → Except Exc GateDb}
    (h : Returns (transaction body : M τ Unit) u g g') : ∃ db, body g.db = .ok db ∧ g' = g.setDb db := by
  simp only [transaction, returns_act] at h
  split at h
  case h_1 db hd => exact ⟨db, hd, (congrArg Prod.snd h).symm⟩
  case h_2       => simp at h

omit [Sha256] [TrafficAdapter τ] in
theorem returns_append {n : Int} {kind : GateKind} {operation : GateOperation} {s : GateState}
    {fence : Option String} {detail : Json} {id : Option OperationId}
    (h : Returns (append n kind operation s fence detail id : M τ Unit) u g g') :
    g' = g.setDb (g.db.append n kind operation (some s) none fence detail id) := by
  have ⟨db, hd, he⟩ := returns_transaction h
  exact he.trans (by rw [Except.ok.inj hd])

omit [Sha256] [TrafficAdapter τ] in
theorem returns_transition {n : Int} {target : GateState} {operation : GateOperation}
    {kind : GateKind} {detail : Json} {fence : Option String} {id : Option OperationId}
    {update : Nat → GateRow → GateRow}
    (h : Returns (transition n target operation kind detail fence id update : M τ Unit) u g g') :
    ∃ row, g.db.getRow = .ok row ∧ row.state.accepts target ∧
      g' = g.setDb (g.db.moved row n target operation kind detail fence id update) := by
  have ⟨db, hd, he⟩ := returns_transaction h
  cases ht : g.db.transition n target operation kind detail fence id
  case error => simp [ht] at hd
  case ok r  =>
    have ⟨row, hr, ha, hm⟩ := transition_ok_iff.mp ht
    refine ⟨row, hr, ha, he.trans ?_⟩
    rw [ht, hm] at hd
    rw [← Except.ok.inj hd, moved_updateRow]
    rfl

omit [Sha256] [TrafficAdapter τ] in
theorem returns_transitionAfter {before : GateDb → GateDb} {n : Int} {target : GateState}
    {operation : GateOperation} {kind : GateKind} {detail : Json} {id : Option OperationId}
    (h : Returns (transitionAfter before n target operation kind detail id : M τ Unit) u g g') :
    ∃ row, (before g.db).getRow = .ok row ∧ row.state.accepts target ∧
      g' = g.setDb ((before g.db).moved row n target operation kind detail none id
        fun _ row => row) := by
  have ⟨db, hd, he⟩ := returns_transaction h
  cases ht : (before g.db).transition n target operation kind detail none id
  case error => simp [ht] at hd
  case ok r  =>
    have ⟨row, hr, ha, hm⟩ := transition_ok_iff.mp ht
    refine ⟨row, hr, ha, he.trans ?_⟩
    rw [ht, hm] at hd
    rw [← Except.ok.inj hd]

end Returns

-- What the calls that return have written, each with what the code knows then.

section Ops

variable {n : Int}

omit [Sha256] in
theorem failClose_returns {reason : String} {res : FailCloseResult}
    (h : Returns (failClose n reason) res g g') :
    ∃ row actual detail detail', g.db.getRow = .ok row ∧ row.candidateGeneration = n ∧
      row.state.accepts (closeClass actual).target ∧
      g'.db = (g.db.append n .intent .failClose (some row.state) none (some "closed") detail
        none).moved row n (closeClass actual).target .failClose .receipt detail' none none
        (recordRoute actual) := by
  unfold failClose at h
  have ⟨row, _, h₁, h⟩ := returns_bind.mp h
  obtain ⟨hr, rfl⟩ := returns_lift.mp h₁
  have ⟨_, _, h₂, h⟩ := returns_bind.mp h
  obtain ⟨hn, rfl⟩ := returns_raiseIf.mp h₂
  have ⟨_, g₃, h₃, h⟩ := returns_bind.mp h
  have ⟨_, g₄, h₄, h⟩ := returns_bind.mp h
  have ⟨closeError, g₅, h₅, h⟩ := returns_bind.mp h
  have ⟨_, g₆, h₆, h⟩ := returns_bind.mp h
  have ⟨actual, g₇, h₇, h⟩ := returns_bind.mp h
  have ⟨_, g₈, h₈, hpure⟩ := returns_bind.mp h
  have hd : g₇.db = g.db.append n .intent .failClose (some row.state) none (some "closed")
      (.obj [("reason", .str reason)]) none := by
    rw [returns_tryQueryRoute h₇, returns_hit h₆, returns_attempt_call h₅, returns_hit h₄,
      returns_append h₃]
    rfl
  have ⟨row', hr', ha, he⟩ := returns_transition h₈
  have hrow : row' = row := by
    rw [hd] at hr'
    exact Except.ok.inj (hr'.symm.trans hr)
  subst hrow
  obtain ⟨-, rfl⟩ := returns_pure.mp hpure
  rw [hd] at he
  exact ⟨row', actual, _, _, hr, not_not.mp hn, ha, congrArg Gate.db he⟩

omit [Sha256] in
theorem returns_closeAfterRestore {c : RollbackClass}
    (h : Returns (closeAfterRestore : M τ _) c g g') : g'.db = g.db := by
  have ⟨_, g₁, h₁, h⟩ := returns_bind.mp h
  have ⟨_, g₂, h₂, h⟩ := returns_bind.mp h
  rw [← (returns_pure.mp h).right, (returns_readRoute h₂).left, addRead_db, returns_attempt_call h₁]

omit [Sha256] in
theorem returns_restoreOutcome {row : GateRow} {oracle : Option BehavioralOracleResult}
    {restored : Option RouteState} {c : RollbackClass}
    (h : Returns (restoreOutcome row oracle restored : M τ _) c g g') : g'.db = g.db := by
  have ⟨behavioral, _, h₁, h⟩ := returns_bind.mp h
  obtain ⟨_, rfl⟩ := returns_read.mp h₁
  split at h
  case h_1 => exact returns_closeAfterRestore h
  case h_2 =>
    split at h
    case isTrue => rw [(returns_pure.mp h).right]
    case isFalse =>
      split at h
      case isTrue  => rw [(returns_pure.mp h).right]
      case isFalse => exact returns_closeAfterRestore h

omit [Sha256] in
theorem rollback_returns {oracle : Option BehavioralOracleResult} {c : RollbackClass}
    (h : Returns (rollback n oracle) c g g') :
    ∃ row fence detail detail' update, g.db.getRow = .ok row ∧ row.candidateGeneration = n ∧
      row.state.accepts c.target ∧ OnlyRoute update ∧
      g'.db = (g.db.append n .intent .rollback (some row.state) none fence detail none).moved row n
        c.target .rollback .receipt detail' none none update := by
  unfold rollback at h
  have ⟨row, _, h₁, h⟩ := returns_bind.mp h
  obtain ⟨hr, rfl⟩ := returns_lift.mp h₁
  have ⟨_, _, h₂, h⟩ := returns_bind.mp h
  obtain ⟨hn, rfl⟩ := returns_raiseIf.mp h₂
  have ⟨_, g₃, h₃, h⟩ := returns_bind.mp h
  have ⟨_, g₄, h₄, h⟩ := returns_bind.mp h
  have ⟨restored, g₅, h₅, h⟩ := returns_bind.mp h
  have ⟨outcome, g₆, h₆, h⟩ := returns_bind.mp h
  have ⟨_, g₇, h₇, h⟩ := returns_bind.mp h
  have ⟨route, g₈, h₈, h⟩ := returns_bind.mp h
  have ⟨_, g₉, h₉, hpure⟩ := returns_bind.mp h
  have hd : g₈.db = g.db.append n .intent .rollback (some row.state) none
      (some (predecessorFence row.predecessorGeneration))
      (.obj [("behavioral_oracle", .ofOption BehavioralOracleResult.asdict oracle)]) none := by
    rw [(returns_readRoute h₈).left, addRead_db, returns_hit h₇, returns_restoreOutcome h₆,
      returns_attempt_call h₅, returns_hit h₄, returns_append h₃]
    rfl
  have ⟨row', hr', ha, he⟩ := returns_transition h₉
  have hrow : row' = row := by
    rw [hd] at hr'
    exact Except.ok.inj (hr'.symm.trans hr)
  subst hrow
  obtain ⟨rfl, rfl⟩ := returns_pure.mp hpure
  rw [hd] at he
  exact ⟨row', _, _, _, _, hr, not_not.mp hn, ha, fun _ _ => ⟨_, _, rfl⟩, congrArg Gate.db he⟩

-- What `close` has to continue from: its intent is written unless it is there already.
def closing (db : GateDb) (row : GateRow) (n : Int) : GateDb :=
  if db.pendingClose ⟨.close, n⟩ then db
  else db.append n .intent .close (some row.state) none none (.obj []) (some ⟨.close, n⟩)

theorem close_returns (h : Returns (Gate.close n) u g g') :
    (g'.db = g.db ∧ g.state? = some .candidateClosed) ∨ ∃ row r, g.db.getRow = .ok row ∧ row.candidateGeneration = n ∧
      row.state ≠ .candidateClosed ∧ row.state.accepts .candidateClosed ∧
      ¬predecessorMismatch row r ∧
      g'.db = (closing g.db row n).moved row n .candidateClosed .close .receipt
        (.obj [("actual_route", r.asdict),
          ("observed_predecessor_digest", .str (digestOf r.snapshot))]) none (some ⟨.close, n⟩)
        fun _ row => { row with observedPredecessorDigest := some (digestOf r.snapshot) } := by
  unfold Gate.close at h
  obtain ⟨row, _, h₁, h⟩ := returns_bind.mp h
  obtain ⟨hr, rfl⟩ := returns_lift.mp h₁
  obtain ⟨_, _, h₂, h⟩ := returns_bind.mp h
  obtain ⟨hn, rfl⟩ := returns_raiseIf.mp h₂
  split at h
  case isTrue hs =>
    refine .inl ⟨by rw [(returns_pure.mp h).right], ?_⟩
    simp [state?, (getRow_ok_iff.mp hr).left, hs]
  case isFalse hs =>
    unfold closeCandidate at h
    obtain ⟨pending, _, h₃, h⟩ := returns_bind.mp h
    obtain ⟨hp, rfl⟩ := returns_read.mp h₃
    obtain ⟨_, g₄, h₄, h⟩ := returns_bind.mp h
    unfold closeEffect at h
    obtain ⟨_, g₅, h₅, h⟩ := returns_bind.mp h
    obtain ⟨_, g₆, h₆, h⟩ := returns_bind.mp h
    obtain ⟨_, g₇, h₇, h⟩ := returns_bind.mp h
    obtain ⟨actual, g₈, h₈, h⟩ := returns_bind.mp h
    obtain ⟨_, g₉, h₉, h⟩ := returns_bind.mp h
    have hclosing : g₄.db = closing g.db row n := by
      subst hp
      unfold closing
      by_cases hp : g.db.pendingClose ⟨.close, n⟩
      case pos =>
        simp only [when, hp, not_true_eq_false, if_false, returns_pure] at h₄
        rw [if_pos hp, h₄.right]
      case neg =>
        simp only [when, hp, Bool.false_eq_true, not_false_eq_true, if_true] at h₄
        rw [if_neg hp, returns_append h₄, setDb_db]
    have hd : g₉.db = closing g.db row n := by
      rw [returns_hit h₉, returns_queryRoute h₈, returns_hit h₇, returns_call h₆, returns_hit h₅,
        hclosing]
    split at h
    case isTrue =>
      obtain ⟨_, _, _, h⟩ := returns_bind.mp h
      obtain ⟨_, _, _, h⟩ := returns_bind.mp h
      exact absurd h returns_raise
    case isFalse hm =>
      obtain ⟨_, g₁₀, h₁₀, hpure⟩ := returns_bind.mp h
      obtain ⟨row', hr', ha, he⟩ := returns_transition h₁₀
      have hrow : row' = row := by
        have hrow' : (closing g.db row n).getRow = .ok row := by
          unfold closing
          split
          all_goals exact hr
        rw [hd, hrow'] at hr'
        exact (Except.ok.inj hr').symm
      subst hrow
      obtain ⟨-, rfl⟩ := returns_pure.mp hpure
      refine .inr ⟨row', actual, hr, not_not.mp hn, hs, ha, hm, ?_⟩
      rw [he, setDb_db, hd]

-- The row while the candidate is being opened.
def openingRow (db : GateDb) (row : GateRow) (proof : OpenProof) : GateRow :=
  { row with
    state         := .opening
    transitionSeq := db.nextSeq
    revision      := row.revision + 1
    proofDigest   := some proof.digest }

-- The database once the open is announced.
def announced (db : GateDb) (row : GateRow) (proof : OpenProof) : GateDb :=
  db.moved row row.candidateGeneration .opening .open .intent proof.intentDetail
    (some (candidateFence row.candidateGeneration proof row.transitionSeq)) none
    fun _ row => { row with proofDigest := some proof.digest }

-- What `open` checks before it looks at the state.
structure Provable (row : GateRow) (n : Int) (proof : OpenProof) : Prop where
  generation      : row.candidateGeneration = n
  candidateDigest : proof.candidateDigest = row.candidateDigest
  lease           : proof.lease = row.lease
  plan            : expectedPlan row.candidate = .ok (.str proof.planId)

theorem open_returns {proof : OpenProof} {fence : String}
    (h : Returns (Gate.open n proof) fence g g') :
    ∃ row, g.db.getRow = .ok row ∧ Provable row n proof ∧
      ((g'.db = g.db ∧ row.state = .candidateOpen ∧ fence = row.routeFence) ∨
        ∃ r detail, row.state.accepts .opening ∧ row.state ≠ .opening ∧
          fence = candidateFence n proof row.transitionSeq ∧
          ¬candidateMismatch n (some fence) proof.candidateDigest r ∧
          detail = Json.obj [("actual_route", .int n),
            ("lease_fencing_token", .int proof.lease.fencingToken),
            ("observed_candidate_digest", .str (digestOf r.snapshot)),
            ("proof_digest", .str proof.digest)] ∧
          g'.db = (announced g.db row proof).moved (openingRow g.db row proof) n .candidateOpen
            .open .receipt detail (some fence) none (recordOpen n r)) := by
  unfold Gate.open at h
  have ⟨row, _, h₁, h⟩ := returns_bind.mp h
  obtain ⟨hr, rfl⟩ := returns_lift.mp h₁
  have ⟨_, _, h₂, h⟩ := returns_bind.mp h
  obtain ⟨hn, rfl⟩ := returns_raiseIf.mp h₂
  have ⟨expected, _, h₃, h⟩ := returns_bind.mp h
  obtain ⟨hexpected, rfl⟩ := returns_lift.mp h₃
  have ⟨_, _, h₄, h⟩ := returns_bind.mp h
  obtain ⟨hplan, rfl⟩ := returns_raiseIf.mp h₄
  have ⟨_, _, h₅, h⟩ := returns_bind.mp h
  obtain ⟨hdigest, rfl⟩ := returns_raiseIf.mp h₅
  have ⟨_, _, h₆, h⟩ := returns_bind.mp h
  obtain ⟨_, rfl⟩ := returns_raiseIf.mp h₆
  have ⟨now, g₇, h₇, h⟩ := returns_bind.mp h
  obtain rfl := returns_now h₇
  have ⟨valid, _, h₈, h⟩ := returns_bind.mp h
  obtain ⟨_, rfl⟩ := returns_read.mp h₈
  have ⟨_, _, h₉, h⟩ := returns_bind.mp h
  obtain ⟨hlease, rfl⟩ := returns_raiseIf.mp h₉
  have hn := not_not.mp (not_or.mp hn).right
  have hplan : expectedPlan row.candidate = .ok (.str proof.planId) := by
    rw [not_not.mp hplan]
    exact hexpected
  refine ⟨row, hr, ⟨hn, not_not.mp hdigest, not_not.mp (not_or.mp hlease).left, hplan⟩, ?_⟩
  subst hn
  split at h
  case isTrue hs =>
    have ⟨_, _, h₁₀, h⟩ := returns_bind.mp h
    obtain ⟨_, rfl⟩ := returns_raiseIf.mp h₁₀
    obtain ⟨rfl, rfl⟩ := returns_pure.mp h
    exact .inl ⟨rfl, hs, rfl⟩
  case isFalse =>
    split at h
    case isTrue => exact absurd h returns_raise
    case isFalse hs =>
      unfold openCandidate at h
      have ⟨_, _, h₁₀, h⟩ := returns_bind.mp h
      obtain rfl := returns_hit h₁₀
      have ⟨_, g₁, h₁₁, h⟩ := returns_bind.mp h
      have ⟨row₁, hr₁, ha, he₁⟩ := returns_transition h₁₁
      obtain rfl : row₁ = row := Except.ok.inj (hr₁.symm.trans hr)
      unfold openEffect at h
      have ⟨_, g₂, h₁₂, h⟩ := returns_bind.mp h
      have ⟨_, g₃, h₁₃, h⟩ := returns_bind.mp h
      have ⟨_, g₄, h₁₄, h⟩ := returns_bind.mp h
      have ⟨_, g₅, h₁₅, h⟩ := returns_bind.mp h
      have ⟨actual, g₆, h₁₆, h⟩ := returns_bind.mp h
      have ⟨_, g₇, h₁₇, h⟩ := returns_bind.mp h
      have hd : g₇.db = announced g.db row₁ proof := by
        rw [returns_hit h₁₇, returns_queryRoute h₁₆, returns_hit h₁₅, returns_call h₁₄,
          returns_now h₁₃, tick_db, returns_hit h₁₂, he₁]
        rfl
      split at h
      case isTrue =>
        have ⟨_, _, _, h⟩ := returns_bind.mp h
        have ⟨_, _, _, h⟩ := returns_bind.mp h
        exact absurd h returns_raise
      case isFalse hm =>
        have ⟨_, g₈, h₁₈, hpure⟩ := returns_bind.mp h
        have ⟨row₂, hr₂, _, he₂⟩ := returns_transition h₁₈
        have hrow : openingRow g.db row₁ proof = row₂ := by
          rw [hd] at hr₂
          exact Option.some.inj (getRow_ok_iff.mp hr₂).left
        subst hrow
        obtain ⟨rfl, rfl⟩ := returns_pure.mp hpure
        rw [hd] at he₂
        exact .inr ⟨actual, _, ha, hs, rfl, hm, rfl, congrArg Gate.db he₂⟩

-- The row and the database while the predecessor's requests finish.
def drainingRow (db : GateDb) (row : GateRow) : GateRow :=
  { row with state := .draining, transitionSeq := db.nextSeq, revision := row.revision + 1 }

def draining (db : GateDb) (row : GateRow) : GateDb :=
  db.moved row row.candidateGeneration .draining .drain .intent (.obj []) none none fun _ row => row

-- Where `drain` stands once the gate is draining: it was so before, or the call has made it so.
inductive Drains (db : GateDb) (row : GateRow) : GateDb → GateRow → Prop
  | already : row.state = .draining → Drains db row db row
  | now : row.state ≠ .draining → row.state.accepts .draining →
      Drains db row (draining db row) (drainingRow db row)

omit [Sha256] [TrafficAdapter τ] in
theorem finishDrain_returns {row row₁ : GateRow} {done : Bool} (hr : g.db.getRow = .ok row₁)
    (h : Returns (finishDrain row n : M τ Bool) done g g') :
    (done = false ∧ g'.db = g.db) ∨ (done = true ∧ g.db.unfinished row.predecessorGeneration = 0 ∧
      g'.db = g.db.moved row₁ n .candidateOpen .drain .receipt
        (.obj [("unfinished_predecessor", .int 0)]) none none fun _ row => row) := by
  unfold finishDrain at h
  have ⟨_, _, h₁, h⟩ := returns_bind.mp h
  obtain ⟨hu, rfl⟩ := returns_read.mp h₁
  split at h
  case isTrue  =>
    obtain ⟨rfl, rfl⟩ := returns_pure.mp h
    exact .inl ⟨rfl, rfl⟩
  case isFalse hz =>
    have ⟨_, _, h₂, hpure⟩ := returns_bind.mp h
    have ⟨row', hr', _, he⟩ := returns_transition h₂
    obtain rfl : row' = row₁ := Except.ok.inj (hr'.symm.trans hr)
    obtain ⟨rfl, rfl⟩ := returns_pure.mp hpure
    exact .inr ⟨rfl, hu.trans (not_not.mp hz), congrArg Gate.db he⟩

omit [Sha256] [TrafficAdapter τ] in
theorem drain_returns {done : Bool} (h : Returns (Gate.drain n : M τ Bool) done g g') :
    ∃ row db₁ row₁, g.db.getRow = .ok row ∧ row.candidateGeneration = n ∧
      Drains g.db row db₁ row₁ ∧
      ((done = false ∧ g'.db = db₁) ∨ (done = true ∧ db₁.unfinished row.predecessorGeneration = 0 ∧
        g'.db = db₁.moved row₁ n .candidateOpen .drain .receipt
          (.obj [("unfinished_predecessor", .int 0)]) none none fun _ row => row)) := by
  unfold Gate.drain at h
  have ⟨row, _, h₁, h⟩ := returns_bind.mp h
  obtain ⟨hr, rfl⟩ := returns_lift.mp h₁
  have ⟨_, _, h₂, h⟩ := returns_bind.mp h
  obtain ⟨hn, rfl⟩ := returns_raiseIf.mp h₂
  obtain rfl := not_not.mp hn
  have ⟨_, g₁, h₃, h⟩ := returns_bind.mp h
  by_cases hs : row.state = .draining
  case pos =>
    simp only [when, hs, not_true_eq_false, ne_eq, if_false, returns_pure] at h₃
    obtain rfl := h₃.right
    exact ⟨row, _, row, hr, rfl, .already hs, finishDrain_returns hr h⟩
  case neg =>
    simp only [when, hs, ne_eq, not_false_eq_true, if_true] at h₃
    have ⟨row', hr', ha, he⟩ := returns_transition h₃
    obtain rfl : row' = row := Except.ok.inj (hr'.symm.trans hr)
    have hd : g₁.db = draining g.db row' := congrArg Gate.db he
    have hr₁ : g₁.db.getRow = .ok (drainingRow g.db row') := by
      rw [hd, getRow_ok_iff]
      exact ⟨rfl, (getRow_ok_iff.mp hr).right⟩
    have hf := finishDrain_returns hr₁ h
    rw [hd] at hf
    exact ⟨row', _, _, hr, rfl, .now hs ha, hf⟩

theorem stage_returns {candidate predecessor : Json}
    (h : Returns (Gate.stage candidate predecessor : M τ Int) n g g') :
    ∃ m, generationOf predecessor = .ok m ∧ n = m + 1 ∧ ((g'.db = g.db ∧ g.db.row ≠ none) ∨
      ∃ r grant detail, g.db.row = none ∧
        g'.db = { g.db with row := some (stagedRow candidate predecessor m r grant) }.moved
          (stagedRow candidate predecessor m r grant) (m + 1) .candidateStaged .stage .receipt
          detail none none fun _ row => row) := by
  unfold Gate.stage at h
  have ⟨m, _, h₁, h⟩ := returns_bind.mp h
  obtain ⟨hm, rfl⟩ := returns_lift.mp h₁
  have ⟨existing, _, h₂, h⟩ := returns_bind.mp h
  obtain ⟨he, rfl⟩ := returns_read.mp h₂
  refine ⟨m, hm, ?_⟩
  split at h
  case h_1 row =>
    have ⟨_, _, h₃, h⟩ := returns_bind.mp h
    obtain ⟨_, rfl⟩ := returns_raiseIf.mp h₃
    obtain ⟨rfl, rfl⟩ := returns_pure.mp h
    exact ⟨rfl, .inl ⟨rfl, by simp [he]⟩⟩
  case h_2 =>
    have ⟨r, g₃, h₃, h⟩ := returns_bind.mp h
    obtain rfl := (returns_readRoute h₃).left
    have ⟨_, _, h₄, h⟩ := returns_bind.mp h
    obtain ⟨_, rfl⟩ := returns_raiseIf.mp h₄
    have ⟨grant, _, h₅, h⟩ := returns_bind.mp h
    obtain ⟨_, rfl⟩ := returns_read.mp h₅
    have ⟨_, _, h₆, hpure⟩ := returns_bind.mp h
    have ⟨row, hr, _, hend⟩ := returns_transitionAfter h₆
    obtain ⟨rfl, rfl⟩ := returns_pure.mp hpure
    obtain rfl := Option.some.inj (getRow_ok_iff.mp hr).left
    exact ⟨rfl, .inr ⟨r, grant, _, he, congrArg Gate.db hend⟩⟩

-- The two databases differ in their requests at most.
def SameTransitions (db db' : GateDb) : Prop :=
  db'.row = db.row ∧ db'.transitions = db.transitions

theorem grantAdmission_returns {request : AdmissionRequest} {a : Admission}
    (h : Returns (grantAdmission request : M τ Admission) a g g') : SameTransitions g.db g'.db := by
  unfold grantAdmission at h
  have ⟨row, _, h₁, h⟩ := returns_bind.mp h
  obtain ⟨_, rfl⟩ := returns_lift.mp h₁
  have ⟨_, _, h₂, h⟩ := returns_bind.mp h
  obtain ⟨_, rfl⟩ := returns_raiseIf.mp h₂
  have ⟨r, g₃, h₃, h⟩ := returns_bind.mp h
  obtain rfl := (returns_readRoute h₃).left
  split at h
  case h_1 => exact absurd h returns_raise
  case h_2 =>
    have ⟨_, _, h₄, h⟩ := returns_bind.mp h
    obtain ⟨_, rfl⟩ := returns_raiseIf.mp h₄
    split at h
    case isTrue =>
      have ⟨_, _, _, h⟩ := returns_bind.mp h
      exact absurd h returns_raise
    case isFalse =>
      have ⟨_, _, h₅, h⟩ := returns_bind.mp h
      obtain ⟨_, rfl⟩ := returns_raiseIf.mp h₅
      have ⟨_, _, h₆, hpure⟩ := returns_bind.mp h
      have ⟨db, hd, he⟩ := returns_transaction h₆
      obtain ⟨-, rfl⟩ := returns_pure.mp hpure
      rw [he, ← Except.ok.inj hd]
      exact ⟨rfl, rfl⟩

omit [Sha256] [TrafficAdapter τ] in
theorem finishAdmission_returns {existing : Admission} {result : AdmissionResult}
    (h : Returns (finishAdmission existing result : M τ Unit) u g g') :
    SameTransitions g.db g'.db := by
  unfold finishAdmission at h
  have ⟨_, _, h₁, h⟩ := returns_bind.mp h
  obtain ⟨_, rfl⟩ := returns_raiseIf.mp h₁
  have ⟨_, _, h₂, h⟩ := returns_bind.mp h
  obtain ⟨_, rfl⟩ := returns_raiseIf.mp h₂
  have ⟨_, _, h₃, h⟩ := returns_bind.mp h
  obtain ⟨_, rfl⟩ := returns_raiseIf.mp h₃
  have ⟨db, hd, he⟩ := returns_transaction h
  rw [he, ← Except.ok.inj hd]
  exact ⟨rfl, rfl⟩

theorem observe_returns {request : AdmissionRequest} {result : Option AdmissionResult}
    (h : Returns (Gate.observe request result : M τ Int) n g g') : SameTransitions g.db g'.db := by
  unfold Gate.observe admitted at h
  obtain ⟨existing, g₁, h₁, h⟩ := returns_bind.mp h
  obtain ⟨_, _, h₀, h₁⟩ := returns_bind.mp h₁
  obtain ⟨_, rfl⟩ := returns_read.mp h₀
  have hsame : SameTransitions g.db g₁.db := by
    split at h₁
    case h_1 =>
      rw [(returns_pure.mp h₁).right]
      exact ⟨rfl, rfl⟩
    case h_2 => exact grantAdmission_returns h₁
  split at h
  case h_1 =>
    obtain ⟨_, _, h₂, hpure⟩ := returns_bind.mp h
    obtain ⟨-, rfl⟩ := returns_pure.mp hpure
    have hfin := finishAdmission_returns h₂
    exact ⟨hfin.left.trans hsame.left, hfin.right.trans hsame.right⟩
  case h_2 =>
    rw [← (returns_pure.mp h).right]
    exact hsame

end Ops

end Gate
