import ExtManager.Gate.Honest

open Crash Prog Relation GateDb DeterministicTrafficAdapter

namespace GateState

-- The candidate has left `CANDIDATE_STAGED`.
def afterClose : GateState → Bool
  | predecessorOpen | candidateStaged => false
  | _                                 => true

-- The open of the candidate is over.
def afterOpen : GateState → Bool
  | candidateOpen | draining | rolledBack | failedSafe | safetyUnknown => true
  | _                                                                  => false

-- The activation is over.
def ended : GateState → Bool
  | rolledBack | failedSafe | safetyUnknown => true
  | _                                       => false

variable {s s' : GateState}

theorem ended_accepts (h : s.ended) (ha : s.accepts s') : s' = s := by
  revert h ha
  cases s
  all_goals
    cases s'
    all_goals decide

theorem afterClose_accepts (h : s.afterClose) (ha : s.accepts s') : s'.afterClose := by
  revert h ha
  cases s
  all_goals
    cases s'
    all_goals decide

theorem afterOpen_accepts (h : s.afterOpen) (ha : s.accepts s') : s'.afterOpen := by
  revert h ha
  cases s
  all_goals
    cases s'
    all_goals decide

end GateState

namespace Gate

section Runs

variable [Sha256] {τ : Type} [TrafficAdapter τ] {g g' : Gate τ} {row : GateRow} {op : Op}
variable {g₀ : Gate τ} {db : GateDb} {may : Op → Gate τ → Prop} {env : τ → τ → Prop}

theorem calls_next (hr : ReflTransGen (Calls may env) g g') :
    ReflTransGen (Next Always Anything) g g' :=
  ReflTransGen.mono (fun _ _ (h : Calls may env _ _) => h.next) _ _ hr

omit [Sha256] [TrafficAdapter τ] in
theorem state?_congr (h : g'.db = g.db) : g'.state? = g.state? := by
  rw [state?, h, state?]

-- What a row and its state look like at any later time.
theorem run_row {p : GateState → Prop} (hp : ∀ s s', p s → s.accepts s' → p s')
    (hr : ReflTransGen (Next Always Anything) g g') (h : g.db.Inv) (hrow : g.db.row = some row)
    (hs : p row.state) : g'.db.Inv ∧ ∃ row', g'.db.row = some row' ∧ Same row row' ∧ p row'.state ∧
      ∀ t ∈ g.db.openReceipts, t ∈ g'.db.openReceipts := by
  let P (db : GateDb) := ∃ row', db.row = some row' ∧ Same row row' ∧ p row'.state ∧
    ∀ t ∈ g.db.openReceipts, t ∈ db.openReceipts
  refine run_db_invariant (P := P) hr h ⟨row, hrow, .rfl, hs, fun _ h => h⟩ ?_
  intro _ _ _ db _ ⟨row', hr', same, hs', ho⟩ hc
  have ⟨row'', hr'', same', ha, ts, ht, _⟩ := hc.grows hr'
  exact ⟨row'', hr'', same.trans same', hp _ _ hs' ha,
    fun t h => (mem_openReceipts_of_grows ht).mpr (.inr (ho t h))⟩

omit [TrafficAdapter τ] in
theorem predecessorDone_of_unfinished (h : db.Inv) (hr : db.row = some row)
    (hs : row.state = .candidateOpen ∨ row.state = .draining)
    (hu : db.unfinished row.predecessorGeneration = 0) : PredecessorDone db := by
  have ⟨_, _, receipt, _, hc, _⟩ := (h.row row hr).phase.of_open hs
  refine ⟨by simp [hc], fun row' hr' a ha hg => ?_⟩
  rw [Option.some.inj (hr'.symm.trans hr)] at hg
  rw [unfinished, List.countP_eq_zero] at hu
  have := hu a ha
  cases hf : a.finishedAt
  case none   => simp [hg, hf] at this
  case some _ => rfl

omit [Sha256] [TrafficAdapter τ] in
theorem unfinished_of_predecessorDone (h : PredecessorDone db) (hr : db.row = some row) :
    db.unfinished row.predecessorGeneration = 0 := by
  rw [unfinished, List.countP_eq_zero]
  intro a ha
  by_cases hg : a.chosenGeneration = row.predecessorGeneration
  case pos => simp [Option.isSome_iff_ne_none.mp (h.right row hr a ha hg)]
  case neg => simp [hg]

-- The drain is still going on, or it is over and with it the last request of the predecessor.
def DrainInv (db : GateDb) : Prop :=
  ∃ row, db.row = some row ∧ row.state.afterOpen ∧ (row.state = .candidateOpen → PredecessorDone db)

-- Nothing but the end of a drain brings the gate back to `CANDIDATE_OPEN`.
theorem Commit.reopened {row' : GateRow} (hc : Commit op g₀ g db) (hr : g.db.row = some row)
    (hs : row.state.afterOpen) (hne : row.state ≠ .candidateOpen) (hr' : db.row = some row')
    (hs' : row'.state = .candidateOpen) :
    row.state = .draining ∧ g.db.unfinished row.predecessorGeneration = 0 := by
  cases hc
  case stage hn _ _ _ _ _ => simp [hn] at hr
  case append | admission | finish =>
    exact absurd (Option.some.inj (hr.symm.trans hr') ▸ hs') hne
  case recovery hv _ =>
    have hrow := Option.some.inj hr'
    subst hrow
    rcases hv.ended with he | he | he
    all_goals simp [he] at hs'
  case move row₁ target _ _ _ _ _ update hr₁ ha hm hcorr =>
    obtain rfl : row₁ = row := Option.some.inj ((getRow_ok_iff.mp hr₁).left.symm.trans hr)
    have hrow : movedRow g.db row₁ target update = row' := Option.some.inj hr'
    have ht : target = .candidateOpen := by
      rw [← hs', ← hrow, hm.same.right]
    cases hm
    case drained hst hu             => exact ⟨hst, hu⟩
    case opened hst _ _ _ _ _ _     => simp [hst, GateState.afterOpen] at hs
    case terminal _ hv _            =>
      rcases hv.ended with he | he | he
      all_goals simp [he] at ht
    all_goals simp at ht

theorem Commit.drainInv (hc : Commit op g₀ g db) (h : g.db.Inv) (hd : DrainInv g.db) :
    DrainInv db := by
  have ⟨row, hr, hs, hdone⟩ := hd
  have ⟨row', hr', _, ha, _⟩ := hc.grows hr
  refine ⟨row', hr', GateState.afterOpen_accepts hs ha, fun hs' => hc.predecessorDone h ?_⟩
  by_cases hst : row.state = .candidateOpen
  case pos => exact hdone hst
  case neg =>
    have ⟨hdr, hu⟩ := hc.reopened hr hs hst hr' hs'
    exact predecessorDone_of_unfinished h hr (.inr hdr) hu

-- No other operation than `drain` begins a drain.
theorem Commit.not_draining (hc : Commit op g₀ g db) (hop : ∀ n, op ≠ .drain n)
    (hs : ∀ row, g.db.row = some row → row.state ≠ .draining) :
    ∀ row, db.row = some row → row.state ≠ .draining := by
  intro row' hr'
  cases hc
  case stage =>
    have hrow := Option.some.inj hr'
    subst hrow
    simp
  case append | admission | finish => exact hs row' hr'
  case recovery hv _ =>
    have hrow := Option.some.inj hr'
    subst hrow
    rcases hv.ended with he | he | he
    all_goals simp [he]
  case move row target _ _ _ _ _ update hr ha hm hcorr =>
    have hrow : movedRow g.db row target update = row' := Option.some.inj hr'
    rw [← hrow, hm.same.right]
    cases hm
    case draining h      => exact absurd h (hop _)
    case terminal _ hv _ =>
      rcases hv.ended with he | he | he
      all_goals simp [he]
    all_goals simp

theorem Op.not_draining (h : g.db.Inv) (hop : ∀ n, op ≠ .drain n)
    (hs : ∀ row, g.db.row = some row → row.state ≠ .draining) :
    ∀ row, (op.after g).db.row = some row → row.state ≠ .draining := by
  let P (db : GateDb) := ∀ row, db.row = some row → row.state ≠ .draining
  exact Steps.db_invariant (P := P) (Op.steps_of_ends h Op.after_mem) h hs
    fun _ _ _ hp hc => hc.not_draining hop hp

end Runs

section Again

variable [Sha256] {α : Type} {a : α} {g : Gate DeterministicTrafficAdapter} {row : GateRow} {n : Int}
variable {m : M DeterministicTrafficAdapter α}

namespace Ends

variable {Q : Except Exc α → Gate DeterministicTrafficAdapter → Prop}

omit [Sha256] in
theorem close {k : Unit → M DeterministicTrafficAdapter α} (hf : g.FaultFree)
    (hk : Ends (k ()) Q g) : Ends (call (TrafficAdapter.close n) >>= k) Q g := by
  have hc : TrafficAdapter.close n g.traffic = (.ok (), g.traffic) := by
    simp [TrafficAdapter.close, DeterministicTrafficAdapter.close, DeterministicTrafficAdapter.hit,
      hf.adapter]
  refine wp_call_seq trivial (fun _ _ => ?_) (fun e he => by simp [hc] at he)
  rw [hc]
  exact hk

end Ends

-- The call ends as `a` or as a `GateError`, and the gate stays where it was with its route.
def Unchanged (a : α) (g : Gate DeterministicTrafficAdapter) (v : Except Exc α)
    (g' : Gate DeterministicTrafficAdapter) : Prop :=
  (v = .ok a ∨ ∃ message, v = .error (.gate message)) ∧ g'.state? = g.state? ∧
    g'.traffic.route = g.traffic.route

-- A call that returned `a` before is made again in `g`.
def Repeats (m : M DeterministicTrafficAdapter α) (a : α) (g : Gate DeterministicTrafficAdapter) :
    Prop :=
  Unchanged a g (m g.start).value (m g.start).state

theorem stage_again {candidate predecessor : Json} (hn : generationOf predecessor = .ok n)
    (hr : g.db.row = some row) :
    Ends (Gate.stage candidate predecessor) (Unchanged (n + 1) g) g := by
  unfold Gate.stage
  refine wp_lift_seq (fun n' hn' => ?_) (fun e he => by simp [hn] at he)
  obtain rfl : n = n' := Except.ok.inj (hn.symm.trans hn')
  refine wp_read_seq ?_
  rw [hr]
  exact wp_raiseIf_seq (fun _ => ⟨.inr ⟨_, rfl⟩, rfl, rfl⟩) fun _ =>
    wp_pure.mpr ⟨.inl rfl, rfl, rfl⟩

-- What `drain` does for a gate that is draining, and what it does wherever it is called.
def DrainEnds (g : Gate DeterministicTrafficAdapter) (row : GateRow) (v : Except Exc Bool)
    (g' : Gate DeterministicTrafficAdapter) : Prop :=
  g'.traffic.route = g.traffic.route ∧
    (g.db.unfinished row.predecessorGeneration ≠ 0 ∧ v = .ok false ∧ g'.state? = some .draining ∨
      g.db.unfinished row.predecessorGeneration = 0 ∧ v = .ok true ∧
        g'.state? = some .candidateOpen)

omit [Sha256] in
theorem finishDrain_ends {row' : GateRow} (hr : g.db.getRow = .ok row')
    (hs : row'.state = .draining) : Ends (finishDrain row n) (DrainEnds g row) g := by
  have ha : row'.state.accepts .candidateOpen := by simp [hs, GateState.accepts, GateState.allowed]
  have hst : g.state? = some .draining := by simp [state?, (getRow_ok_iff.mp hr).left, hs]
  unfold finishDrain
  refine wp_read_seq ?_
  split
  case isTrue hu  => exact wp_pure.mpr ⟨rfl, .inl ⟨hu, rfl, hst⟩⟩
  case isFalse hu =>
    refine Ends.transition hr (fun _ => wp_pure.mpr ?_) fun hna => absurd ha hna
    exact ⟨rfl, .inr ⟨not_not.mp hu, rfl, rfl⟩⟩

theorem drain_ends (h : g.db.Inv) (hr : g.db.row = some row) :
    Ends (Gate.drain n) (fun v g' =>
      (∃ message, v = .error (.gate message)) ∧ g'.db = g.db ∧
          g'.traffic.route = g.traffic.route ∨
        (row.state = .candidateOpen ∨ row.state = .draining) ∧ DrainEnds g row v g') g := by
  have hr' := h.getRow.mpr hr
  unfold Gate.drain
  refine wp_row_seq (fun row' hr'' => ?_) (fun e he => by simp [hr'] at he)
  obtain rfl : row = row' := Except.ok.inj (hr'.symm.trans hr'')
  refine wp_raiseIf_seq (fun _ => .inl ⟨⟨_, rfl⟩, rfl, rfl⟩) fun hn => ?_
  by_cases hs : row.state = .draining
  case pos =>
    refine wp_when_seq (fun hne => absurd hs hne) fun _ => ?_
    exact wp_mono (finishDrain_ends hr' hs) (fun _ _ h => .inr ⟨.inr hs, h⟩) fun _ h => h
  case neg =>
    refine wp_when_seq (fun _ => ?_) fun hne => absurd hs hne
    refine Ends.transition hr' (fun ha => ?_) fun _ _ => .inl ⟨⟨_, rfl⟩, rfl, rfl⟩
    have hopen : row.state = .candidateOpen := (accepts_draining ha).resolve_right hs
    have hr₁ : (g.setDb (draining g.db row)).db.getRow = .ok (drainingRow g.db row) :=
      getRow_ok_iff.mpr ⟨rfl, (getRow_ok_iff.mp hr').right⟩
    obtain rfl := not_not.mp hn
    exact wp_mono (finishDrain_ends hr₁ rfl) (fun _ _ h => .inr ⟨.inl hopen, h⟩) fun _ h => h

theorem open_again {proof : OpenProof} (h : g.db.Inv) (hr : g.db.row = some row)
    (hs : row.state.afterOpen) (hf : g.FaultFree)
    (hp : expectedPlan row.candidate = .ok (.str proof.planId)) :
    Ends (Gate.open n proof) (fun v g' => ((v = .ok row.routeFence ∧ row.state = .candidateOpen) ∨
      ∃ message, v = .error (.gate message)) ∧ g'.db = g.db ∧ g'.traffic = g.traffic) g := by
  have hr' := h.getRow.mpr hr
  unfold Gate.open
  refine wp_row_seq (fun row' hr'' => ?_) (fun e he => by simp [hr'] at he)
  obtain rfl : row = row' := Except.ok.inj (hr'.symm.trans hr'')
  refine wp_raiseIf_seq (fun _ => ⟨.inr ⟨_, rfl⟩, rfl, rfl⟩) fun _ => ?_
  refine wp_lift_seq (fun _ _ => ?_) (fun e he => by simp [hp] at he)
  refine wp_raiseIf_seq (fun _ => ⟨.inr ⟨_, rfl⟩, rfl, rfl⟩) fun _ => ?_
  refine wp_raiseIf_seq (fun _ => ⟨.inr ⟨_, rfl⟩, rfl, rfl⟩) fun _ => ?_
  refine wp_raiseIf_seq (fun _ => ⟨.inr ⟨_, rfl⟩, rfl, rfl⟩) fun _ => ?_
  refine wp_now_seq <| wp_read_seq ?_
  refine wp_raiseIf_seq (fun _ => ⟨.inr ⟨_, rfl⟩, rfl, rfl⟩) fun _ => ?_
  split
  case isTrue ho =>
    exact wp_raiseIf_seq (fun _ => ⟨.inr ⟨_, rfl⟩, rfl, rfl⟩) fun _ =>
      wp_pure.mpr ⟨.inl ⟨rfl, ho⟩, rfl, rfl⟩
  case isFalse ho =>
    split
    case isTrue  => exact wp_raise.mpr ⟨.inr ⟨_, rfl⟩, rfl, rfl⟩
    case isFalse =>
      have hna : ¬row.state.accepts .opening := by
        revert hs
        cases row.state
        all_goals decide
      refine Ends.hit ⟨hf.gate, hf.adapter⟩ <| Ends.transition hr' (fun ha => absurd ha hna) ?_
      exact fun _ _ => ⟨.inr ⟨_, rfl⟩, rfl, rfl⟩

-- The route is where `close` expects it, or there is none any more.
def CloseAgain (g : Gate DeterministicTrafficAdapter) : Prop :=
  ∀ row, g.db.row = some row → row.state = .candidateClosed ∨
    ¬predecessorMismatch row g.traffic.route ∨ row.state.ended ∧ g.traffic.route = .closed

omit [Sha256] in
theorem failClose_again {reason : String} (hr : g.db.getRow = .ok row)
    (hn : row.candidateGeneration = n) (hs : row.state.ended) (hf : g.FaultFree) :
    Ends (failClose n reason) (fun v g' => (∀ e, v = .error e → ∃ message, e = .gate message) ∧
      g'.state? = g.state? ∧ g'.traffic.route = .closed) g := by
  have hstate : g.state? = some row.state := by simp [state?, (getRow_ok_iff.mp hr).left]
  unfold failClose
  refine wp_row_seq (fun row' hr' => ?_) (fun e he => by simp [hr] at he)
  obtain rfl : row = row' := Except.ok.inj (hr.symm.trans hr')
  subst hn
  refine wp_raiseIf_seq (fun h => absurd rfl h) fun _ => wp_append_seq trivial ?_
  refine Ends.hit ⟨hf.gate, hf.adapter⟩ <| Ends.tryCloseAll hf.adapter ?_
  refine Ends.hit ⟨hf.gate, hf.adapter⟩ <| Ends.tryQueryRoute ⟨hf.gate, hf.adapter⟩ ?_
  refine Ends.transition hr (fun ha => wp_pure.mpr ⟨by simp, ?_, rfl⟩) fun _ message => ?_
  · rw [hstate, ← GateState.ended_accepts hs ha]
    rfl
  · exact ⟨fun e he => ⟨message, (Except.error.inj he).symm⟩, rfl, rfl⟩

theorem closeEffect_again (hr : g.db.getRow = .ok row) (hn : row.candidateGeneration = n)
    (hs : row.state.afterClose) (hne : row.state ≠ .candidateClosed) (hf : g.FaultFree)
    (hc : ¬predecessorMismatch row g.traffic.route ∨
      row.state.ended ∧ g.traffic.route = .closed) : Ends (closeEffect row n) (Unchanged () g) g := by
  unfold closeEffect
  refine Ends.hit hf <| Ends.close hf <| Ends.hit hf <| Ends.queryRoute hf.adapter ?_
  refine Ends.hit ⟨hf.gate, hf.adapter⟩ ?_
  split
  case isTrue hm =>
    have ⟨hst, hroute⟩ := hc.resolve_left (not_not.mpr hm)
    refine wp_append_seq trivial <| wp_seq (failClose_again hr hn hst ⟨hf.gate, hf.adapter⟩) ?_ ?_
    · intro _ g' ⟨_, hst', hroute'⟩
      exact wp_raise.mpr ⟨.inr ⟨_, rfl⟩, hst', hroute'.trans hroute.symm⟩
    · intro e g' ⟨he, hst', hroute'⟩
      have ⟨message, he⟩ := he e rfl
      exact ⟨.inr ⟨message, congrArg _ he⟩, hst', hroute'.trans hroute.symm⟩
  case isFalse hm =>
    have hna : ¬row.state.accepts .candidateClosed := by
      revert hs hne
      cases row.state
      all_goals decide
    exact Ends.transition hr (fun ha => absurd ha hna) fun _ _ => ⟨.inr ⟨_, rfl⟩, rfl, rfl⟩

theorem close_again (h : g.db.Inv) (hr : g.db.row = some row) (hs : row.state.afterClose)
    (hf : g.FaultFree) (hc : CloseAgain g) : Ends (Gate.close n) (Unchanged () g) g := by
  have hr' := h.getRow.mpr hr
  unfold Gate.close
  refine wp_row_seq (fun row' hr'' => ?_) (fun e he => by simp [hr'] at he)
  obtain rfl : row = row' := Except.ok.inj (hr'.symm.trans hr'')
  refine wp_raiseIf_seq (fun _ => ⟨.inr ⟨_, rfl⟩, rfl, rfl⟩) fun hn => ?_
  have hn := not_not.mp hn
  split
  case isTrue => exact wp_pure.mpr ⟨.inl rfl, rfl, rfl⟩
  case isFalse hne =>
    have hc := (hc row hr).resolve_left hne
    unfold closeCandidate
    refine wp_read_seq <| wp_when_seq (fun _ => ?_) fun _ => closeEffect_again hr' hn hs hne hf hc
    refine wp_append_seq trivial ?_
    exact closeEffect_again hr' hn hs hne ⟨hf.gate, hf.adapter⟩ hc

end Again

section Duplicates

variable [Sha256] {g₁ g₂ g : Gate DeterministicTrafficAdapter} {n : Int}

omit [Sha256] in
theorem mem_ends_void {α : Type} {m : M DeterministicTrafficAdapter α} {a : α}
    (h : Returned m a g₁ g₂) : g₂ ∈ (void m g₁.start).ends := by
  rw [ends_void]
  exact Returns.mem_ends h

theorem stage_repeats {candidate predecessor : Json} (h : g₁.db.Inv)
    (hr : ReflTransGen (Next Always Anything) g₂ g)
    (hret : Returned (Gate.stage candidate predecessor) n g₁ g₂) :
    Repeats (Gate.stage candidate predecessor) n g := by
  have he : g₂ ∈ Op.ends (.stage candidate predecessor) g₁ := mem_ends_void hret
  have ⟨m, hm, hn, hcases⟩ := stage_returns hret
  have ⟨row, hrow⟩ : ∃ row, g₂.db.row = some row := by
    rcases hcases with ⟨he, hne⟩ | ⟨_, _, _, _, hd⟩
    · exact Option.ne_none_iff_exists'.mp (he ▸ hne)
    · exact ⟨_, congrArg GateDb.row hd⟩
  have ⟨_, row', hrow', _⟩ := run_row (p := fun _ => True) (fun _ _ _ _ => trivial) hr
    (Op.ends_inv h he) hrow trivial
  exact hn ▸ (stage_again (g := g.start) hm hrow').right

theorem close_repeats {u : Unit} (h : g₁.db.Inv) (hr : ReflTransGen (Next Always Anything) g₂ g)
    (hret : Returned (Gate.close n) u g₁ g₂) (hf : g.FaultFree) (hc : CloseAgain g) :
    Repeats (Gate.close n) u g := by
  have he : g₂ ∈ Op.ends (.close n) g₁ := Returns.mem_ends hret
  have hs : g₂.state? = some .candidateClosed := by
    rcases close_returns hret with ⟨he, hs⟩ | ⟨_, _, _, _, _, _, _, hd⟩
    · exact (state?_congr he).trans hs
    · rw [state?, hd]
      rfl
  obtain ⟨row, hrow, hs⟩ := Option.map_eq_some_iff.mp hs
  obtain ⟨hinv, row', hrow', _, hs', _⟩ := run_row (p := (·.afterClose))
    (fun _ _ => GateState.afterClose_accepts) hr (Op.ends_inv h he) hrow (hs ▸ rfl)
  exact (close_again (g := g.start) hinv hrow' hs' ⟨hf.gate, hf.adapter⟩ hc).right

-- There is one open, and its receipt has the fence that was returned.
theorem open_repeats {proof : OpenProof} {fence : String} (h : g₁.db.Inv)
    (hr : ReflTransGen (Next Always Anything) g₂ g)
    (hret : Returned (Gate.open n proof) fence g₁ g₂) (hf : g.FaultFree) :
    Repeats (Gate.open n proof) fence g := by
  have he : g₂ ∈ Op.ends (.open n proof) g₁ := mem_ends_void hret
  have hinv := Op.ends_inv h he
  have ⟨row₁, hr₁, hp, hcases⟩ := open_returns hret
  have ⟨row, hrow, same, hs, hfence⟩ : ∃ row, g₂.db.row = some row ∧ Same row₁ row ∧
      row.state = .candidateOpen ∧ row.routeFence = fence := by
    rcases hcases with ⟨he, hs, hfence⟩ | ⟨r, _, _, _, _, hm, _, hd⟩
    · exact ⟨row₁, he ▸ (getRow_ok_iff.mp hr₁).left, .rfl, hs, hfence.symm⟩
    · refine ⟨_, congrArg GateDb.row hd, ⟨rfl, rfl, rfl, rfl, rfl, rfl, rfl, rfl⟩, rfl, ?_⟩
      exact Option.some.inj (not_not.mp (not_or.mp (not_or.mp hm).right).left)
  have ⟨_, _, receipt, _, hreceipts, _, _, hf', _⟩ := (hinv.row row hrow).phase.of_open (.inl hs)
  have ⟨hinv', row', hrow', same', hs', ho⟩ := run_row (p := (·.afterOpen))
    (fun _ _ => GateState.afterOpen_accepts) hr hinv hrow (hs ▸ rfl)
  have hplan : expectedPlan row'.candidate = .ok (.str proof.planId) := by
    rw [(same.trans same').candidate]
    exact hp.plan
  have ⟨hv, hd, ht⟩ := (open_again (g := g.start) (n := n) hinv' hrow' hs' ⟨hf.gate, hf.adapter⟩
    hplan).right
  refine ⟨hv.imp_left fun ⟨hv, hs⟩ => ?_, state?_congr hd, congrArg _ ht⟩
  have ⟨_, _, receipt', _, hreceipts', _, _, hf'', _⟩ :=
    (hinv'.row row' hrow').phase.of_open (.inl hs)
  have hmem := ho receipt (hreceipts ▸ List.mem_singleton.mpr rfl)
  rw [hreceipts', List.mem_singleton] at hmem
  have hsame : some row'.routeFence = some row.routeFence := by rw [← hf', ← hf'', hmem]
  rw [hv, Option.some.inj hsame, hfence]

-- After a drain that was done, the gate is not left draining again.
structure DrainDone (g : Gate DeterministicTrafficAdapter) : Prop where
  inv  : g.db.Inv
  done : PredecessorDone g.db
  idle : ∀ row, g.db.row = some row → row.state ≠ .draining

theorem Op.predecessorDone {op : Op} (h : g.db.Inv) (hd : PredecessorDone g.db) :
    PredecessorDone (op.after g).db :=
  Steps.db_invariant (P := PredecessorDone) (Op.steps_of_ends h Op.after_mem) h hd
    fun _ _ hi hd hc => hc.predecessorDone hi hd

theorem DrainDone.drain (h : DrainDone g) : DrainDone ((Op.drain n).after g) := by
  refine ⟨Op.ends_inv h.inv Op.after_mem, Op.predecessorDone h.inv h.done, ?_⟩
  have ⟨row, hr⟩ : ∃ row, g.db.row = some row := by
    cases hr : g.db.row
    case none     => exact absurd (by simp [openReceipts, h.inv.empty hr]) h.done.left
    case some row => exact ⟨row, rfl⟩
  let Idle (db : GateDb) := ∀ row, db.row = some row → row.state ≠ .draining
  have hends : Ends (void (Gate.drain n)) (fun _ g' => Idle g'.db) g.start := by
    refine wp_void <| wp_mono (drain_ends (g := g.start) h.inv hr) (fun v g' hv => ?_) fun _ h => h
    have hu : g.start.db.unfinished row.predecessorGeneration = 0 :=
      unfinished_of_predecessorDone h.done hr
    rcases hv with ⟨_, hd, _⟩ | ⟨_, _, ⟨hne, _⟩ | ⟨_, _, hs⟩⟩
    · exact hd ▸ h.idle
    · exact absurd hu hne
    · intro row' hr' hs'
      simp [state?, hr', hs'] at hs
  exact hends.right

theorem DrainDone.calls {may : Op → Gate DeterministicTrafficAdapter → Prop}
    {env : DeterministicTrafficAdapter → DeterministicTrafficAdapter → Prop}
    (hr : ReflTransGen (Calls may env) g₁ g₂) (h : DrainDone g₁) : DrainDone g₂ := by
  induction hr
  case refl => exact h
  case tail hc ih =>
    cases hc
    case op op _ =>
      by_cases hop : ∃ n, op = .drain n
      case pos =>
        obtain ⟨n, rfl⟩ := hop
        exact ih.drain
      case neg =>
        exact ⟨Op.ends_inv ih.inv Op.after_mem, Op.predecessorDone ih.inv ih.done,
          Op.not_draining ih.inv (not_exists.mp hop) ih.idle⟩
    case time => exact ⟨ih.inv, ih.done, ih.idle⟩
    case env  => exact ⟨ih.inv, ih.done, ih.idle⟩

-- What a drain that returned has left.
theorem drain_returned {done : Bool} (h : g₁.db.Inv) (hret : Returned (Gate.drain n) done g₁ g₂) :
    g₂.db.Inv ∧ g₂.state? = some (if done then .candidateOpen else .draining) := by
  have he : g₂ ∈ Op.ends (.drain n) g₁ := mem_ends_void hret
  have ⟨row, _, _, hr, _⟩ := drain_returns hret
  refine ⟨Op.ends_inv h he, ?_⟩
  have hv := (drain_ends (g := g₁.start) (n := n) h (getRow_ok_iff.mp hr).left).right
  rw [hret.left, hret.right] at hv
  rcases hv with ⟨⟨_, hv⟩, _⟩ | ⟨_, _, ⟨_, hv, hs⟩ | ⟨_, hv, hs⟩⟩
  · cases hv
  all_goals
    cases hv
    exact hs

theorem drain_repeats_true {may : Op → Gate DeterministicTrafficAdapter → Prop}
    {env : DeterministicTrafficAdapter → DeterministicTrafficAdapter → Prop} (h : g₁.db.Inv)
    (hr : ReflTransGen (Calls may env) g₂ g) (hret : Returned (Gate.drain n) true g₁ g₂) :
    Repeats (Gate.drain n) true g := by
  obtain ⟨hinv, hs⟩ := drain_returned h hret
  have hdone : PredecessorDone g₂.db := hret.right ▸ (predecessorDone_of_drain h hret.left).right
  have h₂ : DrainDone g₂ := ⟨hinv, hdone, fun row hr hst => by simp [state?, hr, hst] at hs⟩
  have hg := h₂.calls hr
  obtain ⟨row, hrow, _⟩ := Option.map_eq_some_iff.mp hs
  obtain ⟨_, row', hrow', _⟩ := run_row (p := fun _ => True) (fun _ _ _ _ => trivial) (calls_next hr)
    hinv hrow trivial
  have hu : g.start.db.unfinished row'.predecessorGeneration = 0 :=
    unfinished_of_predecessorDone hg.done hrow'
  rcases (drain_ends (g := g.start) (n := n) hg.inv hrow').right with
    ⟨hv, hd, ht⟩ | ⟨hopen, ht, ⟨hne, _⟩ | ⟨_, hv, hst⟩⟩
  · exact ⟨.inr hv, state?_congr hd, ht⟩
  · exact absurd hu hne
  · refine ⟨.inl hv, hst.trans ?_, ht⟩
    simp [state?, hrow', hopen.resolve_right (hg.idle row' hrow')]

-- A drain that goes on is over at last.
structure Finishes (n : Int) (g : Gate DeterministicTrafficAdapter) : Prop where
  before : g.state? = some .draining ∨ g.state? = some .candidateOpen
  value  : (Gate.drain n g.start).value = .ok true
  after  : (Gate.drain n g.start).state.state? = some .candidateOpen
  route  : (Gate.drain n g.start).state.traffic.route = g.traffic.route

theorem drain_repeats_false (h : g₁.db.Inv) (hr : ReflTransGen (Next Always Anything) g₂ g)
    (hret : Returned (Gate.drain n) false g₁ g₂) :
    Repeats (Gate.drain n) false g ∨ Finishes n g := by
  have ⟨hinv, hs⟩ := drain_returned h hret
  have ⟨row, hrow, hst⟩ := Option.map_eq_some_iff.mp hs
  have hst : row.state = .draining := hst
  have hd₂ : DrainInv g₂.db := ⟨row, hrow, by simp [hst, GateState.afterOpen], by simp [hst]⟩
  have ⟨hinv', row', hrow', hs', hdone⟩ := run_db_invariant hr hinv hd₂
    fun _ _ _ _ hi hd hc => hc.drainInv hi hd
  have hstate : g.state? = some row'.state := by simp [state?, hrow']
  rcases (drain_ends (g := g.start) (n := n) hinv' hrow').right with
    ⟨hv, hd, ht⟩ | ⟨hopen, ht, ⟨hne, hv, hst'⟩ | ⟨_, hv, hst'⟩⟩
  · exact .inl ⟨.inr hv, state?_congr hd, ht⟩
  · refine .inl ⟨.inl hv, ?_, ht⟩
    rcases hopen with hopen | hopen
    · exact absurd (unfinished_of_predecessorDone (hdone hopen) hrow') hne
    · rw [hst', hstate, hopen]
  · refine .inr ⟨?_, hv, hst', ht⟩
    rw [hstate]
    exact hopen.symm.imp (congrArg some) (congrArg some)

-- Repeated calls, over runs in which every call comes to its end.
theorem duplicate_harmless (h : Reachable Initial (Calls Always Anything) g₁)
    (hr : ReflTransGen (Calls Always Anything) g₂ g) (hf : g.FaultFree) :
    (∀ candidate predecessor n, Returned (Gate.stage candidate predecessor) n g₁ g₂ →
      Repeats (Gate.stage candidate predecessor) n g) ∧
    (∀ n, Returned (Gate.close n) () g₁ g₂ → CloseAgain g → Repeats (Gate.close n) () g) ∧
    (∀ n proof fence, Returned (Gate.open n proof) fence g₁ g₂ →
      Repeats (Gate.open n proof) fence g) ∧
    (∀ n, Returned (Gate.drain n) true g₁ g₂ → Repeats (Gate.drain n) true g) ∧
    ∀ n, Returned (Gate.drain n) false g₁ g₂ → Repeats (Gate.drain n) false g ∨ Finishes n g := by
  have hinv := reachable_inv (reachable_calls h) fun _ h => h
  have hnext := calls_next hr
  exact ⟨fun _ _ _ hret => stage_repeats hinv hnext hret,
    fun _ hret hc => close_repeats hinv hnext hret hf hc,
    fun _ _ _ hret => open_repeats hinv hnext hret hf,
    fun _ hret => drain_repeats_true hinv hr hret,
    fun _ hret => drain_repeats_false hinv hnext hret⟩

end Duplicates

end Gate

namespace Gate.Sample

def justOpened : Gate DeterministicTrafficAdapter :=
  (Gate.open 2 proof closed.start).state

def drained : Gate DeterministicTrafficAdapter :=
  (Op.drain 2).after justOpened

-- The open is repeated after a drain that was done.
theorem open_repeats_of_drained :
    Returned (Gate.open 2 proof) "gate-2-lease-7-bdf4de17e439-4" closed justOpened ∧
      Repeats (Gate.open 2 proof) "gate-2-lease-7-bdf4de17e439-4" drained := by
  have hclosed : Reachable Initial (Calls Always Anything) closed :=
    .step (.step (.init initial_created) (.op _ trivial)) (.op _ trivial)
  have ⟨hvalue, hfree⟩ :
      (Gate.open 2 proof closed.start).value.toOption = some "gate-2-lease-7-bdf4de17e439-4" ∧
        drained.faults = [] ∧ drained.traffic.faults = [] := by
    decide +kernel
  have hret : Returned (Gate.open 2 proof) "gate-2-lease-7-bdf4de17e439-4" closed justOpened := by
    rw [justOpened]
    exact returned_of_toOption hvalue
  have hrun : ReflTransGen (Calls Always Anything) justOpened drained := .single (.op _ trivial)
  have ⟨_, _, hopen, _⟩ := duplicate_harmless hclosed hrun ⟨hfree.left, hfree.right⟩
  exact ⟨hret, hopen 2 proof _ hret⟩

-- The first request is not finished when the drain begins, and then it is.
def asked : Gate DeterministicTrafficAdapter :=
  (Op.open 2 proof).after <| (Op.close 2).after <| (Op.observe ⟨"first", 3⟩ none).after staged

def waiting : Gate DeterministicTrafficAdapter :=
  (Gate.drain 2 asked.start).state

def answered : Gate DeterministicTrafficAdapter :=
  (Op.observe ⟨"first", 3⟩ (some ⟨4, some "ok", none⟩)).after waiting

-- The drain returns something else than before, and the gate leaves its state.
theorem not_repeats_of_answered :
    Reachable (· = created) (Calls Always fun _ _ => False) asked ∧
    created.faults = [] ∧ created.traffic.faults = [] ∧
    Returned (Gate.drain 2) false asked waiting ∧
    ReflTransGen (Calls Always fun _ _ => False) waiting answered ∧
    answered.state? = some .draining ∧ (Gate.drain 2 answered.start).value = .ok true ∧
    ¬Repeats (Gate.drain 2) false answered := by
  have ⟨hasked, hstate, hanswered⟩ : (Gate.drain 2 asked.start).value.toOption = some false ∧
      answered.state? = some .draining ∧
      (Gate.drain 2 answered.start).value.toOption = some true := by
    decide +kernel
  have hv : (Gate.drain 2 answered.start).value = .ok true := Fallible.ok_of_toOption hanswered
  have hret : Returned (Gate.drain 2) false asked waiting := by
    rw [waiting]
    exact returned_of_toOption hasked
  refine ⟨?_, rfl, rfl, hret, .single (.op _ trivial), hstate, hv, fun h => ?_⟩
  · exact .step (.step (.step (.step (.init rfl) (.op _ trivial)) (.op _ trivial))
      (.op _ trivial)) (.op _ trivial)
  · have hval := h.left
    simp [hv] at hval

end Gate.Sample
