import ExtManager.Gate.Recovery

open Crash Prog Relation GateDb

namespace GateDb

variable {db : GateDb} {n : Int} {kind : GateKind} {operation : GateOperation} {row : GateRow}
variable {fromState toState : Option GateState} {fence : Option String} {detail : Json}
variable {id : Option OperationId}

-- The newest row has the largest sequence number.
def Numbered (db : GateDb) : Prop :=
  db.transitions.Pairwise fun t t' => t'.seq < t.seq

theorem Numbered.append [Sha256] (h : db.Numbered) (hi : db.Inv) :
    (db.append n kind operation fromState toState fence detail id).Numbered :=
  List.pairwise_cons.mpr ⟨fun t ht => Nat.lt_succ_of_le (hi.seq t ht), h⟩

theorem isSome_pending_append [Sha256] (h : db.Inv) {operation' : GateOperation}
    (hk : operation = operation' → kind = .intent) (hp : (db.pending operation').isSome) :
    ((db.append n kind operation fromState toState fence detail id).pending operation').isSome := by
  by_cases ho : operation = operation'
  case pos =>
    rw [pending_cons_intent h.seq rfl rfl ho (hk ho)]
    rfl
  case neg =>
    rw [pending_append_of_ne ho]
    exact hp

end GateDb

namespace Gate

section

variable [Sha256] {τ : Type} [TrafficAdapter τ] {op : Op} {g₀ g g' : Gate τ} {db : GateDb}
variable {row' : GateRow}

theorem Commit.numbered (hc : Commit op g₀ g db) (hi : g.db.Inv) (h : g.db.Numbered) :
    db.Numbered := by
  cases hc
  case stage hr _ _ _ _ _        => simp [Numbered, moved, GateDb.append, hi.empty hr]
  case append | move             => exact h.append hi
  case admission | finish        => exact h
  case recovery row _ _ _ _ _ hr hp _ _ _ =>
    have hr := hi.getRow.mp hr
    have hid := List.find?_some hp
    have hid := (hi.row row hr).recoveryId _ (List.mem_of_find?_eq_some hp) (by simp_all)
    exact (h.append hi).append (append_inv hi hr (by simp) (by simp [hid]) (by simp))

omit [Sha256] [TrafficAdapter τ] in
theorem Announced.pending {operation : GateOperation} (ha : g.Announced operation)
    (h : g.db.Numbered) : (g.db.pending operation).isSome := by
  obtain ⟨t, ts, ht, ho, hk⟩ := ha
  have hi : g.db.latest operation .intent = some t := by simp [latest, ht, ho, hk]
  simp only [GateDb.pending, hi]
  cases hr : g.db.latest operation .receipt
  case none         => rfl
  case some receipt =>
    obtain ⟨hm, _, hk'⟩ := latest_mem hr
    rw [ht, List.mem_cons] at hm
    have hm := hm.resolve_left fun he => by simp [he, hk] at hk'
    rw [Numbered, ht] at h
    simp [(List.pairwise_cons.mp h).left receipt hm]

-- What a transaction tells about the state that it leaves: a verdict or a look at the route has
-- decided it, the candidate has not been opened, or nothing was decided and no intent was settled.
inductive Settles (op : Op) (g₀ g : Gate τ) (db : GateDb) (row' : GateRow) : Prop
  | verdict {row operation} : g.db.row = some row → Same row row' →
      Verdict op g₀ g row operation row'.state → Settles op g₀ g db row'
  | opened {r} : row'.state = .candidateOpen → g.Observed r →
      r.generation = some row'.candidateGeneration → Settles op g₀ g db row'
  | before : row'.state.beforeOpen ∨ row'.state = .opening → Settles op g₀ g db row'
  | kept {row} : g.db.row = some row → Same row row' →
      row'.state = row.state ∨ (row.state = .candidateOpen ∨ row.state = .draining) ∧
        (row'.state = .candidateOpen ∨ row'.state = .draining) →
      (∀ operation, operation = .failClose ∨ operation = .rollback →
        (g.db.pending operation).isSome → (db.pending operation).isSome) → Settles op g₀ g db row'

theorem Commit.settles (hc : Commit op g₀ g db) (h : g.db.Inv) (hr' : db.row = some row') :
    Settles op g₀ g db row' := by
  cases hc
  case stage => cases hr'; exact .before (.inl rfl)
  case admission | finish => exact .kept hr' .rfl (.inl rfl) fun _ _ hp => hp
  case append row kind operation _ _ _ _ _ hn _ =>
    refine .kept hr' .rfl (.inl rfl) fun operation' ho hp => isSome_pending_append h ?_ hp
    cases hn
    all_goals rcases ho with ho | ho <;> simp [ho]
  case recovery row _ _ _ _ _ hr _ _ hv _ =>
    cases hr'
    exact .verdict (h.getRow.mp hr) ⟨rfl, rfl, rfl, rfl, rfl, rfl, rfl, rfl⟩ hv
  case move row target _ _ _ _ _ update hr ha hm _ =>
    have he : movedRow g.db row target update = row' := Option.some.inj hr'
    subst he
    have hr := h.getRow.mp hr
    have ⟨same, ht⟩ : Same row (movedRow g.db row target update) ∧ _ := hm.same
    cases hm
    case closed | opening => exact .before (by simp [ht, GateState.beforeOpen])
    case terminal hv _    => exact .verdict hr same (ht ▸ hv)
    case opened ho hn _   =>
      refine .opened ht ho ?_
      simp only [candidateMismatch, not_or, not_not] at hn
      exact hn.left.trans (by rw [same.candidateGeneration])
    case draining =>
      refine .kept hr same (.inr ⟨accepts_draining ha, .inr ht⟩) fun o ho hp => ?_
      refine isSome_pending_append h (fun _ => rfl) hp
    case drained hs _ _ =>
      refine .kept hr same (.inr ⟨.inr hs, .inl ht⟩) fun o ho hp => ?_
      rw [pending_moved_of_ne (by rcases ho with ho | ho <;> simp [ho])]
      exact hp

end

open DeterministicTrafficAdapter

variable [Sha256] {op : Op} {g₀ g g' : Gate DeterministicTrafficAdapter} {row row' : GateRow}

-- No rollback relies on a behavioral oracle.
def Op.Strict : Op → Prop
  | .rollback _ oracle => oracle = none
  | _                  => True

-- What the gate's state tells about the route as long as no intent that touches it is pending.
structure SettledRow (g : Gate DeterministicTrafficAdapter) (row : GateRow) : Prop where
  failedSafe : row.state = .failedSafe →
    g.traffic.route.isClosed ∨ (g.db.pending .rollback).isSome
  rolledBack : row.state = .rolledBack → isPredecessor row g.traffic.route ∨
    (g.db.pending .failClose).isSome ∨ (g.db.pending .rollback).isSome
  opened     : row.state = .candidateOpen ∨ row.state = .draining →
    g.traffic.route.generation = some row.candidateGeneration ∨
      (g.db.pending .failClose).isSome ∨ (g.db.pending .rollback).isSome

def Settled (g : Gate DeterministicTrafficAdapter) : Prop :=
  ∀ row, g.db.row = some row → g.SettledRow row

-- What a verdict of a strict operation says of the route.
theorem Verdict.route_strict {operation : GateOperation} {s : GateState}
    (hv : Verdict op g₀ g row operation s) (hp : op.Strict) :
    (s = .failedSafe → g.traffic.route.isClosed) ∧
      (s = .rolledBack → isPredecessor row g.traffic.route) := by
  cases hv
  case restored ho hp        => exact ⟨by simp, fun _ => ho.route_eq ▸ hp⟩
  case rolledBack he hr hpre =>
    refine ⟨by simp, fun _ => ?_⟩
    rw [restoreCall_route hr]
    subst he
    rw [Op.Strict] at hp
    exact hpre.resolve_right fun h => by simp [hp, BehavioralOracleResult.accepts] at h
  case failedSafe ho hc      => exact ⟨fun _ => ho.route_eq ▸ hc, by simp⟩
  case unchecked hu _        => exact ⟨fun _ => by rw [hu.route]; rfl, by simp⟩
  case safetyUnknown         => exact ⟨by simp, by simp⟩

theorem Settled.commit {db : GateDb} (hs : g.Settled) (h : g.db.Inv) (hp : op.Strict)
    (hc : Commit op g₀ g db) : (g.setDb db).Settled := by
  intro row' hr'
  cases hc.settles h hr'
  case verdict row _ _ same hv =>
    have ⟨hf, hb⟩ := hv.route_strict hp
    refine ⟨fun he => .inl (hf he), fun he => .inl ?_, fun he => ?_⟩
    · rw [isPredecessor_same same]
      exact hb he
    · have := hv.ended
      rcases he with he | he <;> simp [he] at this
  case opened r he ho hg =>
    exact ⟨by simp [he], by simp [he], fun _ => .inl (by rw [← hg, ← ho.route_eq]; rfl)⟩
  case before he =>
    refine ⟨fun hst => ?_, fun hst => ?_, fun hst => ?_⟩
    · simp [hst, GateState.beforeOpen] at he
    · simp [hst, GateState.beforeOpen] at he
    · rcases hst with hst | hst <;> simp [hst, GateState.beforeOpen] at he
  case kept row hr same hst hk =>
    have hrow := hs row hr
    have hfc := hk .failClose (.inl rfl)
    have hrb := hk .rollback (.inr rfl)
    refine ⟨fun he => ?_, fun he => ?_, fun he => ?_⟩
    · have he' : row.state = .failedSafe := by
        rcases hst with hst | ⟨_, hst⟩
        · exact hst ▸ he
        · simp [he] at hst
      exact (hrow.failedSafe he').imp_right hrb
    · have he' : row.state = .rolledBack := by
        rcases hst with hst | ⟨_, hst⟩
        · exact hst ▸ he
        · simp [he] at hst
      rw [isPredecessor_same same]
      exact (hrow.rolledBack he').imp_right (Or.imp hfc hrb)
    · have he' : row.state = .candidateOpen ∨ row.state = .draining := by
        rcases hst with hst | ⟨hst, _⟩
        · exact hst ▸ he
        · exact hst
      rw [same.candidateGeneration]
      exact (hrow.opened he').imp_right (Or.imp hfc hrb)

omit [Sha256] in
theorem Settled.congr (hs : g.Settled) (hd : g'.db = g.db)
    (hr : g'.traffic.route = g.traffic.route) : g'.Settled := by
  intro row hrow
  have h := hs row (hd ▸ hrow)
  exact ⟨by simpa only [hd, hr] using h.failedSafe, by simpa only [hd, hr] using h.rolledBack,
    by simpa only [hd, hr] using h.opened⟩

-- An operation that closes the route of an ended gate has announced it.
theorem CloseCause.pending (hc : CloseCause op g₀ g row) (hn : g.db.Numbered)
    (h : g.db.RowInv row) (hs : row.state = .rolledBack ∨ row.state = .candidateOpen ∨
      row.state = .draining) :
    (g.db.pending .failClose).isSome ∨ (g.db.pending .rollback).isSome := by
  cases hc
  case failClose ha _ _ => exact .inl (ha.pending hn)
  case close ha _ _ _ _ => exact .inl (ha.pending hn)
  case observe ha _     => exact .inl (ha.pending hn)
  case rollback ha _ _ _ => exact .inr (ha.pending hn)
  case opening ho       => simp [ho] at hs
  case recovery hp      =>
    have := (h.recovery hp).left
    rcases hs with hs | hs | hs <;> simp [hs] at this

theorem Settled.step (hs : g.Settled) (h : g.db.Inv) (hn : g.db.Numbered) (hp : op.Strict)
    (hst : Step op g₀ g g') : g'.Settled := by
  cases hst
  case fault | tick | read => exact hs.congr rfl rfl
  case query v _ _ hq      => cases v <;> exact hs.congr rfl (route_queryRoute hq).left
  case close               => exact hs.congr rfl route_close
  case commit hc           => exact hs.commit h hp hc
  case «open» row _ _ _ _ hr hst _ _ =>
    intro row' hr'
    have hrow : row = row' := Option.some.inj ((h.getRow.mp hr).symm.trans hr')
    subst hrow
    exact ⟨by simp [hst], by simp [hst], by simp [hst]⟩
  case closeAll row hr _ hc =>
    rcases route_closeAll g.traffic with ⟨_, he⟩ | ⟨_, he⟩
    · intro row' hr'
      have hr := h.getRow.mp hr
      have hrow : row = row' := Option.some.inj (hr.symm.trans hr')
      subst hrow
      have hpend := hc.pending hn (h.row row hr)
      refine ⟨fun _ => .inl (by rw [setTraffic_traffic, he]; rfl), fun hs => .inr ?_, fun hs => .inr ?_⟩
      · exact hpend (.inl hs)
      · exact hpend (.inr hs)
    · exact hs.congr rfl he
  case restore ha _ _ =>
    have hpend := ha.pending hn
    exact fun _ _ => ⟨fun _ => .inr hpend, fun _ => .inr (.inr hpend), fun _ => .inr (.inr hpend)⟩

-- All that is known of a gate over the deterministic adapter between two operations.
structure Good (g : Gate DeterministicTrafficAdapter) : Prop extends Sound g.db where
  numbered : g.db.Numbered
  settled  : g.Settled
  route    : g.RouteInv

omit [Sha256] in
theorem Good.congr [Sha256] (h : g.Good) (hd : g'.db = g.db)
    (hr : g'.traffic.route = g.traffic.route) : g'.Good :=
  ⟨hd ▸ h.toSound, hd ▸ h.numbered, h.settled.congr hd hr, h.route.congr hd hr⟩

theorem Good.steps (hs : Steps op g₀ g) (h : g₀.Good) (hp : op.Strict) : g.Good := by
  induction hs
  case refl => exact h
  case tail hn ih =>
    refine ⟨⟨?_, ?_⟩, ?_, ih.settled.step ih.toInv ih.numbered hp hn, ih.route.step ih.toInv hn⟩
    all_goals rcases hn.db_cases with he | hc
    · exact he ▸ ih.toInv
    · exact hc.inv ih.toInv
    · exact he ▸ ih.ids
    · exact hc.scoped ih.ids
    · exact he ▸ ih.numbered
    · exact hc.numbered ih.toInv ih.numbered

theorem Op.ends_good (h : g.Good) (hp : op.Strict) (he : g' ∈ op.ends g) : g'.Good :=
  Good.steps (Op.steps_of_ends h.toInv he) (h.congr rfl rfl) hp

omit [Sha256] in
theorem Initial.good [Sha256] (h : g.Initial) : g.Good := by
  refine ⟨h.sound, ?_, ?_, ?_⟩
  all_goals rw [Initial] at h
  · simp [Numbered, h]
  · simp [Settled, h]
  · simp [RouteInv, h]

section Returned

variable {n : Int} {s : GateState}

theorem failClose_returned {reason : String} {res : FailCloseResult}
    (hr : Returned (failClose n reason) res g g') (hc : res.classification = .failedSafe) :
    g'.traffic.route.isClosed := by
  have ⟨_, hcl⟩ := failClosed_of_returned hr
  rcases hcl with ⟨_, r, ho, hcl⟩ | hu
  · exact ho.route_eq ▸ hcl
  · simp [hc] at hu

theorem rollback_returned {c : RollbackClass} (hr : Returned (rollback n none) c g g') :
    (c = .failedSafe → g'.traffic.route.isClosed) ∧
      (c.target = .rolledBack → ∃ row, g.db.row = some row ∧ isPredecessor row g'.traffic.route) := by
  have h : Runs (.rollback n none) g.start _ (rollback n none) g.start :=
    rollback_runs .refl rfl rfl rfl
  have ⟨_, _, row, hrow, hv⟩ := h.returned hr
  have ⟨hf, hb⟩ := hv.route_strict rfl
  exact ⟨fun he => hf (by rw [he]; rfl),
    fun he => ⟨row, (getRow_ok_iff.mp hrow).left, hb he⟩⟩

theorem reconcile_returned (h : g.Good) (hr : Returned reconcile s g g') :
    ∃ row, g.db.row = some row ∧ (s = .failedSafe → g'.traffic.route.isClosed) ∧
      (s = .rolledBack → isPredecessor row g'.traffic.route) ∧
      (s = .candidateOpen → g'.traffic.route.generation = some row.candidateGeneration) := by
  have ⟨hst, hrec⟩ := (reconcile_runs .refl).returned hr
  cases hrec
  case calm row hrow _ hfc _ hrb =>
    have hrow := h.getRow.mp hrow
    have hs := h.settled row hrow
    have hfc : g.db.pending .failClose = none := hfc
    have hrb : g.db.pending .rollback = none := hrb
    refine ⟨row, hrow, fun he => ?_, fun he => ?_, fun he => ?_⟩
    · exact (hs.failedSafe he).resolve_right (by simp [hrb])
    · exact (hs.rolledBack he).resolve_right (by simp [hfc, hrb])
    · exact (hs.opened (.inl he)).resolve_right (by simp [hfc, hrb])
  case opened row _ r hrow _ _ _ _ _ hg _ ho _ =>
    exact ⟨row, h.getRow.mp hrow, by simp, by simp, fun _ => by rw [ho.route_eq, hg]⟩
  case settled row _ hrow _ hv _ =>
    have ⟨hf, hb⟩ := hv.route_strict trivial
    refine ⟨row, h.getRow.mp hrow, hf, hb, fun he => ?_⟩
    have := hv.ended
    simp [he] at this

theorem open_returned {proof : OpenProof} {fence : String} (h : g.Good) (hi : g.db.openIntents = [])
    (hr : Returned («open» n proof) fence g g') : g'.traffic.route.generation = some n := by
  have hrow {row} (hrow : g.db.row = some row) (ho : row.state = .candidateOpen) : False := by
    have ⟨_, _, _, hone, _⟩ := (h.row row hrow).phase.of_open (.inl ho)
    simp [hi] at hone
  have hopen : Runs (.open n proof) g.start (Opened g.start n) («open» n proof) g.start := by
    refine open_runs .refl rfl fun hs => ?_
    have ⟨row, hr, hs⟩ := Option.map_eq_some_iff.mp hs
    exact (h.row row hr).noRecovery (by simp [hs]) (by simp [hs]) (by simp [hs])
  have ⟨_, hopened⟩ := hopen.returned hr
  rcases hopened with hs | ⟨_, r, ho, hg, _⟩
  · have ⟨row, hr, hs⟩ := Option.map_eq_some_iff.mp hs
    exact (hrow hr hs).elim
  · rw [ho.route_eq, hg]

-- `reconcile` can come to no other end than `FAILED_SAFE` or `SAFETY_UNKNOWN`.
def Failing (g : Gate DeterministicTrafficAdapter) (row : GateRow) : Prop :=
  (g.db.pending .failClose).isSome ∨ g.db.pendingRecoveryClose.isSome ∨
    if (g.db.pending .rollback).isSome then ¬isPredecessor row g.traffic.route
    else row.state = .failedSafe ∨ row.state = .safetyUnknown

theorem reconcile_failing (h : g.db.Inv) (hrow : g.db.row = some row) (hf : g.Failing row)
    (hr : Returned reconcile s g g') : s = .failedSafe ∨ s = .safetyUnknown := by
  have he {row'} (hr' : g.start.db.getRow = .ok row') : row = row' :=
    Option.some.inj (hrow.symm.trans (h.getRow.mp hr'))
  have ⟨hst, hrec⟩ := (reconcile_runs .refl).returned hr
  cases hrec
  case calm row' hr' _ hfc hrc hrb =>
    have hfc : g.db.pending .failClose = none := hfc
    have hrc : g.db.pendingRecoveryClose = none := hrc
    have hrb : g.db.pending .rollback = none := hrb
    simpa [Failing, hfc, hrc, hrb, he hr'] using hf
  case opened row' _ _ hr' hs hfc hrc hrb _ _ _ _ _ =>
    have hfc : g.db.pending .failClose = none := hfc
    have hrc : g.db.pendingRecoveryClose = none := hrc
    have hrb : g.db.pending .rollback = none := hrb
    simp [Failing, hfc, hrc, hrb, he hr', hs] at hf
  case settled row' _ hr' ht hv _ =>
    cases hv
    case failedSafe | unchecked => exact .inl rfl
    case safetyUnknown          => exact .inr rfl
    case rolledBack hop _ _     => contradiction
    case restored r ho hp _     =>
      -- a rollback that was taken up has not touched the route
      have ht := ht rfl
      have ⟨_, hq⟩ := ht.query
      have hfc : g.db.pending .failClose = none := ht.failClose
      have hrc : g.db.pendingRecoveryClose = none := ht.recovery
      have hrb : (g.db.pending .rollback).isSome := ht.rollback
      have hroute : g'.traffic.route = g.traffic.route := (route_queryRoute hq).left
      simp only [Failing, hfc, hrc, hrb, Option.isSome_none, Bool.false_eq_true, false_or,
        if_true] at hf
      rw [← hroute, ho.route_eq, he hr'] at hf
      exact absurd hp hf

end Returned

end Gate
