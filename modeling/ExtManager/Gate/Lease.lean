import ExtManager.Gate.Admission

open Crash Prog Relation GateDb

namespace Gate

variable [Sha256] {τ : Type} [TrafficAdapter τ] {op : Op} {g₀ g g' : Gate τ} {db : GateDb}
variable {row : GateRow}

-- The lease is the authority's current grant, and it has not expired.
def Holds (g : Gate τ) (lease : LeaseGrant) : Prop :=
  TrafficAdapter.authority g.traffic = lease ∧ g.clock g.ticks ≤ lease.expiresAt

-- What `can_admit` asks for where the route is the candidate's: the open is receipted, its proof is
-- on record and the lease of the proof holds.
def CanAdmit (g : Gate τ) : Prop :=
  ∃ row intent, ∃ proof : OpenProof, g.db.row = some row ∧
    (row.state = .candidateOpen ∨ row.state = .draining) ∧ g.db.openReceipts ≠ [] ∧
    intent ∈ g.db.openIntents ∧ intent.detail = proof.intentDetail ∧
    row.proofDigest = some proof.digest ∧ g.Holds proof.lease

-- A new request is not brought to an open candidate whose lease is gone, unless the route is
-- another than the one on record, or not the candidate's.
def Leasing (op : Op) (g : Gate τ) : Prop :=
  ∀ request result row, op = .observe request result →
    g.db.admission? request.requestId = none → g.db.row = some row →
    row.state = .candidateOpen ∨ row.state = .draining →
    (TrafficAdapter.route g.traffic).generation = some row.candidateGeneration →
    ¬unknownRoute row (TrafficAdapter.route g.traffic) → g.Holds row.lease

-- The request got its admission from `observe`, which found the gate open for it.
structure Inserted (op : Op) (g₀ : Gate τ) (a : Admission) : Prop where
  op_eq : ∃ request result, op = .observe request result ∧ request.requestId = a.requestId
  row   : ∃ row, g₀.db.row = some row ∧ ¬unknownRoute row (TrafficAdapter.route g₀.traffic) ∧
    (TrafficAdapter.route g₀.traffic).generation = some a.chosenGeneration ∧
    (a.chosenGeneration = row.candidateGeneration →
      row.state = .candidateOpen ∨ row.state = .draining)

omit [TrafficAdapter τ] in
-- Only where the candidate is open does a request go to it.
theorem open_of_candidate {r : RouteState} {n : Int} (h : db.Inv) (hr : db.row = some row)
    (hb : ¬row.state.blocked) (hn : r.generation = some n) (hm : ¬continuityMismatch row r)
    (hc : n = row.candidateGeneration) : row.state = .candidateOpen ∨ row.state = .draining := by
  have hp := (h.row row hr).phase
  generalize db.openIntents = intents at hp
  generalize db.openReceipts = receipts at hp
  cases hp
  case opened hs _ _ _ _ _ _ => exact hs
  case before hs _ _ =>
    have hs : row.state.beforeOpen := by
      rcases hs with hs | hs
      all_goals simp [hs, GateState.beforeOpen]
    obtain ⟨hg, _⟩ := of_not_continuityMismatch hm hs
    have hgen := (h.row row hr).generation
    have hpre : n = row.predecessorGeneration := Option.some.inj (hn.symm.trans hg)
    omega
  case opening hs _ => simp [hs, GateState.blocked] at hb
  case ended hs _ _ =>
    rcases hs with hs | hs | hs
    all_goals simp [hs, GateState.blocked] at hb

-- A transaction inserts a request or carries it on.
theorem Commit.inserted (hc : Commit op g₀ g db) (h : g.db.Inv) {a : Admission}
    (ha : a ∈ db.admissions) : Inserted op g₀ a ∨ ∃ a' ∈ g.db.admissions, Continues a' a := by
  cases hc
  case admission request result row r n hop h₀ hr hb ho hn hm hu _ =>
    rcases List.mem_cons.mp ha with ha | ha
    · subst ha
      have hr := h.getRow.mp hr
      obtain ⟨-, rfl⟩ := ho
      refine .inl ⟨⟨request, result, hop, rfl⟩, row, h₀ ▸ hr, hu, hn, fun hc => ?_⟩
      exact open_of_candidate h hr hb hn hm hc
    · exact .inr ⟨a, ha, .rfl⟩
  case finish =>
    have ⟨b, hb, he⟩ := List.mem_map.mp ha
    exact .inr ⟨b, hb, he ▸ continues_finishRow⟩
  all_goals exact .inr ⟨a, ha, .rfl⟩

theorem Inserted.continues {a a' : Admission} (h : Inserted op g₀ a) (hc : Continues a a') :
    Inserted op g₀ a' := by
  have ⟨request, result, hop, he⟩ := h.op_eq
  refine ⟨⟨request, result, hop, he.trans hc.requestId.symm⟩, ?_⟩
  rw [hc.chosenGeneration]
  exact h.row

theorem Op.inserted_of_ends {a : Admission} (h : g.db.Inv) (he : g' ∈ op.ends g)
    (ha : a ∈ g'.db.admissions) (hn : g.db.admission? a.requestId = none) :
    Inserted op g.start a := by
  let P (db : GateDb) := ∀ a ∈ db.admissions, Inserted op g.start a ∨
    ∃ a' ∈ g.db.admissions, Continues a' a
  have hp : P g'.db := by
    refine Steps.db_invariant (P := P) (Op.steps_of_ends h he) h (fun a ha => .inr ⟨a, ha, .rfl⟩) ?_
    intro g₁ db hinv hp hc a ha
    rcases hc.inserted hinv ha with hi | ⟨b, hb, hba⟩
    · exact .inl hi
    · refine (hp b hb).imp (fun hi => hi.continues hba) fun ⟨a', ha', hb⟩ => ?_
      exact ⟨a', ha', hb.trans hba⟩
  refine (hp a ha).resolve_right fun ⟨a', ha', hc⟩ => ?_
  exact requestId_of_admission? hn (List.mem_map.mpr ⟨a', ha', hc.requestId.symm⟩)

-- A request is admitted to the candidate only while the lease of the open proof holds, whatever
-- happens to the grant, the clock and the route between the calls. `observe` reads nothing but the
-- route before it inserts the request, so the lease holds at the insertion as it does at the call.
theorem candidate_leased {a : Admission} (h : Reachable Initial (Next Leasing Anything) g)
    (hl : Leasing op g) (he : g' ∈ op.ends g) (ha : a ∈ g'.db.admissions)
    (hn : g.db.admission? a.requestId = none) (hr : g'.db.row = some row)
    (hc : a.chosenGeneration = row.candidateGeneration) : g.CanAdmit := by
  have hinv := reachable_inv h fun _ h => h
  have hins := Op.inserted_of_ends hinv he ha hn
  have ⟨request, result, hop, hid⟩ := hins.op_eq
  have ⟨row₀, hr₀, hknown, hroute, hopen⟩ := hins.row
  have ⟨row', hr', same⟩ := Steps.same (Op.steps_of_ends hinv he) hinv hr₀
  have hrow : row' = row := Option.some.inj (hr'.symm.trans hr)
  have hcandidate : a.chosenGeneration = row₀.candidateGeneration :=
    hc.trans (hrow ▸ same.candidateGeneration)
  have hst := hopen hcandidate
  have ⟨intent, proof, receipt, hi, hrec, hint, _⟩ := (hinv.row row₀ hr₀).phase.of_open hst
  refine ⟨row₀, intent, proof, hr₀, hst, by simp [hrec], by simp [hi], hint.detail,
    hint.proofDigest, ?_⟩
  rw [hint.lease]
  exact hl request result row₀ hop (hid ▸ hn) hr₀ hst (hcandidate ▸ hroute) hknown

end Gate

namespace Gate.Sample

theorem reachable_leasing : Reachable Initial (Next Leasing Anything) opened := by
  refine .step (.step (.step (.init initial_created) (.op _ ?_ Op.after_mem))
    (.op _ ?_ Op.after_mem)) (.op _ ?_ Op.after_mem)
  all_goals
    intro _ _ _ h
    simp at h

-- What is to be computed of a request that comes while the lease of the open still is the
-- authority's grant.
theorem opened_computed :
    (∀ row ∈ opened.db.row, TrafficAdapter.authority opened.traffic = row.lease ∧
      opened.clock opened.ticks ≤ row.lease.expiresAt) ∧
    ((Op.observe ⟨"second", 5⟩ none).after opened).db.admissions.map (·.chosenGeneration) = [2] ∧
    ∃ a ∈ ((Op.observe ⟨"second", 5⟩ none).after opened).db.admissions,
      opened.db.admission? a.requestId = none ∧
      ((Op.observe ⟨"second", 5⟩ none).after opened).db.row.any fun row =>
        a.chosenGeneration = row.candidateGeneration := by
  decide +kernel

theorem leasing_opened : Leasing (.observe ⟨"second", 5⟩ none) opened :=
  fun _ _ row _ _ hr _ _ _ => opened_computed.1 row (Option.mem_def.mpr hr)

theorem candidate_leased_of_opened :
    ((Op.observe ⟨"second", 5⟩ none).after opened).db.admissions.map (·.chosenGeneration) = [2] ∧
      opened.CanAdmit := by
  have ⟨_, hmap, a, ha, hn, hc⟩ := opened_computed
  have ⟨row, hr, hc⟩ := (Option.any_eq_true _ _).mp hc
  exact ⟨hmap, candidate_leased reachable_leasing leasing_opened Op.after_mem ha hn hr
    (of_decide_eq_true hc)⟩

-- The authority has granted the lease anew.
def superseded : Gate DeterministicTrafficAdapter :=
  opened.setTraffic { opened.traffic with authority := { grant with fencingToken := 8 } }

-- A request is admitted to the candidate under the fencing token that is no longer granted.
theorem not_leased_of_superseded :
    Reachable Initial (Next Always Anything) superseded ∧
      superseded.db.admissions = [] ∧
      ((Op.observe ⟨"second", 5⟩ none).after superseded).db.admissions.map
        (fun a => (a.requestId, a.chosenGeneration)) = [("second", 2)] ∧
      ((Op.observe ⟨"second", 5⟩ none).after superseded).db.row.map (·.candidateGeneration) =
        some 2 ∧
      ¬superseded.CanAdmit := by
  have ⟨⟨hnone, hmap, hrow⟩, hall, hother⟩ :
      (superseded.db.admissions = [] ∧
        ((Op.observe ⟨"second", 5⟩ none).after superseded).db.admissions.map
          (fun a => (a.requestId, a.chosenGeneration)) = [("second", 2)] ∧
        ((Op.observe ⟨"second", 5⟩ none).after superseded).db.row.map (·.candidateGeneration) =
          some 2) ∧
      (∀ t ∈ superseded.db.openIntents, t.detail.get? "lease" = some grant.asdict) ∧
      superseded.traffic.authority.fencingToken ≠ 7 := by
    decide +kernel
  refine ⟨.step reachable_opened (.env trivial), hnone, hmap, hrow,
    fun ⟨_, intent, proof, _, _, _, hi, hd, _, hl, _⟩ => ?_⟩
  have hlease := hall intent hi
  rw [hd] at hlease
  have hlease : proof.lease.asdict = grant.asdict := by
    simpa [OpenProof.intentDetail, OpenProof.fields, Json.get?, List.lookup_cons] using hlease
  have htoken : proof.lease.fencingToken = 7 := by
    simp [LeaseGrant.asdict, grant] at hlease
    exact hlease.right.left
  rw [← hl] at htoken
  exact absurd htoken hother

end Gate.Sample
