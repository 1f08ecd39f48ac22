import ExtManager.Attestation.RoundTrip
import ExtManager.Coordinator.Runs

open Crash Prog Relation

namespace Profile

open Scanner (bind_eq_ok)

def Failure.exc : Failure → Exc
  | .attestation code => .other code.value
  | .value            => .other "ValueError"

-- The statement says what the attestation says.
structure AttestationStatement.Binds (s : AttestationStatement) (a : Attestation) : Prop where
  subject        : s.subject = a.authority.points
  issuer         : s.issuer = a.issuer.points
  kid            : s.kid = a.kid.points
  planId         : s.planId = a.planId.points
  launchId       : s.launchId = a.launchId.points
  pluginId       : s.pluginId = a.artifactId.points
  host           : s.process.host = a.process.host.points
  role           : s.process.role = a.process.role.points
  ordinal        : s.process.ordinal = a.process.ordinal
  startIdentity  : s.process.startIdentity = a.process.startId.points
  epoch          : s.process.epoch = a.process.epoch
  obligation     : s.obligation = a.obligationId.points
  event          : s.event = a.event.points
  issuedAt       : s.issuedAt = a.issuedAt
  observedAt     : s.observedAt = a.observedAt
  expiresAt      : s.expiresAt = a.expiresAt
  challengeNonce : s.challengeNonce = a.nonce.points
  evidenceDigest : s.evidenceDigest = a.evidenceDigest.points
  artifactDigest : s.artifactDigest = a.artifactDigest.points

theorem AttestationStatement.binds_iff {s : AttestationStatement} {a : Attestation} :
    s.Binds a ↔ s.subject = a.authority.points ∧ s.issuer = a.issuer.points ∧
      s.kid = a.kid.points ∧ s.planId = a.planId.points ∧ s.launchId = a.launchId.points ∧
      s.pluginId = a.artifactId.points ∧ s.process = ⟨a.process.host.points,
        a.process.role.points, a.process.ordinal, a.process.startId.points, a.process.epoch⟩ ∧
      s.obligation = a.obligationId.points ∧ s.event = a.event.points ∧
      s.issuedAt = a.issuedAt ∧ s.observedAt = a.observedAt ∧ s.expiresAt = a.expiresAt ∧
      s.challengeNonce = a.nonce.points ∧ s.evidenceDigest = a.evidenceDigest.points ∧
      s.artifactDigest = a.artifactDigest.points := by
  constructor
  · intro h
    have ⟨h₁, h₂, h₃, h₄, h₅, h₆, h₇, h₈, h₉, h₁₀, h₁₁, h₁₂, h₁₃, h₁₄, h₁₅, h₁₆, h₁₇, h₁₈, h₁₉⟩ := h
    exact ⟨h₁, h₂, h₃, h₄, h₅, h₆, ProcessStatement.mk.injEq .. ▸ ⟨h₇, h₈, h₉, h₁₀, h₁₁⟩, h₁₂, h₁₃,
      h₁₄, h₁₅, h₁₆, h₁₇, h₁₈, h₁₉⟩
  · intro ⟨h₁, h₂, h₃, h₄, h₅, h₆, hp, h₁₂, h₁₃, h₁₄, h₁₅, h₁₆, h₁₇, h₁₈, h₁₉⟩
    exact ⟨h₁, h₂, h₃, h₄, h₅, h₆, by rw [hp], by rw [hp], by rw [hp], by rw [hp], by rw [hp], h₁₂,
      h₁₃, h₁₄, h₁₅, h₁₆, h₁₇, h₁₈, h₁₉⟩

instance (s : AttestationStatement) (a : Attestation) : Decidable (s.Binds a) :=
  decidable_of_iff' _ AttestationStatement.binds_iff

structure SignedAttestationVerifier where
  envelopes         : String → Option SignedEnvelope
  trustStore        : TrustStore
  clockSkew         : Int := 0
  maxTtl            : Int := defaultMaxTtl
  maxObservationAge : Int := defaultMaxObservationAge

namespace SignedAttestationVerifier

variable [Sha256] [Jcs] [Ed25519]

def check (v : SignedAttestationVerifier) (attestation : Attestation) (now : Int) (plan : Plan) :
    Except Failure Unit := do
  let envelope ← orFail .bindingMismatch (v.envelopes attestation.nonce)
  let statement ← Profile.verify envelope v.trustStore now v.clockSkew v.maxTtl v.maxObservationAge
  let plugin := plan.plugins.find? fun item => item.id = attestation.artifactId
  let expectedDigest := plugin.map fun item => ("sha256:" ++ item.artifactSha256).points
  require (expectedDigest = some statement.artifactDigest) .bindingMismatch
  require (statement.Binds attestation) .bindingMismatch

def verify (v : SignedAttestationVerifier) (attestation : Attestation) (now : Int) (plan : Plan) :
    Except Exc Unit :=
  (v.check attestation now plan).mapError Failure.exc

variable {v : SignedAttestationVerifier} {attestation : Attestation} {now : Int} {plan : Plan}

theorem verify_ok {u : Unit} (h : v.verify attestation now plan = .ok u) :
    ∃ envelope s, v.envelopes attestation.nonce = some envelope ∧
      Profile.verify envelope v.trustStore now v.clockSkew v.maxTtl v.maxObservationAge = .ok s ∧
      s.Binds attestation ∧ ∃ p ∈ plan.plugins, p.id = attestation.artifactId ∧
        attestation.artifactDigest = "sha256:" ++ p.artifactSha256 := by
  have h : v.check attestation now plan = .ok () := by
    unfold verify at h
    generalize v.check attestation now plan = r at h
    cases r
    case error => cases h
    case ok    => rfl
  have ⟨envelope, he, h⟩ := orFail_bind.mp h
  have ⟨s, hs, h⟩ := bind_eq_ok.mp h
  have ⟨hd, h⟩ := require_bind.mp h
  have hb := require_ok.mp h
  have ⟨p, hp, hd⟩ := Option.map_eq_some_iff.mp hd
  refine ⟨envelope, s, he, hs, hb, p, List.mem_of_find?_eq_some hp, ?_, ?_⟩
  · simpa using List.find?_some hp
  · exact String.points_inj.mp (hb.artifactDigest.symm.trans hd.symm)

end SignedAttestationVerifier

end Profile

namespace Coordinator

open Profile

-- The row says what the statement says.
structure States (e : EvidenceRow) (s : AttestationStatement) : Prop where
  planId         : e.planId.points = s.planId
  launchId       : e.launchId.points = s.launchId
  role           : e.role.points = s.process.role
  ordinal        : e.ordinal = s.process.ordinal
  epoch          : e.epoch = s.process.epoch
  obligationId   : e.obligationId.points = s.obligation
  event          : e.event.points = s.event
  nonce          : e.nonce.points = s.challengeNonce
  issuedAt       : e.issuedAt = s.issuedAt
  expiresAt      : e.expiresAt = s.expiresAt
  observedAt     : e.observedAt = s.observedAt
  issuer         : e.issuer.points = s.issuer
  kid            : e.kid.points = s.kid
  authority      : e.authority.points = s.subject
  artifactId     : e.artifactId.points = s.pluginId
  artifactDigest : e.artifactDigest.points = s.artifactDigest
  evidenceDigest : e.evidenceDigest.points = s.evidenceDigest

section

variable [Sha256] [Jcs] [Ed25519]

-- The signature of the envelope is one of a key that the store has for the issuer and the kid of
-- the statement, and the key is enabled, valid at the time and speaks for the subject.
def Trusted (store : TrustStore) (envelope : SignedEnvelope) (s : AttestationStatement)
    (now : Int) : Prop :=
  ∃ entry ∈ store.entries, entry.issuer = s.issuer ∧ entry.kid = s.kid ∧ entry.enabled ∧
    entry.notBefore ≤ now ∧ now ≤ entry.notAfter ∧ s.subject ∈ entry.subjects ∧
    ∃ header signature, segments? envelope.detachedJws = some (header, b64url signature) ∧
      Ed25519.verify entry.publicKey.raw signature (signingInput header envelope.payload)

-- Where a row comes from: the verifier had the envelope under the row's nonce, and accepted it at
-- the time as the encoding of one statement.
structure Origin (e : EvidenceRow) (plan : Plan) (v : SignedAttestationVerifier) (now : Int)
    (envelope : SignedEnvelope) (s : AttestationStatement) : Prop where
  found     : v.envelopes e.nonce = some envelope
  verified  : Profile.verify envelope v.trustStore now v.clockSkew v.maxTtl v.maxObservationAge =
    .ok s
  canonical : ∀ s', canonicalize s'.toDict = .ok envelope.payload ↔ s' = s
  trusted   : Trusted v.trustStore envelope s now
  states    : States e s
  plugin    : ∃ p ∈ plan.plugins, p.id = e.artifactId ∧
    e.artifactDigest = "sha256:" ++ p.artifactSha256

variable {e : EvidenceRow} {plan : Plan} {v : SignedAttestationVerifier} {now : Int}
variable {envelope : SignedEnvelope} {s : AttestationStatement}

theorem Origin.invalidated (h : Origin e plan v now envelope s) :
    Origin { e with valid := false } plan v now envelope s :=
  have ⟨h₁, h₂, h₃, h₄, h₅, h₆, h₇, h₈, h₉, h₁₀, h₁₁, h₁₂, h₁₃, h₁₄, h₁₅, h₁₆, h₁₇⟩ := h.states
  ⟨h.found, h.verified, h.canonical, h.trusted, ⟨h₁, h₂, h₃, h₄, h₅, h₆, h₇, h₈, h₉, h₁₀, h₁₁, h₁₂,
    h₁₃, h₁₄, h₁₅, h₁₆, h₁₇⟩, h.plugin⟩

omit [Sha256] in
theorem trusted_of_verify {maxTtl age skew : Int} {store : TrustStore}
    (h : Profile.verify envelope store now skew maxTtl age = .ok s) :
    Trusted store envelope s now := by
  have ⟨header, signature, entry, he, ht, hv, _⟩ := verify_iff.mp h
  have hid : entry.identity = (s.issuer, s.kid) := by simpa using List.find?_some ht.find
  have ⟨hissuer, hkid⟩ := Prod.mk.inj hid
  have ha := ht.authorizes
  simp only [TrustEntry.authorizes, Bool.and_eq_true, decide_eq_true_eq] at ha
  have ⟨⟨⟨henabled, hsubject⟩, hbefore⟩, hafter⟩ := ha
  exact ⟨entry, List.mem_of_find?_eq_some ht.find, hissuer, hkid, henabled, hbefore, hafter, hsubject,
    _, signature, he.jws ▸ segments?_b64url, hv⟩

-- An accepted attestation becomes a row that comes from its envelope.
theorem origin_of_verify (hj : Jcs.Lawful) {item : Attestation} {u : Unit} {planId : String}
    (managerEpoch : Int) (h : v.verify item now plan = .ok u) (hid : item.planId = planId) :
    ∃ envelope s, Origin (Store.evidenceRow planId managerEpoch item) plan v now envelope s := by
  have ⟨envelope, s, hfound, hs, hb, p, hp, hpid, hd⟩ := SignedAttestationVerifier.verify_ok h
  have ⟨_, _, _, henc, _⟩ := verify_iff.mp hs
  have hcan := henc.canonical.right
  exact ⟨envelope, s, {
    found     := hfound
    verified  := hs
    canonical := fun s' => ⟨canonical_inj hj hcan, fun he => he ▸ hcan⟩
    trusted   := trusted_of_verify hs
    states    := {
      planId         := by rw [hb.planId, hid]; rfl
      launchId       := hb.launchId.symm
      role           := hb.role.symm
      ordinal        := hb.ordinal.symm
      epoch          := hb.epoch.symm
      obligationId   := hb.obligation.symm
      event          := hb.event.symm
      nonce          := hb.challengeNonce.symm
      issuedAt       := hb.issuedAt.symm
      expiresAt      := hb.expiresAt.symm
      observedAt     := hb.observedAt.symm
      issuer         := hb.issuer.symm
      kid            := hb.kid.symm
      authority      := hb.subject.symm
      artifactId     := hb.pluginId.symm
      artifactDigest := hb.artifactDigest.symm
      evidenceDigest := hb.evidenceDigest.symm
    }
    plugin    := ⟨p, hp, hpid, hd⟩
  }⟩

end

section

variable [Sha256] {τ π : Type} [TrafficAdapter τ] [TrafficGate π] {c : Call} {op : Op}
variable {w₀ w w' : World τ π} {s : Store} {n : Int}

-- What a transaction does to the evidence.
inductive Commit.Rows (c : Call) (op : Op) (w : World τ π) (s : Store) : Prop
  | kept : s.evidence = w.store.evidence → Commit.Rows c op w s
  | invalidated : s.evidence = w.store.evidence.map (fun e =>
      if e.planId = op.planId then { e with valid := false } else e) → Commit.Rows c op w s
  | inserted {a item now} : op = .observe op.planId item now →
      w.store.activation op.planId = some a → c.verify item (now.getD c.now) a.plan = .ok () →
      item.planId = op.planId → (∀ e ∈ w.store.evidence, e.nonce ≠ item.nonce) →
      s.evidence = Store.evidenceRow op.planId c.managerEpoch item :: w.store.evidence →
      Commit.Rows c op w s

omit [TrafficGate π] in
theorem Commit.rows (hc : Commit c op w₀ w s) (h₀ : w₀.store.Inv) :
    s = w₀.store ∨ Commit.Rows c op w s := by
  cases hc
  case insert hs =>
    have ⟨_, he⟩ := Store.insert_ok_iff.mp hs
    exact .inr <| .kept (by rw [he]; rfl)
  case delete hs _ _ _ _ => exact .inl (Store.delete_insert h₀ hs)
  case note | shift | launch => exact .inr <| .kept rfl
  case launched hi =>
    have ⟨_, he⟩ := Store.setInventory_ok_iff.mp hi
    exact .inr <| .kept (by rw [he]; rfl)
  case evidence a item now hop ha _ hv hst hs =>
    have ⟨hn, he⟩ := Store.insertEvidence_ok_iff.mp hs
    simp only [stale, not_or, not_not] at hst
    exact .inr <| .inserted hop ha hv hst.left hn (by rw [he]; rfl)
  case refresh hi =>
    have ⟨_, he⟩ := Store.setInventory_ok_iff.mp hi
    exact .inr <| .invalidated (by rw [he]; rfl)
  case wal he => exact .inr <| .kept (by rw [he]; rfl)

omit [TrafficGate π] in
-- A plan that has an activation keeps one, of the same plan.
theorem Commit.plans (hc : Commit c op w₀ w s) (h₀ : w₀.store.Inv) :
    s = w₀.store ∨ ∀ id a, w.store.activation id = some a →
      ∃ a', s.activation id = some a' ∧ a'.plan = a.plan := by
  cases hc.effect
  case insert plan _ hs _ _ =>
    obtain ⟨hn, he⟩ := Store.insert_ok_iff.mp hs
    refine .inr fun id a ha => ⟨a, ?_, rfl⟩
    have hne : id ≠ plan.planId := fun hid => by simp [hid, hn] at ha
    simp [he, Store.log, Store.setActivation, hne, ha]
  case delete hs he => exact .inl (he.trans (Store.delete_insert h₀ hs))
  case change h _ =>
    refine .inr fun id a ha => ?_
    obtain ⟨a', ha'⟩ := Option.isSome_iff_exists.mp (h.isSome (Option.isSome_of_eq_some ha))
    obtain ⟨a₀, ha₀, hp⟩ := h.activation ha'
    exact ⟨a', ha', Option.some.inj (ha.symm.trans ha₀) ▸ hp⟩

-- Every row is about a plan, and has a property that may depend on the plan.
def EachRow (P : EvidenceRow → Plan → Prop) (s : Store) : Prop :=
  ∀ e ∈ s.evidence, ∃ a, s.activation e.planId = some a ∧ P e a.plan

omit [TrafficGate π] in
theorem Commit.eachRow {P : EvidenceRow → Plan → Prop} (hc : Commit c op w₀ w s)
    (h₀ : w₀.store.Inv) (hinv : ∀ {e plan}, P e plan → P { e with valid := false } plan)
    (hnew : ∀ {item now plan}, op = .observe op.planId item now →
      c.verify item (now.getD c.now) plan = .ok () → item.planId = op.planId →
      P (Store.evidenceRow op.planId c.managerEpoch item) plan)
    (h : EachRow P w.store) : s = w₀.store ∨ EachRow P s := by
  rcases hc.rows h₀ with he | hrows
  · exact .inl he
  rcases hc.plans h₀ with he | hplans
  · exact .inl he
  have hkeep {e} (hm : e ∈ w.store.evidence) :
      ∃ a, s.activation e.planId = some a ∧ P e a.plan := by
    have ⟨a, ha, hp⟩ := h e hm
    have ⟨a', ha', he⟩ := hplans _ a ha
    exact ⟨a', ha', he ▸ hp⟩
  refine .inr fun e hm => ?_
  cases hrows
  case kept he => exact hkeep (he ▸ hm)
  case invalidated he =>
    have ⟨e', hm', he'⟩ := List.mem_map.mp (he ▸ hm)
    have ⟨a, ha, hp⟩ := hkeep hm'
    split at he'
    all_goals subst he'
    case isTrue  => exact ⟨a, ha, hinv hp⟩
    case isFalse => exact ⟨a, ha, hp⟩
  case inserted a item now hop ha hv hid _ he =>
    rcases List.mem_cons.mp (he ▸ hm) with rfl | hm
    · have ⟨a', ha', he⟩ := hplans _ a ha
      exact ⟨a', ha', he ▸ hnew hop hv hid⟩
    · exact hkeep hm

omit [TrafficGate π] in
theorem Commit.nonces (hc : Commit c op w₀ w s) (h₀ : w₀.store.Inv)
    (h : (w.store.evidence.map (·.nonce)).Nodup) :
    s = w₀.store ∨ (s.evidence.map (·.nonce)).Nodup := by
  refine (hc.rows h₀).imp_right fun hrows => ?_
  cases hrows
  case kept he => exact he ▸ h
  case invalidated he =>
    rw [he, List.map_map]
    refine (List.map_congr_left fun e _ => ?_) ▸ h
    simp only [Function.comp]
    split <;> rfl
  case inserted hn he =>
    refine he ▸ List.nodup_cons.mpr ⟨fun hm => ?_, h⟩
    have ⟨e, hm, he⟩ := List.mem_map.mp hm
    exact hn e hm he

variable [Jcs] [Ed25519]

def Signed (c : Call) : Prop :=
  c.signed ∧ ∃ v : SignedAttestationVerifier, c.verify = v.verify

-- The row was there before, maybe as a valid one.
def Kept (s₀ : Store) (e : EvidenceRow) : Prop :=
  ∃ e₀ ∈ s₀.evidence, e = e₀ ∨ e = { e₀ with valid := false }

-- The operation is the `observe` that puts the row into the table.
def Inserts (c : Call) (op : Op) (e : EvidenceRow) (plan : Plan) : Prop :=
  ∃ item time v envelope st, op = .observe e.planId item time ∧ c.verify = v.verify ∧
    Origin e plan v (time.getD c.now) envelope st

theorem inserts_of_verify {item : Attestation} {time : Option Int} {plan : Plan}
    (hj : Jcs.Lawful) (hs : Signed c) (hop : op = .observe op.planId item time)
    (hv : c.verify item (time.getD c.now) plan = .ok ()) (hid : item.planId = op.planId) :
    Inserts c op (Store.evidenceRow op.planId c.managerEpoch item) plan := by
  have ⟨_, v, hve⟩ := hs
  have ⟨envelope, st, ho⟩ := origin_of_verify hj c.managerEpoch (hve ▸ hv) hid
  exact ⟨item, time, v, envelope, st, hop, hve, ho⟩

-- What an operation adds to the evidence.
theorem inserts_of_ends (hj : Jcs.Lawful) (hs : Signed c) (h₀ : w.store.Inv)
    (h : EachRow (fun _ _ => True) w.store) (hw : w' ∈ op.ends c w) :
    EachRow (fun e plan => Kept w.store e ∨ Inserts c op e plan) w'.store := by
  refine (Steps.store_invariant (Op.steps_of_ends hw) h₀ (fun e hm => ?_)
    fun _ _ _ h hc => hc.eachRow h₀ ?_ ?_ h).right
  · have ⟨a, ha, _⟩ := h e hm
    exact ⟨a, ha, .inl ⟨e, hm, .inl rfl⟩⟩
  · rintro e plan (⟨e₀, hm, rfl | rfl⟩ | ⟨item, time, v, envelope, st, hop, hv, ho⟩)
    · exact .inl ⟨e, hm, .inr rfl⟩
    · exact .inl ⟨e₀, hm, .inr rfl⟩
    · exact .inr ⟨item, time, v, envelope, st, hop, hv, ho.invalidated⟩
  · exact fun hop hv hid => .inr (inserts_of_verify hj hs hop hv hid)

theorem reachable_origin (hj : Jcs.Lawful)
    (h : Reachable (Initial n) (Next (fun c _ _ => Signed c) Anything) w) :
    EachRow (fun e plan => ∃ v now envelope st, Origin e plan v now envelope st) w.store := by
  refine (run_store_invariant h (fun _ hm => absurd hm List.not_mem_nil) (fun s _ h e hm => ?_)
    fun c op w₀ w s hs h₀ _ h hc => hc.eachRow h₀ ?_ (fun hop hv hid => ?_) h).right
  · have ⟨e', hm', he⟩ := List.mem_map.mp hm
    subst he
    have ⟨a, ha, v, now, envelope, st, ho⟩ := h e' hm'
    exact ⟨a, ha, v, now, envelope, st, ho.invalidated⟩
  · exact fun ⟨v, now, envelope, st, ho⟩ => ⟨v, now, envelope, st, ho.invalidated⟩
  · have ⟨_, time, v, envelope, st, _, _, ho⟩ := inserts_of_verify hj hs hop hv hid
    exact ⟨v, _, envelope, st, ho⟩

omit [Jcs] [Ed25519] in
theorem reachable_nonces {may : Call → Op → World τ π → Prop}
    {env : Traffic τ π → Traffic τ π → Prop} (h : Reachable (Initial n) (Next may env) w) :
    (w.store.evidence.map (·.nonce)).Nodup := by
  refine (run_store_invariant (I := fun s => (s.evidence.map (·.nonce)).Nodup) h .nil
    (fun s _ h => ?_) fun _ _ _ _ _ _ h₀ _ h hc => hc.nonces h₀ h).right
  have he : s.boot.evidence.map (·.nonce) = s.evidence.map (·.nonce) := by
    rw [Store.boot, List.map_map]
    rfl
  exact he ▸ h

-- Whatever coordinators with such a verifier do, every row of evidence comes from an envelope that
-- was accepted as the encoding of one statement, and says what it says: at the time of the `observe`
-- that put the row there. No nonce is in two rows.
theorem evidence_signed (hj : Jcs.Lawful)
    (h : Reachable (Initial n) (Next (fun c _ _ => Signed c) Anything) w) :
    (∀ e ∈ w.store.evidence, ∃ a, w.store.activation e.planId = some a ∧
      ∃ v now envelope st, Origin e a.plan v now envelope st) ∧
    (∀ c op w', Signed c → w' ∈ op.ends c w → ∀ e ∈ w'.store.evidence, Kept w.store e ∨
      ∃ a, w'.store.activation e.planId = some a ∧ Inserts c op e a.plan) ∧
    (w.store.evidence.map (·.nonce)).Nodup := by
  refine ⟨reachable_origin hj h, fun c op w' hs hw e hm => ?_, reachable_nonces h⟩
  have ht : EachRow (fun _ _ => True) w.store := fun e hm =>
    have ⟨a, ha, _⟩ := reachable_origin hj h e hm
    ⟨a, ha, trivial⟩
  have ⟨a, ha, hr⟩ := inserts_of_ends hj hs (reachable_inv h) ht hw e hm
  exact hr.imp_right fun hi => ⟨a, ha, hi⟩

end

end Coordinator

-- The process is observed with a signed envelope.
namespace Coordinator.Sample

open Profile
open scoped Profile.Sample

def verifier : SignedAttestationVerifier where
  envelopes nonce := if nonce = "nonce-1" then some Profile.Sample.envelope else none
  trustStore      := Profile.Sample.store

def signedCall : Call :=
  { call with signed := true, now := 110, verify := verifier.verify }

def signedItem : Attestation :=
  { attestation "nonce-1" with
    issuer         := "issuer-1"
    kid            := "key-1"
    observedAt     := 90
    evidenceDigest := "sha256:bbbbbbbbbbbbbbbbbbbbbbbbbbbbbbbbbbbbbbbbbbbbbbbbbbbbbbbbbbbbbbbb"
    artifactDigest := "sha256:aaaaaaaaaaaaaaaaaaaaaaaaaaaaaaaaaaaaaaaaaaaaaaaaaaaaaaaaaaaaaaaa" }

def signedOps : List Op :=
  [.plan plan, .prepare planId, .launch planId "launch-1", .observe planId signedItem none]

def signedObserved : W :=
  signedOps.foldl (fun w op => op.after signedCall w) (new (.plain ⟨none, none⟩) [])

theorem signed_signedCall : Signed signedCall :=
  ⟨rfl, verifier, rfl⟩

theorem reachable_signed {ops : List Op} {w : W}
    (h : Reachable (Initial 0) (Next (fun c _ _ => Signed c) Anything) w) :
    Reachable (Initial 0) (Next (fun c _ _ => Signed c) Anything)
      (ops.foldl (fun w op => op.after signedCall w) w) := by
  induction ops generalizing w
  case nil         => exact h
  case cons op _ ih => exact ih (h.step (.op _ op signed_signedCall Op.after_mem))

theorem reachable_signedObserved :
    Reachable (Initial 0) (Next (fun c _ _ => Signed c) Anything) signedObserved :=
  reachable_signed reachable_new

theorem signedObserved_origin :
    signedObserved.store.evidence.map (·.nonce) = ["nonce-1"] ∧
      ∀ e ∈ signedObserved.store.evidence, ∃ a, signedObserved.store.activation e.planId = some a ∧
        ∃ v now envelope st, Origin e a.plan v now envelope st := by
  refine ⟨by decide +kernel, ?_⟩
  exact (evidence_signed Profile.Sample.jcs_lawful reachable_signedObserved).left

end Coordinator.Sample
