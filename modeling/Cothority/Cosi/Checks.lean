import Cothority.Cosi.Verify

/-! What the checks of `lib/cosi` establish when nothing is assumed of the children. A node's
`VerifyResponses` after `Commit`, `Challenge` and `Response` tests the children's aggregates alone,
its own commitment and response always balancing; at the root, a passing `VerifyResponses` is
enough for the signature to pass the third-party verifier, whatever the children sent. The
engine answers a second challenge on the same commitment, and two answers give the private key
away. The exception verifier accepts a round with signers that did not respond when it is given
the key of the responders instead of the whole key. -/

namespace Cothority.Cosi

set_option linter.unusedSectionVars false

section Checks

variable {S P : Type} [CommRing S] [AddCommGroup P] [Module S P] (suite : Suite S P)

theorem response_ok_fields {c c' : Cosi S P} {responses : List (Response S)} {resp : Response S}
    (h : response c responses = .ok (c', resp)) :
    c'.challenge = c.challenge ∧ c'.aggregateCommitment = c.aggregateCommitment ∧
      ∃ r, c'.aggregateResponse = some r := by
  cases hx : c.private' with
  | none => simp only [response, genResponse, hx] at h; cases h
  | some x =>
      cases hv : c.random with
      | none => simp only [response, genResponse, hx, hv] at h; cases h
      | some v =>
          cases he : c.challenge with
          | none => simp only [response, genResponse, hx, hv, he] at h; cases h
          | some e =>
              rw [response_eq hx hv he, Except.ok.injEq, Prod.mk.injEq] at h
              obtain ⟨rfl, -⟩ := h
              exact ⟨he, rfl, _, rfl⟩

variable [DecidableEq S] [DecidableEq P]

/-- **What `VerifyResponses` tests at a node.** After `Commit`, `Challenge` and `Response`, the
check passes exactly when the children's aggregate response and commitment satisfy the Schnorr
equation for the key `X` less the node's own; the node's own share always balances. -/
theorem verifyResponses_after_response_iff (c₀ : Cosi S P) {x : S} (hx : c₀.private' = some x)
    (comms : List (Commitment P)) (v : S) (ch : Challenge S) (responses : List (Response S))
    (X : P) :
    ∃ c resp, response (challenge (commit suite c₀ comms v).1 ch).1 responses = .ok (c, resp) ∧
      (verifyResponses suite c X = .ok () ↔
        (responses.map Response.total).sum • suite.base + ch.challenge • (X - x • suite.base) =
          (comms.map Commitment.total).sum) := by
  have h := response_eq (c := (challenge (commit suite c₀ comms v).1 ch).1) (x := x) (v := v)
    (e := ch.challenge) (by simpa using hx) (by simp) (by simp) responses
  refine ⟨_, _, h, ?_⟩
  rw [verifyResponses_eq_ok suite X (V := (comms.map Commitment.total).sum + v • suite.base) rfl rfl
    (by simp), ← sub_eq_zero, ← sub_eq_zero (a := _ • _ + _)]
  have hdiff : ((responses.map Response.total).sum + (v - x * ch.challenge)) • suite.base +
      ch.challenge • X - ((comms.map Commitment.total).sum + v • suite.base) =
      (responses.map Response.total).sum • suite.base + ch.challenge • (X - x • suite.base) -
        (comms.map Commitment.total).sum := by
    module
  rw [hdiff]

theorem verifyResponses_after_response_iff_child :
    (newCosi (some 1) : Cosi (ZMod 11) (ZMod 11)).private' = some 1 ∧
    ∃ c resp, response (challenge (commit toySuite (newCosi (some 1)) [⟨4, none⟩] 2).1 ⟨3⟩).1
        [⟨8, none⟩] = .ok (c, resp) ∧
      (verifyResponses toySuite c 7 = .ok () ↔
        (([⟨8, none⟩] : List (Response (ZMod 11))).map Response.total).sum • toySuite.base +
          (3 : ZMod 11) • (7 - 1 • toySuite.base) =
          (([⟨4, none⟩] : List (Commitment (ZMod 11))).map Commitment.total).sum) :=
  ⟨rfl, verifyResponses_after_response_iff toySuite (newCosi (some 1)) rfl [⟨4, none⟩] 2 ⟨3⟩
    [⟨8, none⟩] 7⟩

/-- **The root's check is enough for the verifier.** If the root's `VerifyResponses(X)` passes
after a round on `m`, its signature passes `VerifySignature` and the exception verifier with no
exception, whatever the children sent. -/
theorem root_signature_verifies_of_verifyResponses (c₀ : Cosi S P) (comms : List (Commitment P))
    (v : S) (m : Bytes) (responses : List (Response S)) (X : P) {c₁ c₂ : Cosi S P}
    {ch : Challenge S} {resp : Response S}
    (hch : createChallenge suite (commit suite c₀ comms v).1 m = .ok (c₁, ch))
    (hresp : response c₁ responses = .ok (c₂, resp)) (hok : verifyResponses suite c₂ X = .ok ()) :
    ∃ r, signature c₂ = ⟨some ch.challenge, some r⟩ ∧
      verifySignature suite m X ch.challenge r = .ok () ∧
      verifyCosiSignatureWithException suite X m (signature c₂) [] = .ok () := by
  rw [createChallenge_eq suite (commit_aggregateCommitment suite c₀ comms v) m, Except.ok.injEq,
    Prod.mk.injEq] at hch
  obtain ⟨rfl, rfl⟩ := hch
  obtain ⟨hc, hV, r, hr⟩ := response_ok_fields hresp
  have heq := (verifyResponses_eq_ok suite X hr hc (hV.trans
    (commit_aggregateCommitment suite c₀ comms v))).mp hok
  have hsig : verifySignature suite m X _ r = .ok () := verifySignature_ok suite m rfl heq
  refine ⟨r, by simp [signature, hc, hr], hsig, ?_⟩
  simpa [verifyCosiSignatureWithException, signature, hc, hr, verifySignatureWithException_eq]
    using hsig

theorem root_signature_verifies_of_verifyResponses_child :
    ∃ c₁ ch c₂ resp,
      createChallenge toySuite (commit toySuite (newCosi (some 1)) [⟨4, none⟩] 2).1 [] =
        .ok (c₁, ch) ∧
      response c₁ [⟨8, none⟩] = .ok (c₂, resp) ∧ verifyResponses toySuite c₂ 4 = .ok () ∧
      ∃ r, signature c₂ = ⟨some ch.challenge, some r⟩ ∧
        verifySignature toySuite [] 4 ch.challenge r = .ok () ∧
        verifyCosiSignatureWithException toySuite 4 [] (signature c₂) [] = .ok () :=
  ⟨_, _, _, _, rfl, rfl, rfl, root_signature_verifies_of_verifyResponses toySuite
    (newCosi (some 1)) [⟨4, none⟩] 2 [] [⟨8, none⟩] 4 rfl rfl rfl⟩

/-- **The exception verifier on the responders' key.** With the responders' aggregate response
and the others' exceptions, `VerifySignatureWithException` accepts the whole family's challenge
when given the responders' key, already reduced by the exceptions. -/
theorem verifySignatureWithException_responders (family : List (Signer S × Bool)) (m : Bytes) :
    verifySignatureWithException suite (publicSum suite (respondersOf family)) m
      (suite.pick [suite.marshal (commitSum suite (family.map Prod.fst)), m])
      (responseSum (suite.pick [suite.marshal (commitSum suite (family.map Prod.fst)), m])
        (respondersOf family)) (exceptionsOf suite family) = .ok () := by
  set c := suite.pick [suite.marshal (commitSum suite (family.map Prod.fst)), m]
  have hrebuilt : responseSum c (respondersOf family) • suite.base +
      c • publicSum suite (respondersOf family) +
      ((exceptionsOf suite family).map Exception.commitment).sum =
      commitSum suite (family.map Prod.fst) := by
    rw [responseSum_smul_add, commitSum_split]
    simp [exceptionsOf, excludedOf, commitSum, Function.comp_def]
  rw [verifySignatureWithException_eq, verifyCommitment_eq_ok, hrebuilt]

end Checks

section SecondResponse

variable {S P : Type} [Field S] [AddCommGroup P] [Module S P] (suite : Suite S P)

/-- **A commitment answered twice.** `Challenge` and `Response` may be called again on the same
commitment, and `genResponse` only checks that a secret is there: for every prior state holding
the private key `x`, after one `Commit`, the node answers two challenges `c₁ ≠ c₂`, and its two
responses give the key away as `(r₂ - r₁) / (c₁ - c₂)`. -/
theorem response_twice_reveals_key (c₀ : Cosi S P) {x : S} (hx : c₀.private' = some x)
    (comms : List (Commitment P)) (v : S) (ch₁ ch₂ : Challenge S)
    (hne : ch₁.challenge ≠ ch₂.challenge) (responses₁ responses₂ : List (Response S)) :
    ∃ c₁ c₂ resp₁ resp₂,
      response (challenge (commit suite c₀ comms v).1 ch₁).1 responses₁ = .ok (c₁, resp₁) ∧
      response (challenge c₁ ch₂).1 responses₂ = .ok (c₂, resp₂) ∧
      x = (resp₂.response - resp₁.response) / (ch₁.challenge - ch₂.challenge) := by
  have h₁ := response_eq (c := (challenge (commit suite c₀ comms v).1 ch₁).1) (x := x) (v := v)
    (e := ch₁.challenge) (by simpa using hx) (by simp) (by simp) responses₁
  refine ⟨_, _, _, _, h₁, response_eq (x := x) (v := v) (e := ch₂.challenge) (by simpa using hx)
    (by simp) (by simp) responses₂, ?_⟩
  field_simp [sub_ne_zero.mpr hne]
  ring

theorem response_twice_reveals_key_toy :
    (newCosi (some 1) : Cosi (ZMod 11) (ZMod 11)).private' = some 1 ∧ (3 : ZMod 11) ≠ 4 ∧
    ∃ c₁ c₂ resp₁ resp₂,
      response (challenge (commit toySuite (newCosi (some 1)) [] 2).1 ⟨3⟩).1 [] = .ok (c₁, resp₁) ∧
      response (challenge c₁ ⟨4⟩).1 [] = .ok (c₂, resp₂) ∧
      (1 : ZMod 11) = (resp₂.response - resp₁.response) / (3 - 4) :=
  ⟨rfl, by decide, response_twice_reveals_key toySuite (newCosi (some 1)) rfl [] 2 ⟨3⟩ ⟨4⟩
    (by decide) [] []⟩

end SecondResponse

end Cothority.Cosi
