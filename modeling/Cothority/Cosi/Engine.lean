import Cothority.Suite

/-! The signing engine of `lib/cosi`: one signer's `Cosi` state for one round and the four phases
it goes through, with the verifiers a third party runs on the final signature. Each method takes
the state and returns the new one with the message the Go method returns; the random secret that
`genCommit` draws is an argument. The announcement, which stamps a `time.Now()` no modelled
function reads, is left out. -/

namespace Cothority.Cosi

set_option linter.dupNamespace false
set_option linter.unusedSectionVars false

variable {S P : Type}

/-- `Cosi`: the fields are nil (`none`) until a phase sets them. -/
structure Cosi (S P : Type) where
  private' : Option S
  random : Option S
  commitment : Option P
  aggregateCommitment : Option P
  challenge : Option S
  response : Option S
  aggregateResponse : Option S
  deriving DecidableEq

/-- The `Commitment` message; `ChildrenCommit` is nil in a leaf's message. -/
structure Commitment (P : Type) where
  commitment : P
  childrenCommit : Option P
  deriving DecidableEq

structure Challenge (S : Type) where
  challenge : S
  deriving DecidableEq

/-- The `Response` message; `ChildrenResp` is nil in a leaf's message. -/
structure Response (S : Type) where
  response : S
  childrenResp : Option S
  deriving DecidableEq

structure Signature (S : Type) where
  challenge : Option S
  response : Option S
  deriving DecidableEq

/-- The public key and commitment of a signer that committed and did not respond. -/
structure Exception (P : Type) where
  public : P
  commitment : P
  deriving DecidableEq

/-- `NewCosi`: only the long-term private key is set. -/
def newCosi (private' : Option S) : Cosi S P :=
  ⟨private', none, none, none, none, none, none⟩

section Engine

variable [CommRing S] [AddCommGroup P] [Module S P] (suite : Suite S P)

/-- `genCommit`: the secret `v` drawn by `config.NewKeyPair` and its public point, the
commitment. -/
def genCommit (c : Cosi S P) (v : S) : Cosi S P :=
  { c with random := some v, commitment := some (v • suite.base) }

/-- `CreateCommitment`, run by a leaf. -/
def createCommitment (c : Cosi S P) (v : S) : Cosi S P × Commitment P :=
  (genCommit suite c v, ⟨v • suite.base, none⟩)

/-- One turn of `Commit`'s loop: the child's commitment, then its children's when there are any. -/
def addCommitment (acc : P) (com : Commitment P) : P :=
  match com.childrenCommit with
  | some cc => acc + com.commitment + cc
  | none => acc + com.commitment

/-- `Commit`: the signer's own commitment, kept apart from the sum of its children's so that a
parent adds each contribution once. -/
def commit (c : Cosi S P) (comms : List (Commitment P)) (v : S) : Cosi S P × Commitment P :=
  let child_v_hat := comms.foldl addCommitment 0
  ({ genCommit suite c v with aggregateCommitment := some (child_v_hat + v • suite.base) },
    ⟨v • suite.base, some child_v_hat⟩)

/-- `CreateChallenge`, run by the root: the cipher seeded with the aggregate commitment absorbs
the message. -/
def createChallenge (c : Cosi S P) (msg : Bytes) : Except String (Cosi S P × Challenge S) :=
  match c.aggregateCommitment with
  | some V =>
      let ch := suite.pick [suite.marshal V, msg]
      .ok ({ c with challenge := some ch }, ⟨ch⟩)
  | none => .error nilDeref

/-- `Challenge`: store the challenge and relay it. -/
def challenge (c : Cosi S P) (ch : Challenge S) : Cosi S P × Challenge S :=
  ({ c with challenge := some ch.challenge }, ch)

/-- `genResponse`: `r = v - x * c`, also the aggregate until children's responses are added. -/
def genResponse (c : Cosi S P) : Except String (Cosi S P × S) :=
  match c.private', c.random, c.challenge with
  | none, _, _ => .error "No private key given in this cosi"
  | some _, none, _ => .error "No random secret computed in this cosi"
  | some _, some _, none => .error "No challenge computed in this cosi"
  | some x, some v, some ch =>
      let r := v - x * ch
      .ok ({ c with response := some r, aggregateResponse := some r }, r)

/-- `CreateResponse`, run by a leaf. -/
def createResponse (c : Cosi S P) : Except String (Cosi S P × Response S) := do
  let (c, r) ← genResponse c
  pure (c, ⟨r, none⟩)

/-- One turn of `Response`'s loop. -/
def addResponse (acc : S) (resp : Response S) : S :=
  match resp.childrenResp with
  | some cr => acc + resp.response + cr
  | none => acc + resp.response

/-- `Response`: own response plus the children's, the children's sum sent apart. -/
def response (c : Cosi S P) (responses : List (Response S)) :
    Except String (Cosi S P × Response S) := do
  let (c, r) ← genResponse c
  let aggregateResponse := responses.foldl addResponse 0
  pure ({ c with aggregateResponse := some (aggregateResponse + r) }, ⟨r, some aggregateResponse⟩)

/-- `Signature`: the challenge and the aggregate response held. -/
def signature (c : Cosi S P) : Signature S :=
  ⟨c.challenge, c.aggregateResponse⟩

/-- What a `Commitment` message carries up: `Commitment + ChildrenCommit`, nil read as `0`. -/
def Commitment.total (com : Commitment P) : P := com.commitment + com.childrenCommit.getD 0

/-- What a `Response` message carries up: `Response + ChildrenResp`, nil read as `0`. -/
def Response.total (resp : Response S) : S := resp.response + resp.childrenResp.getD 0

theorem addCommitment_eq (acc : P) (com : Commitment P) :
    addCommitment acc com = acc + com.total := by
  cases h : com.childrenCommit <;> simp [addCommitment, Commitment.total, h, add_assoc]

theorem addResponse_eq (acc : S) (resp : Response S) : addResponse acc resp = acc + resp.total := by
  cases h : resp.childrenResp <;> simp [addResponse, Response.total, h, add_assoc]

theorem foldl_addCommitment (acc : P) (comms : List (Commitment P)) :
    comms.foldl addCommitment acc = acc + (comms.map Commitment.total).sum := by
  induction comms generalizing acc with
  | nil => simp
  | cons com comms ih => simp [ih, addCommitment_eq, add_assoc]

theorem foldl_addResponse (acc : S) (responses : List (Response S)) :
    responses.foldl addResponse acc = acc + (responses.map Response.total).sum := by
  induction responses generalizing acc with
  | nil => simp
  | cons resp responses ih => simp [ih, addResponse_eq, add_assoc]

@[simp] theorem createCommitment_total (c : Cosi S P) (v : S) :
    (createCommitment suite c v).2.total = v • suite.base := by
  simp [createCommitment, Commitment.total]

@[simp] theorem commit_total (c : Cosi S P) (comms : List (Commitment P)) (v : S) :
    (commit suite c comms v).2.total = v • suite.base + (comms.map Commitment.total).sum := by
  simp [commit, Commitment.total, foldl_addCommitment]

@[simp] theorem commit_aggregateCommitment (c : Cosi S P) (comms : List (Commitment P)) (v : S) :
    (commit suite c comms v).1.aggregateCommitment =
      some ((comms.map Commitment.total).sum + v • suite.base) := by
  simp [commit, foldl_addCommitment]

@[simp] theorem commit_private (c : Cosi S P) (comms : List (Commitment P)) (v : S) :
    (commit suite c comms v).1.private' = c.private' := rfl

@[simp] theorem commit_random (c : Cosi S P) (comms : List (Commitment P)) (v : S) :
    (commit suite c comms v).1.random = some v := rfl

@[simp] theorem createCommitment_private (c : Cosi S P) (v : S) :
    (createCommitment suite c v).1.private' = c.private' := rfl

@[simp] theorem createCommitment_random (c : Cosi S P) (v : S) :
    (createCommitment suite c v).1.random = some v := rfl

@[simp] theorem challenge_fst (c : Cosi S P) (ch : Challenge S) :
    (challenge c ch).1 = { c with challenge := some ch.challenge } := rfl

theorem createChallenge_eq {c : Cosi S P} {V : P} (hV : c.aggregateCommitment = some V)
    (msg : Bytes) :
    createChallenge suite c msg = .ok ({ c with
      challenge := some (suite.pick [suite.marshal V, msg]) }, ⟨suite.pick [suite.marshal V, msg]⟩) := by
  simp [createChallenge, hV]

theorem genResponse_eq {c : Cosi S P} {x v e : S} (hx : c.private' = some x)
    (hv : c.random = some v) (hc : c.challenge = some e) :
    genResponse c = .ok ({ c with
      response := some (v - x * e), aggregateResponse := some (v - x * e) }, v - x * e) := by
  simp [genResponse, hx, hv, hc]

theorem createResponse_eq {c : Cosi S P} {x v e : S} (hx : c.private' = some x)
    (hv : c.random = some v) (hc : c.challenge = some e) :
    createResponse c = .ok ({ c with
      response := some (v - x * e), aggregateResponse := some (v - x * e) },
      ⟨v - x * e, none⟩) := by
  simp [createResponse, genResponse_eq hx hv hc]

theorem response_eq {c : Cosi S P} {x v e : S} (hx : c.private' = some x)
    (hv : c.random = some v) (hc : c.challenge = some e) (responses : List (Response S)) :
    response c responses = .ok ({ c with
      response := some (v - x * e),
      aggregateResponse := some ((responses.map Response.total).sum + (v - x * e)) },
      ⟨v - x * e, some (responses.map Response.total).sum⟩) := by
  simp [response, genResponse_eq hx hv hc, foldl_addResponse]

variable [DecidableEq S] [DecidableEq P]

/-- `VerifyResponses`: `r_hat • G + c • X_hat` must give back the aggregate commitment. -/
def verifyResponses (c : Cosi S P) (aggregatedPublic : P) : Except String Unit :=
  match c.aggregateResponse, c.challenge, c.aggregateCommitment with
  | some r, some ch, some V =>
      let T := 0 + (r • suite.base + ch • aggregatedPublic)
      if T = V then .ok () else .error "recreated commitment is not equal to one given"
  | _, _, _ => .error nilDeref

/-- `verifyCommitment`: the challenge re-derived from the rebuilt commitment must be the one given. -/
def verifyCommitment (msg : Bytes) (commitment : P) (challenge : S) : Except String Unit :=
  if suite.pick [suite.marshal commitment, msg] = challenge then .ok ()
  else .error "Reconstructed challenge not equal to one given"

/-- `VerifySignature`. -/
def verifySignature (msg : Bytes) (public : P) (challenge secret : S) : Except String Unit :=
  verifyCommitment suite msg (secret • suite.base + challenge • public) challenge

/-- The loop of `VerifySignatureWithException`: the key reduced by the exceptions' keys
(`subPublic`) and the sum of their commitments (`aggExCommit`). -/
def reduceExceptions (public : P) (exceptions : List (Exception P)) : P × P :=
  exceptions.foldl (fun acc ex => (acc.1 - ex.public, acc.2 + ex.commitment)) (0 + public, 0)

/-- `VerifySignatureWithException`. As in the source the reduced key is computed and the
commitment is rebuilt with `public`. -/
def verifySignatureWithException (public : P) (msg : Bytes) (challenge secret : S)
    (exceptions : List (Exception P)) : Except String Unit :=
  let (_subPublic, aggExCommit) := reduceExceptions public exceptions
  let commitment := secret • suite.base + challenge • public
  verifyCommitment suite msg (commitment + aggExCommit) challenge

/-- `VerifyCosiSignatureWithException`. -/
def verifyCosiSignatureWithException (public : P) (msg : Bytes) (signature : Signature S)
    (exceptions : List (Exception P)) : Except String Unit :=
  match signature.challenge, signature.response with
  | some ch, some r => verifySignatureWithException suite public msg ch r exceptions
  | _, _ => .error nilDeref

theorem verifyResponses_eq_ok {c : Cosi S P} {r ch : S} {V : P} (X : P)
    (hr : c.aggregateResponse = some r) (hc : c.challenge = some ch)
    (hV : c.aggregateCommitment = some V) :
    verifyResponses suite c X = .ok () ↔ r • suite.base + ch • X = V := by
  simp [verifyResponses, hr, hc, hV]

theorem verifyCommitment_eq_ok (msg : Bytes) (commitment : P) (challenge : S) :
    verifyCommitment suite msg commitment challenge = .ok () ↔
      suite.pick [suite.marshal commitment, msg] = challenge := by
  simp [verifyCommitment]

theorem foldl_reduceExceptions (a b : P) (exceptions : List (Exception P)) :
    exceptions.foldl (fun acc ex => (acc.1 - ex.public, acc.2 + ex.commitment)) (a, b) =
      (a - (exceptions.map Exception.public).sum, b + (exceptions.map Exception.commitment).sum) := by
  induction exceptions generalizing a b with
  | nil => simp
  | cons ex exceptions ih => simp [ih, sub_sub, add_assoc]

theorem verifySignatureWithException_eq (public : P) (msg : Bytes) (challenge secret : S)
    (exceptions : List (Exception P)) :
    verifySignatureWithException suite public msg challenge secret exceptions =
      verifyCommitment suite msg (secret • suite.base + challenge • public +
        (exceptions.map Exception.commitment).sum) challenge := by
  simp [verifySignatureWithException, reduceExceptions, foldl_reduceExceptions]

end Engine

end Cothority.Cosi
