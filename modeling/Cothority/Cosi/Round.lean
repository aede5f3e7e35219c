import Cothority.Cosi.Engine
import Cothority.Signers

/-! Modelled from the spec: the driver of a round is not in the repository. The honest round of
`lib/cosi` over a tree of signers, one `Cosi` a node. A childless node below the root calls
`CreateCommitment` and `CreateResponse`; every other node, the root included, calls `Commit` and
`Response` on exactly its children's messages. The root calls `CreateChallenge` after its `Commit`,
and every other node stores that challenge with `Challenge` before it responds. A node's state and
messages depend only on its subtree and the challenge, so the phases are functions of the subtree.
-/

namespace Cothority.Cosi

/-- Modelled from the spec: a finite rooted tree, each node with its children in order. -/
inductive Tree (α : Type) where
  | node : α → List (Tree α) → Tree α

namespace Tree

variable {α : Type}

def children : Tree α → List (Tree α)
  | node _ ts => ts

mutual
/-- The labels of a tree, its root's first. -/
def labels : Tree α → List α
  | node a ts => a :: forestLabels ts

def forestLabels : List (Tree α) → List α
  | [] => []
  | t :: ts => t.labels ++ forestLabels ts
end

mutual
/-- Every subtree of a tree, the tree itself first. -/
def subtrees : Tree α → List (Tree α)
  | node a ts => node a ts :: forestSubtrees ts

def forestSubtrees : List (Tree α) → List (Tree α)
  | [] => []
  | t :: ts => t.subtrees ++ forestSubtrees ts
end

@[simp] theorem labels_node (a : α) (ts : List (Tree α)) :
    (node a ts).labels = a :: forestLabels ts := by
  simp [labels]

@[simp] theorem forestLabels_nil : forestLabels ([] : List (Tree α)) = [] := by
  simp [forestLabels]

@[simp] theorem forestLabels_cons (t : Tree α) (ts : List (Tree α)) :
    forestLabels (t :: ts) = t.labels ++ forestLabels ts := by
  simp [forestLabels]

end Tree

section Round

variable {S P : Type} [CommRing S] [AddCommGroup P] [Module S P] (suite : Suite S P)

mutual
/-- Modelled from the spec: the commitment phase at a node below the root, its state and the
message it sends up. -/
def commitPhase : Tree (Signer S) → Cosi S P × Commitment P
  | .node sg [] => createCommitment suite (newCosi (some sg.private')) sg.random
  | .node sg (k :: ks) =>
      commit suite (newCosi (some sg.private')) (commitPhases (k :: ks)) sg.random

/-- The messages a list of children sends up. -/
def commitPhases : List (Tree (Signer S)) → List (Commitment P)
  | [] => []
  | t :: ts => (commitPhase t).2 :: commitPhases ts
end

mutual
/-- Modelled from the spec: the response phase at a node below the root that stored the challenge
`ch`, its final state and the message it sends up. -/
def responsePhase (ch : S) : Tree (Signer S) → Except String (Cosi S P × Response S)
  | .node sg [] => createResponse (challenge (commitPhase suite (.node sg [])).1 ⟨ch⟩).1
  | .node sg (k :: ks) => do
      let responses ← responsePhases ch (k :: ks)
      response (challenge (commitPhase suite (.node sg (k :: ks))).1 ⟨ch⟩).1 responses

/-- The responses a list of children sends up. -/
def responsePhases (ch : S) : List (Tree (Signer S)) → Except String (List (Response S))
  | [] => pure []
  | t :: ts => do
      let (_, resp) ← responsePhase ch t
      let resps ← responsePhases ch ts
      pure (resp :: resps)
end

/-- Modelled from the spec: the root's round on the message `m`, `Commit` on its children's
messages (also when it has none), `CreateChallenge(m)`, then `Response` on its children's
responses. Its final state. -/
def round (m : Bytes) : Tree (Signer S) → Except String (Cosi S P)
  | .node sg ts => do
      let (c, _) := commit suite (newCosi (some sg.private')) (commitPhases suite ts) sg.random
      let (c, ch) ← createChallenge suite c m
      let responses ← responsePhases suite ch.challenge ts
      let (c, _) ← response c responses
      pure c

mutual
theorem commitPhase_total : ∀ t : Tree (Signer S),
    (commitPhase suite t).2.total = commitSum suite t.labels
  | .node sg [] => by simp [commitPhase, commitSum]
  | .node sg (k :: ks) => by simp [commitPhase, commitPhases_total (k :: ks), add_comm]

theorem commitPhases_total : ∀ ts : List (Tree (Signer S)),
    ((commitPhases suite ts).map Commitment.total).sum = commitSum suite (Tree.forestLabels ts)
  | [] => by simp [commitPhases]
  | t :: ts => by simp [commitPhases, commitPhase_total t, commitPhases_total ts]
end

theorem commitPhase_aggregateCommitment (sg : Signer S) (k : Tree (Signer S))
    (ks : List (Tree (Signer S))) :
    (commitPhase suite (.node sg (k :: ks))).1.aggregateCommitment =
      some (commitSum suite (Tree.node sg (k :: ks)).labels) := by
  simp [commitPhase, commitPhases_total, add_comm]

@[simp] theorem commitPhase_private (sg : Signer S) (ts : List (Tree (Signer S))) :
    (commitPhase suite (.node sg ts)).1.private' = some sg.private' := by
  cases ts <;> rfl

@[simp] theorem commitPhase_random (sg : Signer S) (ts : List (Tree (Signer S))) :
    (commitPhase suite (.node sg ts)).1.random = some sg.random := by
  cases ts <;> rfl

mutual
theorem responsePhase_ok (ch : S) : ∀ t : Tree (Signer S), ∃ c resp,
    responsePhase suite ch t = .ok (c, resp) ∧ resp.total = responseSum ch t.labels ∧
    c.aggregateResponse = some (responseSum ch t.labels) ∧ c.challenge = some ch ∧
    c.aggregateCommitment = (commitPhase suite t).1.aggregateCommitment
  | .node sg [] => by
      refine ⟨_, _, createResponse_eq (x := sg.private') (v := sg.random) (e := ch) ?_ ?_ ?_, ?_⟩
      all_goals simp [Response.total]
  | .node sg (k :: ks) => by
      obtain ⟨resps, hresps, htotal⟩ := responsePhases_ok ch (k :: ks)
      have h := response_eq (c := (challenge (commitPhase suite (.node sg (k :: ks))).1 ⟨ch⟩).1)
        (x := sg.private') (v := sg.random) (e := ch) (by simp) (by simp) (by simp) resps
      refine ⟨_, _, by simpa only [responsePhase, hresps, except_ok_bind] using h, ?_⟩
      simp [Response.total, htotal, add_comm]

theorem responsePhases_ok (ch : S) : ∀ ts : List (Tree (Signer S)), ∃ resps,
    responsePhases suite ch ts = .ok resps ∧
    (resps.map Response.total).sum = responseSum ch (Tree.forestLabels ts)
  | [] => ⟨[], rfl, by simp⟩
  | t :: ts => by
      obtain ⟨c, resp, h, htotal, -⟩ := responsePhase_ok ch t
      obtain ⟨resps, hs, hstotal⟩ := responsePhases_ok ch ts
      exact ⟨resp :: resps, by simp [responsePhases, h, hs], by simp [htotal, hstotal]⟩
end

theorem round_ok (m : Bytes) (t : Tree (Signer S)) : ∃ c, round suite m t = .ok c ∧
    c.challenge = some (suite.pick [suite.marshal (commitSum suite t.labels), m]) ∧
    c.aggregateCommitment = some (commitSum suite t.labels) ∧
    c.aggregateResponse = some (responseSum
      (suite.pick [suite.marshal (commitSum suite t.labels), m]) t.labels) := by
  obtain ⟨sg, ts⟩ := t
  set ch := suite.pick [suite.marshal (commitSum suite (Tree.node sg ts).labels), m]
  set c := (commit suite (newCosi (some sg.private')) (commitPhases suite ts) sg.random).1
  have hV : c.aggregateCommitment = some (commitSum suite (Tree.node sg ts).labels) := by
    simp [c, commitPhases_total, add_comm]
  obtain ⟨resps, hresps, htotal⟩ := responsePhases_ok suite ch ts
  have h := response_eq (x := sg.private') (v := sg.random) (e := ch)
    (c := { c with challenge := some ch }) rfl rfl rfl resps
  exact ⟨_, by simp only [round, createChallenge_eq suite hV, except_ok_bind, hresps, h]; rfl,
    by rfl, by exact hV, by simp [htotal, add_comm]⟩

/-- What a node below the root sends and holds in a round under the challenge `ch`: its messages
carry its subtree's aggregate commitment and aggregate response, it holds that aggregate
response, and that aggregate commitment too once it ran `Commit`. -/
def SubtreeAggregates (ch : S) (n : Tree (Signer S)) : Prop :=
  (commitPhase suite n).2.total = commitSum suite n.labels ∧
  ∃ c resp, responsePhase suite ch n = .ok (c, resp) ∧
    resp.total = responseSum ch n.labels ∧ c.aggregateResponse = some (responseSum ch n.labels) ∧
    (n.children ≠ [] → c.aggregateCommitment = some (commitSum suite n.labels))

theorem subtreeAggregates (ch : S) (n : Tree (Signer S)) : SubtreeAggregates suite ch n := by
  obtain ⟨c, resp, h, htotal, hagg, -, hV⟩ := responsePhase_ok suite ch n
  refine ⟨commitPhase_total suite n, c, resp, h, htotal, hagg, fun hn => ?_⟩
  obtain ⟨sg, _ | ⟨k, ks⟩⟩ := n
  · exact absurd rfl hn
  · rw [hV, commitPhase_aggregateCommitment]

/-- **Aggregation in an honest round.** The root holds the aggregate commitment and the aggregate
response of the whole tree, and every other node sends and holds those of its subtree, under the
challenge the root derived: no contribution is counted twice or dropped. -/
theorem round_aggregates (m : Bytes) (t : Tree (Signer S)) :
    ∃ c ch, round suite m t = .ok c ∧ c.challenge = some ch ∧
      c.aggregateCommitment = some (commitSum suite t.labels) ∧
      c.aggregateResponse = some (responseSum ch t.labels) ∧
      ∀ n ∈ Tree.forestSubtrees t.children, SubtreeAggregates suite ch n := by
  obtain ⟨c, h, hch, hV, hR⟩ := round_ok suite m t
  exact ⟨c, _, h, hch, hV, hR, fun n _ => subtreeAggregates suite _ n⟩

end Round

end Cothority.Cosi
