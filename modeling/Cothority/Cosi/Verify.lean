import Cothority.Cosi.Round

/-! What a third party concludes from the root's signature. After an honest round the signature
passes `VerifySignature` and `VerifyCosiSignatureWithException` with no exception, and every node
that ran `Commit` and `Response` passes `VerifyResponses` against its subtree's key. With
exceptions the verifier rebuilds the commitment with the unreduced key: the point it hashes
exceeds the aggregate commitment by `c • X_S`, the challenge times the exceptions' keys. -/

namespace Cothority.Cosi

set_option linter.unusedSectionVars false

section Verify

variable {S P : Type} [CommRing S] [AddCommGroup P] [Module S P] [DecidableEq S] [DecidableEq P]
  (suite : Suite S P)

theorem verifySignature_ok {X V : P} {ch r : S} (m : Bytes)
    (hch : suite.pick [suite.marshal V, m] = ch) (heq : r • suite.base + ch • X = V) :
    verifySignature suite m X ch r = .ok () := by
  rw [verifySignature, verifyCommitment_eq_ok, heq, hch]

/-- **Completeness of an honest round.** For every tree of signers and every message, the root's
signature verifies against the aggregate key of the tree, with and without an empty exception
list, and every node that ran `Commit` and `Response` passes `VerifyResponses` against the
aggregate key of its subtree. -/
theorem round_signature_verifies (m : Bytes) (t : Tree (Signer S)) :
    ∃ c ch r, round suite m t = .ok c ∧ signature c = ⟨some ch, some r⟩ ∧
      verifySignature suite m (publicSum suite t.labels) ch r = .ok () ∧
      verifyCosiSignatureWithException suite (publicSum suite t.labels) m (signature c) [] =
        .ok () ∧
      verifyResponses suite c (publicSum suite t.labels) = .ok () ∧
      ∀ n ∈ Tree.forestSubtrees t.children, n.children ≠ [] →
        ∃ c' resp, responsePhase suite ch n = .ok (c', resp) ∧
          verifyResponses suite c' (publicSum suite n.labels) = .ok () := by
  obtain ⟨c, h, hch, hV, hR⟩ := round_ok suite m t
  have hsig := verifySignature_ok suite m rfl (responseSum_smul_add suite _ t.labels)
  refine ⟨c, _, _, h, by simp [signature, hch, hR], hsig, ?_, ?_, fun n _ hn => ?_⟩
  · simpa [verifyCosiSignatureWithException, signature, hch, hR,
      verifySignatureWithException_eq] using hsig
  · exact (verifyResponses_eq_ok suite _ hR hch hV).mpr (responseSum_smul_add suite _ t.labels)
  · obtain ⟨c', resp, h', -, hR', hch', hV'⟩ := responsePhase_ok suite
      (suite.pick [suite.marshal (commitSum suite t.labels), m]) n
    obtain ⟨sg, _ | ⟨k, ks⟩⟩ := n
    · exact absurd rfl hn
    · rw [commitPhase_aggregateCommitment] at hV'
      exact ⟨c', resp, h', (verifyResponses_eq_ok suite _ hR' hch' hV').mpr
        (responseSum_smul_add suite _ _)⟩

/-- The exception list for the signers of `family` marked as having committed and not
responded: each one's public key and commitment. -/
def exceptionsOf (family : List (Signer S × Bool)) : List (Exception P) :=
  (family.filter (·.2)).map fun p => ⟨p.1.private' • suite.base, p.1.random • suite.base⟩

/-- The signers of `family` that responded. -/
def respondersOf (family : List (Signer S × Bool)) : List (Signer S) :=
  (family.filter fun p => !p.2).map Prod.fst

/-- The signers of `family` that committed and did not respond. -/
def excludedOf (family : List (Signer S × Bool)) : List (Signer S) :=
  (family.filter (·.2)).map Prod.fst

theorem responders_append_excluded_perm (family : List (Signer S × Bool)) :
    (respondersOf family ++ excludedOf family).Perm (family.map Prod.fst) := by
  rw [respondersOf, excludedOf, ← List.map_append]
  exact (List.perm_append_comm.trans (List.filter_append_perm _ _)).map _

theorem commitSum_split (family : List (Signer S × Bool)) :
    commitSum suite (family.map Prod.fst) =
      commitSum suite (respondersOf family) + commitSum suite (excludedOf family) := by
  rw [← commitSum_append, commitSum, commitSum]
  exact ((responders_append_excluded_perm family).map _).sum_eq.symm

theorem publicSum_split (family : List (Signer S × Bool)) :
    publicSum suite (family.map Prod.fst) =
      publicSum suite (respondersOf family) + publicSum suite (excludedOf family) := by
  rw [← publicSum_append, publicSum, publicSum]
  exact ((responders_append_excluded_perm family).map _).sum_eq.symm

/-- **What the exception verifier hashes.** On the challenge of the whole family and the aggregate
response of its responders, `VerifySignatureWithException` with the exceptions of the others
rebuilds the family's aggregate commitment plus `c • X_S`, the challenge times the key of the
signers that did not respond. -/
theorem verifySignatureWithException_family (family : List (Signer S × Bool)) (m : Bytes)
    (c : S) :
    verifySignatureWithException suite (publicSum suite (family.map Prod.fst)) m c
      (responseSum c (respondersOf family)) (exceptionsOf suite family) =
    verifyCommitment suite m
      (commitSum suite (family.map Prod.fst) + c • publicSum suite (excludedOf family)) c := by
  rw [verifySignatureWithException_eq]
  congr 1
  have hresp := responseSum_smul_add suite c (respondersOf family)
  have hex : ((exceptionsOf suite family).map Exception.commitment).sum =
      commitSum suite (excludedOf family) := by
    simp [exceptionsOf, excludedOf, commitSum, Function.comp_def]
  rw [hex, commitSum_split, publicSum_split, ← hresp, smul_add]
  abel

end Verify

/-- Two signers, the second of which committed and did not respond: `VerifySignatureWithException`
rejects the challenge of the pair with the first one's response and the second one's exception. -/
theorem exception_signature_rejected :
    let family : List (Signer (ZMod 11) × Bool) := [(⟨1, 2⟩, false), (⟨3, 4⟩, true)]
    let c := toySuite.pick [toySuite.marshal (commitSum toySuite (family.map Prod.fst)), []]
    verifySignatureWithException toySuite (publicSum toySuite (family.map Prod.fst)) [] c
      (responseSum c (respondersOf family)) (exceptionsOf toySuite family) =
      .error "Reconstructed challenge not equal to one given" := by
  rfl

end Cothority.Cosi
