import Cothority.Sign.CosiStruct
import Cothority.Cosi.Engine

/-! What `VerifyResponses` accepts, what it changes, and how its verdict at the root relates to the
third-party verifier of `lib/cosi`. Everything follows from `verifyResponses_eq`: the check is the
equation `R_hat • G + C • X_hat + ExceptionV_hat = V_hat` alone, and the root overwrites `C` with
the hash of `V_hat` before comparing it with the hash of the rebuilt point. -/

namespace Cothority.Sign

set_option linter.unusedSectionVars false

section Verify

variable {S P : Type} [CommRing S] [AddCommGroup P] [Module S P] [DecidableEq S] [DecidableEq P]
  (suite : Suite S P)

theorem verifyResponses_ok {cosi : CosiStruct S P} {r c : S} (hR : cosi.R_hat = some r)
    (hC : cosi.C = some c)
    (heq : r • suite.base + c • cosi.X_hat + cosi.ExceptionV_hat = cosi.Log.V_hat) :
    (cosi.verifyResponses suite).2 = .ok () := by
  simp [verifyResponses_eq suite hR hC, heq]

theorem verifyResponses_ok_iff {cosi : CosiStruct S P} {r c : S} (hR : cosi.R_hat = some r)
    (hC : cosi.C = some c) :
    (cosi.verifyResponses suite).2 = .ok () ↔
      r • suite.base + c • cosi.X_hat + cosi.ExceptionV_hat = cosi.Log.V_hat := by
  by_cases h : r • suite.base + c • cosi.X_hat + cosi.ExceptionV_hat = cosi.Log.V_hat <;>
    simp [verifyResponses_eq suite hR hC, h]

/-- **Responders and post-commit failures.** With the responders' response and key and the failed
signers' exception commitment, `VerifyResponses` passes; so does a node's own round after
`NewCosi` and `InitResponseCrypto`. -/
theorem verifyResponses_responders_exceptions :
    (∀ (cosi : CosiStruct S P) (resp exc : List (Signer S)) (c : S), cosi.C = some c →
      cosi.R_hat = some (responseSum c resp) → cosi.X_hat = publicSum suite resp →
      cosi.ExceptionV_hat = commitSum suite exc → cosi.Log.V_hat = commitSum suite (resp ++ exc) →
      (cosi.verifyResponses suite).2 = .ok ()) ∧
    ∀ {A : Type} (sn : Node suite) (viewNbr : Nat) (roundNbr : Int) (am : A) (c : S),
      ∃ s, { newCosi suite sn viewNbr roundNbr am with C := some c }.initResponseCrypto = .ok s ∧
        (s.verifyResponses suite).2 = .ok () := by
  refine ⟨fun cosi resp exc c hC hR hX hExV hV => verifyResponses_ok suite hR hC ?_,
    fun sn viewNbr roundNbr am c => ⟨_, initResponseCrypto_eq rfl,
      verifyResponses_ok suite rfl rfl ?_⟩⟩
  · rw [hX, hExV, hV, responseSum_smul_add, commitSum_append]
  · simp only [newCosi_Log, newCosi_X_hat, newCosi_PrivKey, newCosi_ExceptionV_hat, sn.pubKey_eq]
    module

theorem verifyResponses_fst (cosi : CosiStruct S P) :
    (cosi.verifyResponses suite).1 =
      if cosi.R_hat.isSome ∧ cosi.C.isSome ∧ cosi.Parent = "" then { cosi with
        C := some (CosiStruct.hashElGamal suite (cosi.Msg ++ cosi.MTRoot) cosi.Log.V_hat) }
      else cosi := by
  cases hR : cosi.R_hat with
  | none => simp [CosiStruct.verifyResponses, hR]
  | some r =>
      cases hC : cosi.C with
      | none => simp [CosiStruct.verifyResponses, hR, hC]
      | some c => simp [verifyResponses_eq suite hR hC, hR, hC]

/-- After one call the state is a fixed point: from the second call on, `VerifyResponses` changes
nothing and repeats its verdict. -/
theorem verifyResponses_fst_fst (cosi : CosiStruct S P) :
    ((cosi.verifyResponses suite).1.verifyResponses suite).1 = (cosi.verifyResponses suite).1 := by
  rw [verifyResponses_fst suite cosi]
  split_ifs with h
  · rw [verifyResponses_fst]
    simp [h]
  · rw [verifyResponses_fst, if_neg h]

/-- **The root and the third-party verifier.** After the root passes with its reduced key, the
verifier with `X` and the exceptions hashes `V_hat` moved by the replaced challenge and by the
exceptions' keys, which it does not take off `X`. -/
theorem verifySignatureWithException_after_root {cosi : CosiStruct S P} {r c : S} {X : P}
    (E : List (Cosi.Exception P)) (hroot : cosi.Parent = "") (hR : cosi.R_hat = some r)
    (hC : cosi.C = some c) (hX : cosi.X_hat = X - (E.map Cosi.Exception.public).sum)
    (hExV : cosi.ExceptionV_hat = (E.map Cosi.Exception.commitment).sum)
    (hok : (cosi.verifyResponses suite).2 = .ok ()) :
    let c' := CosiStruct.hashElGamal suite (cosi.Msg ++ cosi.MTRoot) cosi.Log.V_hat
    (cosi.verifyResponses suite).1.C = some c' ∧
    Cosi.verifySignatureWithException suite X (cosi.Msg ++ cosi.MTRoot) c' r E =
      Cosi.verifyCommitment suite (cosi.Msg ++ cosi.MTRoot)
        (cosi.Log.V_hat + (c' - c) • cosi.X_hat + c' • (E.map Cosi.Exception.public).sum) c' := by
  have heq := (verifyResponses_ok_iff suite hR hC).mp hok
  intro c'
  refine ⟨by simp [c', verifyResponses_eq suite hR hC, hroot], ?_⟩
  rw [Cosi.verifySignatureWithException_eq]
  congr 1
  clear_value c'
  rw [← heq, hExV, show X = cosi.X_hat + (E.map Cosi.Exception.public).sum by rw [hX]; abel]
  module

end Verify

theorem verifySignatureWithException_after_root_one_exception :
    ∃ cosi : CosiStruct (ZMod 11) (ZMod 11), cosi.Parent = "" ∧ cosi.R_hat = some 7 ∧
      cosi.C = some 3 ∧ cosi.X_hat = 4 - ([⟨3, 4⟩].map Cosi.Exception.public).sum ∧
      cosi.ExceptionV_hat = ([⟨3, 4⟩].map Cosi.Exception.commitment).sum ∧
      (cosi.verifyResponses toySuite).2 = .ok () ∧
      let c' := CosiStruct.hashElGamal toySuite (cosi.Msg ++ cosi.MTRoot) cosi.Log.V_hat
      (cosi.verifyResponses toySuite).1.C = some c' ∧
      Cosi.verifySignatureWithException toySuite 4 (cosi.Msg ++ cosi.MTRoot) c' 7 [⟨3, 4⟩] =
        Cosi.verifyCommitment toySuite (cosi.Msg ++ cosi.MTRoot)
          (cosi.Log.V_hat + (c' - 3) • cosi.X_hat +
            c' • ([⟨3, 4⟩].map Cosi.Exception.public).sum) c' :=
  ⟨{ newCosi toySuite toyNode 0 1 () with
      C := some 3, R_hat := some 7, Log.V_hat := 3, ExceptionV_hat := 4 },
    rfl, rfl, rfl, by decide, by decide, by rfl,
    verifySignatureWithException_after_root toySuite [⟨3, 4⟩] rfl rfl rfl (by decide) (by decide)
      (by rfl)⟩

/-- A root whose stored challenge, `2`, is not the hash, `10`, of its aggregate commitment, and
whose response answers `2`: `VerifyResponses` passes. -/
theorem root_accepts_unhashed_challenge :
    ∃ s, { newCosi toySuite toyNode 0 1 () with C := some 2 }.initResponseCrypto = .ok s ∧
      s.Parent = "" ∧ (s.verifyResponses toySuite).2 = .ok () ∧
      s.C ≠ some (CosiStruct.hashElGamal toySuite (s.Msg ++ s.MTRoot) s.Log.V_hat) :=
  ⟨_, initResponseCrypto_eq rfl, by rfl, by rfl, by decide⟩

/-- The same root: the first call passes and replaces `C` by `10`, the second fails. -/
theorem verifyResponses_twice_differs :
    ∃ s, { newCosi toySuite toyNode 0 1 () with C := some 2 }.initResponseCrypto = .ok s ∧
      (s.verifyResponses toySuite).1.C ≠ s.C ∧ (s.verifyResponses toySuite).2 = .ok () ∧
      ((s.verifyResponses toySuite).1.verifyResponses toySuite).2 =
        .error "Verifying ElGamal Collective Signature failed in A" :=
  ⟨_, initResponseCrypto_eq rfl, by decide, by rfl, by rfl⟩

/-- A root with one exception, the signer `(3, 4)`, that answered the hash `3` of its aggregate
commitment: it passes `VerifyResponses`, and the verifier rejects the signature it broadcasts. -/
theorem root_and_verifier_disagree :
    let E : List (Cosi.Exception (ZMod 11)) := [⟨3, 4⟩]
    ∃ s, { newCosi toySuite toyNode 0 1 () with
        C := some 3, Log.V_hat := 3, ExceptionV_hat := 4 }.initResponseCrypto = .ok s ∧
      s.Parent = "" ∧ s.X_hat = 4 - (E.map Cosi.Exception.public).sum ∧
      s.ExceptionV_hat = (E.map Cosi.Exception.commitment).sum ∧
      (s.verifyResponses toySuite).2 = .ok () ∧ (s.verifyResponses toySuite).1.C = some 3 ∧
      s.R_hat = some 7 ∧
      Cosi.verifySignatureWithException toySuite 4 (s.Msg ++ s.MTRoot) 3 7 E =
        .error "Reconstructed challenge not equal to one given" :=
  ⟨_, initResponseCrypto_eq rfl, by rfl, by decide, by decide, by rfl, by decide, by decide, by rfl⟩

theorem verifyResponses_responders_exceptions_toy :
    let s : CosiStruct (ZMod 11) (ZMod 11) := { newCosi toySuite toyNode 0 1 () with
      C := some 2, R_hat := some 8, ExceptionV_hat := 4, Log.V_hat := 3 }
    s.C = some 2 ∧ s.R_hat = some (responseSum 2 [⟨1, 10⟩]) ∧
      s.X_hat = publicSum toySuite [⟨1, 10⟩] ∧ s.ExceptionV_hat = commitSum toySuite [⟨3, 4⟩] ∧
      s.Log.V_hat = commitSum toySuite ([⟨1, 10⟩] ++ [⟨3, 4⟩]) ∧
      (s.verifyResponses toySuite).2 = .ok () :=
  ⟨rfl, rfl, rfl, by decide, by decide, (verifyResponses_responders_exceptions toySuite).1 _
    [⟨1, 10⟩] [⟨3, 4⟩] 2 rfl rfl rfl (by decide) (by decide)⟩

end Cothority.Sign
