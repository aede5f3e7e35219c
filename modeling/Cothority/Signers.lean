import Cothority.Suite

/-! Signers and their aggregates. A signer holds a long-term private key `x` and the secret `v`
it commits to this round; its public key is `x • G`, its commitment `V = v • G` and its response
to a challenge `c` is `v - x * c`, the product in the order `genResponse` and `InitResponseCrypto`
take it. Both `lib/cosi` and `lib/sign` aggregate these by addition. -/

namespace Cothority

/-- A signer: its long-term private key, and the secret it draws for the round. -/
structure Signer (S : Type) where
  private' : S
  random : S
  deriving DecidableEq

section Sums

variable {S P : Type} [CommRing S] [AddCommGroup P] [Module S P] (suite : Suite S P)

/-- The aggregate public key `Σ x_k • G` of a list of signers. -/
def publicSum (l : List (Signer S)) : P := (l.map fun sg => sg.private' • suite.base).sum

/-- The aggregate of the own commitments `V_k = v_k • G`. -/
def commitSum (l : List (Signer S)) : P := (l.map fun sg => sg.random • suite.base).sum

/-- The aggregate of the own responses `r_k = v_k - x_k * c` to the challenge `ch`. -/
def responseSum (ch : S) (l : List (Signer S)) : S :=
  (l.map fun sg => sg.random - sg.private' * ch).sum

@[simp] theorem publicSum_nil : publicSum suite ([] : List (Signer S)) = 0 := rfl

@[simp] theorem publicSum_cons (sg : Signer S) (l : List (Signer S)) :
    publicSum suite (sg :: l) = sg.private' • suite.base + publicSum suite l := by
  simp [publicSum]

@[simp] theorem publicSum_append (l l' : List (Signer S)) :
    publicSum suite (l ++ l') = publicSum suite l + publicSum suite l' := by
  simp [publicSum]

@[simp] theorem commitSum_nil : commitSum suite ([] : List (Signer S)) = 0 := rfl

@[simp] theorem commitSum_cons (sg : Signer S) (l : List (Signer S)) :
    commitSum suite (sg :: l) = sg.random • suite.base + commitSum suite l := by
  simp [commitSum]

@[simp] theorem commitSum_append (l l' : List (Signer S)) :
    commitSum suite (l ++ l') = commitSum suite l + commitSum suite l' := by
  simp [commitSum]

@[simp] theorem responseSum_nil (ch : S) : responseSum ch ([] : List (Signer S)) = 0 := rfl

@[simp] theorem responseSum_cons (ch : S) (sg : Signer S) (l : List (Signer S)) :
    responseSum ch (sg :: l) = sg.random - sg.private' * ch + responseSum ch l := by
  simp [responseSum]

@[simp] theorem responseSum_append (ch : S) (l l' : List (Signer S)) :
    responseSum ch (l ++ l') = responseSum ch l + responseSum ch l' := by
  simp [responseSum]

theorem responseSum_smul_add (ch : S) (l : List (Signer S)) :
    responseSum ch l • suite.base + ch • publicSum suite l = commitSum suite l := by
  induction l with
  | nil => simp
  | cons sg l ih =>
      simp only [responseSum_cons, commitSum_cons, publicSum_cons] at ih ⊢
      rw [← ih]
      module

end Sums

end Cothority
