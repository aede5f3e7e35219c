import Cothority.Signers

/-! The round state of `lib/sign`, `CosiStruct`, with the setup of a round (`NewCosi`,
`InitCommitCrypto`), the response (`InitResponseCrypto`) and the check every node makes once its
descendants answered (`VerifyResponses`). The state keeps the fields a modelled function reads;
fields only written (`Commits`, `Responses`, `ExceptionList`, `ExceptionX_hat`, `ViewNbr`) or
never touched (`ChildV_hat`, `ChildX_hat`, `Proof`, `BackLink`, `AccRound`) are left out. Fields
that Go leaves nil until a phase sets them and that a modelled function reads unchecked are
options. -/

namespace Cothority.Sign

set_option linter.unusedSectionVars false

variable {S P : Type}

/-- `SNLog`, the log of a round: its secret `v`, its commitment `V`, the aggregate commitment
`V_hat` and the children's Merkle roots, concatenated. -/
structure SNLog (S P : Type) where
  v : S
  V : P
  V_hat : P
  CMTRoots : Bytes

/-- `CosiStruct`. `Proofs` is the Go map read with its default: a missing name has no proof. -/
structure CosiStruct (S P : Type) where
  Msg : Bytes
  C : Option S
  R : Option S
  Log : SNLog S P
  HashedLog : Bytes
  R_hat : Option S
  X_hat : P
  MTRoot : Bytes
  Leaves : List Bytes
  LeavesFrom : List String
  LocalMTRoot : Bytes
  CMTRoots : List Bytes
  CMTRootNames : List String
  Proofs : String → List Bytes
  PubKey : P
  PrivKey : S
  Name : String
  ExceptionV_hat : P
  Children : List String
  Parent : String

section CosiStruct

variable [CommRing S] [AddCommGroup P] [Module S P] (suite : Suite S P)

/-- Modelled from the spec: the `Node` (`lib/sign/node.go`, missing) fields `NewCosi` reads. Its
key pair is generated once with `PubKey = PrivKey • G`; `Children` and `Parent` give the tree of
each view, the children as the keys of the map `Children(view)` returns. -/
structure Node (suite : Suite S P) where
  Name : String
  PrivKey : S
  PubKey : P
  pubKey_eq : PubKey = PrivKey • suite.base
  Children : Nat → List String
  Parent : Nat → String

/-- A node of the toy suite, named `A`, with the key pair `(1, 1)`, root of every view. -/
def toyNode : Node toySuite where
  Name := "A"
  PrivKey := 1
  PubKey := 1
  pubKey_eq := by decide
  Children _ := []
  Parent _ := ""

/-- `InitCommitCrypto`: the round's secret is picked from a cipher seeded with the node's name,
its commitment starts the aggregate commitment and the node's key the aggregate key. -/
def CosiStruct.initCommitCrypto (cosi : CosiStruct S P) : CosiStruct S P :=
  let v := suite.pick [stringBytes cosi.Name]
  let V := v • suite.base
  { cosi with Log := ⟨v, V, 0 + V, []⟩, X_hat := 0 + cosi.PubKey }

/-- `NewCosi`: the state of a round for the node `sn` in the view `viewNbr`. The round number and
the announcement are not read. The log and the aggregate key, which `InitCommitCrypto` sets, are
`0` before it. -/
def newCosi {A : Type} (sn : Node suite) (viewNbr : Nat) (_roundNbr : Int) (_am : A) :
    CosiStruct S P :=
  CosiStruct.initCommitCrypto suite
    { Msg := [], C := none, R := none, Log := ⟨0, 0, 0, []⟩, HashedLog := [], R_hat := none,
      X_hat := 0, MTRoot := [], Leaves := [], LeavesFrom := [], LocalMTRoot := [], CMTRoots := [],
      CMTRootNames := [], Proofs := fun _ => [], PubKey := sn.PubKey, PrivKey := sn.PrivKey,
      Name := sn.Name, ExceptionV_hat := 0, Children := sn.Children viewNbr,
      Parent := sn.Parent viewNbr }

/-- `InitResponseCrypto`: `R = v - x * C`, which also starts the aggregate response. -/
def CosiStruct.initResponseCrypto (cosi : CosiStruct S P) : Except String (CosiStruct S P) :=
  match cosi.C with
  | some C =>
      let R := cosi.Log.v - cosi.PrivKey * C
      .ok { cosi with R := some R, R_hat := some R }
  | none => .error nilDeref

@[simp] theorem newCosi_Log {A : Type} (sn : Node suite) (viewNbr : Nat) (roundNbr : Int) (am : A) :
    (newCosi suite sn viewNbr roundNbr am).Log = ⟨suite.pick [stringBytes sn.Name],
      suite.pick [stringBytes sn.Name] • suite.base, suite.pick [stringBytes sn.Name] • suite.base,
      []⟩ := by
  simp [newCosi, CosiStruct.initCommitCrypto]

@[simp] theorem newCosi_X_hat {A : Type} (sn : Node suite) (viewNbr : Nat) (roundNbr : Int)
    (am : A) : (newCosi suite sn viewNbr roundNbr am).X_hat = sn.PubKey := by
  simp [newCosi, CosiStruct.initCommitCrypto]

@[simp] theorem newCosi_PrivKey {A : Type} (sn : Node suite) (viewNbr : Nat) (roundNbr : Int)
    (am : A) : (newCosi suite sn viewNbr roundNbr am).PrivKey = sn.PrivKey := rfl

@[simp] theorem newCosi_Parent {A : Type} (sn : Node suite) (viewNbr : Nat) (roundNbr : Int)
    (am : A) : (newCosi suite sn viewNbr roundNbr am).Parent = sn.Parent viewNbr := rfl

@[simp] theorem newCosi_ExceptionV_hat {A : Type} (sn : Node suite) (viewNbr : Nat)
    (roundNbr : Int) (am : A) : (newCosi suite sn viewNbr roundNbr am).ExceptionV_hat = 0 := rfl

theorem initResponseCrypto_eq {cosi : CosiStruct S P} {C : S} (hC : cosi.C = some C) :
    cosi.initResponseCrypto = .ok { cosi with
      R := some (cosi.Log.v - cosi.PrivKey * C), R_hat := some (cosi.Log.v - cosi.PrivKey * C) } := by
  simp [CosiStruct.initResponseCrypto, hC]

/-- `HashElGamal`: the cipher seeded with the point absorbs the message. -/
def CosiStruct.hashElGamal (message : Bytes) (p : P) : S :=
  suite.pick [suite.marshal p, message]

variable [DecidableEq S] [DecidableEq P]

/-- `VerifyResponses`: `T = R_hat • G + C • X_hat + ExceptionV_hat` must be the aggregate
commitment. At the root (`Parent = ""`) the challenge `C` is first replaced by the hash of the
aggregate commitment and then compared with the hash of `T`. The state after the call and the
result. -/
def CosiStruct.verifyResponses (cosi : CosiStruct S P) : CosiStruct S P × Except String Unit :=
  match cosi.R_hat, cosi.C with
  | some R_hat, some C =>
      let V_clean := R_hat • suite.base + C • cosi.X_hat
      let T := 0 + V_clean + cosi.ExceptionV_hat
      let isroot := cosi.Parent = ""
      let msg := cosi.Msg ++ cosi.MTRoot
      let cosi := if isroot then
        { cosi with C := some (CosiStruct.hashElGamal suite msg cosi.Log.V_hat) } else cosi
      let failed := T ≠ cosi.Log.V_hat ∨ (isroot ∧ cosi.C ≠ some (CosiStruct.hashElGamal suite msg T))
      (cosi, if failed then .error ("Verifying ElGamal Collective Signature failed in " ++ cosi.Name)
        else .ok ())
  | _, _ => (cosi, .error nilDeref)

theorem verifyResponses_eq {cosi : CosiStruct S P} {r c : S} (hR : cosi.R_hat = some r)
    (hC : cosi.C = some c) :
    cosi.verifyResponses suite =
      (if cosi.Parent = "" then { cosi with
          C := some (CosiStruct.hashElGamal suite (cosi.Msg ++ cosi.MTRoot) cosi.Log.V_hat) }
        else cosi,
       if r • suite.base + c • cosi.X_hat + cosi.ExceptionV_hat = cosi.Log.V_hat then .ok ()
        else .error ("Verifying ElGamal Collective Signature failed in " ++ cosi.Name)) := by
  by_cases hroot : cosi.Parent = "" <;> by_cases hT : r • suite.base + c • cosi.X_hat +
    cosi.ExceptionV_hat = cosi.Log.V_hat <;> simp [CosiStruct.verifyResponses, hR, hC, hroot, hT]

end CosiStruct

section Reuse

variable [Field S] [AddCommGroup P] [Module S P] (suite : Suite S P)

/-- **The round secret does not change between rounds.** `InitCommitCrypto` seeds its cipher with
the node's name alone, so every round `NewCosi` sets up for a node has the same secret `v`, and two
responses `R = v - x * C` of two rounds under different challenges give the private key away. -/
theorem newCosi_secret_reused {A : Type} (sn : Node suite) (view₁ view₂ : Nat)
    (round₁ round₂ : Int) (am₁ am₂ : A) (c₁ c₂ : S) (hc : c₁ ≠ c₂) :
    (newCosi suite sn view₁ round₁ am₁).Log.v = (newCosi suite sn view₂ round₂ am₂).Log.v ∧
    ∃ s₁ s₂ R₁ R₂,
      { newCosi suite sn view₁ round₁ am₁ with C := some c₁ }.initResponseCrypto = .ok s₁ ∧
      s₁.R = some R₁ ∧
      { newCosi suite sn view₂ round₂ am₂ with C := some c₂ }.initResponseCrypto = .ok s₂ ∧
      s₂.R = some R₂ ∧ sn.PrivKey = (R₂ - R₁) / (c₁ - c₂) := by
  refine ⟨by simp, _, _, _, _, initResponseCrypto_eq rfl, by rfl, initResponseCrypto_eq rfl, by rfl, ?_⟩
  field_simp [sub_ne_zero.mpr hc]
  ring

end Reuse

theorem newCosi_secret_reused_toy : (1 : ZMod 11) ≠ 2 ∧
    ((newCosi toySuite toyNode 0 1 ()).Log.v = (newCosi toySuite toyNode 0 2 ()).Log.v ∧
    ∃ s₁ s₂ R₁ R₂,
      { newCosi toySuite toyNode 0 1 () with C := some 1 }.initResponseCrypto = .ok s₁ ∧
      s₁.R = some R₁ ∧
      { newCosi toySuite toyNode 0 2 () with C := some 2 }.initResponseCrypto = .ok s₂ ∧
      s₂.R = some R₂ ∧ toyNode.PrivKey = (R₂ - R₁) / (1 - 2)) :=
  ⟨by decide, newCosi_secret_reused toySuite toyNode 0 0 1 2 () () 1 2 (by decide)⟩

end Cothority.Sign
