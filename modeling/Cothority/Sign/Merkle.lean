import Cothority.Sign.CosiStruct

/-! The combined Merkle tree of a round in `lib/sign`: the children's roots, the local root and the
hash of the round's log are sorted into one leaf list, `proof.ProofTree` builds a tree over it and
`SeparateProofs` hands each child, and the local collaborator, the proofs of the leaves that hold
its root. `ProofTree`, the sort order of `hashid.ByHashId` and the gob encoding of the log's roots
are outside the source and are parameters; a spec model of `ProofTree` is given to run the code. -/

namespace Cothority.Sign

set_option linter.unusedSectionVars false

/-- A `proof.Proof`: the sibling hashes from a leaf up to the root. -/
abbrev Proof := List Bytes

/-- `append(Proofs[name], p...)` on the map `Proofs`. -/
def addProof (Proofs : String → Proof) (name : String) (p : Proof) : String → Proof :=
  fun k => if k = name then Proofs k ++ p else Proofs k

@[simp] theorem addProof_nil (Proofs : String → Proof) (name : String) :
    addProof Proofs name [] = Proofs := by
  funext k; simp [addProof]

@[simp] theorem addProof_addProof (Proofs : String → Proof) (name : String) (p q : Proof) :
    addProof (addProof Proofs name p) name q = addProof Proofs name (p ++ q) := by
  funext k; by_cases h : k = name <;> simp [addProof, h]

/-- One turn of `SeparateProofs`' loops: the proof of a leaf position goes to `name` when the leaf
holds `root`. -/
def addIfHolds (root : Bytes) (name : String) (Proofs : String → Proof) (lp : Bytes × Proof) :
    String → Proof :=
  if bytesCompare root lp.1 = 0 then addProof Proofs name lp.2 else Proofs

/-- The proofs of the leaf positions that hold `root`, in order, concatenated. -/
def proofsAt (root : Bytes) (lps : List (Bytes × Proof)) : Proof :=
  (lps.filter fun lp => lp.1 = root).flatMap Prod.snd

theorem foldl_addIfHolds (root : Bytes) (name : String) (lps : List (Bytes × Proof))
    (Proofs : String → Proof) :
    lps.foldl (addIfHolds root name) Proofs = addProof Proofs name (proofsAt root lps) := by
  induction lps generalizing Proofs with
  | nil => simp [proofsAt]
  | cons lp lps ih =>
      by_cases h : lp.1 = root
      · simp [addIfHolds, ih, proofsAt, h, bytesCompare_eq_zero, List.filter_cons]
      · simp [addIfHolds, ih, proofsAt, h, bytesCompare_eq_zero, List.filter_cons, Ne.symm h]

/-- `copy(make([]string, n), src)`: the first `n` names, padded with empty names. -/
def copyNames (n : Nat) (src : List String) : List String :=
  src.take n ++ List.replicate (n - src.length) ""

/-- `sort.Sort(hashid.ByHashId(leaves))` for the byte order `bytes.Compare`; leaves that compare
equal are equal, so the result does not depend on the sorting algorithm. -/
def sortHashIds (leaves : List Bytes) : List Bytes :=
  leaves.insertionSort fun a b => bytesCompare a b ≤ 0

section Merkle

variable {S P : Type} [CommRing S] [AddCommGroup P] [Module S P] (suite : Suite S P)

/-- `SNLog.MarshalBinary`: `Suite.Write` of the secret and the two points, then the gob encoding
`gobEncode` of the concatenated roots. -/
def SNLog.marshalBinary (gobEncode : Bytes → Bytes) (snLog : SNLog S P) : Bytes :=
  suite.marshalSecret snLog.v ++ suite.marshal snLog.V ++ suite.marshal snLog.V_hat ++
    gobEncode snLog.CMTRoots

/-- `MerkleAddChildren`: the children's roots and their names, and the roots concatenated in the
log. -/
def CosiStruct.merkleAddChildren (cosi : CosiStruct S P) : CosiStruct S P :=
  { cosi with
    CMTRoots := cosi.Leaves
    CMTRootNames := copyNames cosi.Leaves.length cosi.LeavesFrom
    Log := { cosi.Log with CMTRoots := cosi.Leaves.flatten } }

/-- `MerkleAddLocal`. -/
def CosiStruct.merkleAddLocal (cosi : CosiStruct S P) (localMTroot : Bytes) : CosiStruct S P :=
  { cosi with LocalMTRoot := localMTroot, Leaves := cosi.Leaves ++ [localMTroot] }

/-- `MerkleHashLog`. -/
def CosiStruct.merkleHashLog (gobEncode : Bytes → Bytes) (cosi : CosiStruct S P) :
    CosiStruct S P :=
  { cosi with HashedLog := suite.hash (SNLog.marshalBinary suite gobEncode cosi.Log) }

/-- `SeparateProofs`. For each child root, every leaf position holding it adds its proof to the
child's: the inner loop's `continue` does not leave it. Then every position holding the local root
adds its proof to `"local"`. The names and the roots have one length, and so have `leaves` and
`proofs`. -/
def CosiStruct.separateProofs (cosi : CosiStruct S P) (proofs : List Proof)
    (leaves : List Bytes) : CosiStruct S P :=
  let Proofs := (cosi.CMTRoots.zip cosi.CMTRootNames).foldl (fun Proofs rn =>
    (leaves.zip proofs).foldl (addIfHolds rn.1 rn.2) Proofs) cosi.Proofs
  let Proofs := (leaves.zip proofs).foldl (addIfHolds cosi.LocalMTRoot "local") Proofs
  { cosi with Proofs := Proofs }

/-- `ComputeCombinedMerkleRoot`, with `proofTree` for `proof.ProofTree`: the leaves with the log's
hash, sorted; the tree over them; the root over that tree's root and the log's hash; every child's
proof and the local one start with the log's hash. -/
def CosiStruct.computeCombinedMerkleRoot
    (proofTree : (Bytes → Bytes) → List Bytes → Bytes × List Proof) (cosi : CosiStruct S P) :
    CosiStruct S P :=
  let leaves := sortHashIds (cosi.Leaves ++ [cosi.HashedLog])
  let (left, proofs) := proofTree suite.hash leaves
  let right := cosi.HashedLog
  let MTRoot := (proofTree suite.hash [left, right]).1
  let Proofs := cosi.Children.foldl (fun Proofs name => addProof Proofs name [right]) fun _ => []
  let Proofs := addProof Proofs "local" [right]
  CosiStruct.separateProofs { cosi with Leaves := leaves, MTRoot := MTRoot, Proofs := Proofs }
    proofs leaves

/-- The four steps of a round's Merkle tree, in the order the round calls them. -/
def CosiStruct.combinedMerkleTree (proofTree : (Bytes → Bytes) → List Bytes → Bytes × List Proof)
    (gobEncode : Bytes → Bytes) (cosi : CosiStruct S P) (localMTroot : Bytes) : CosiStruct S P :=
  ((cosi.merkleAddChildren.merkleAddLocal localMTroot).merkleHashLog suite gobEncode)
    |>.computeCombinedMerkleRoot suite proofTree

theorem foldl_separate (pairs : List (Bytes × String)) (lps : List (Bytes × Proof))
    (Proofs : String → Proof) (k : String) :
    (pairs.foldl (fun Proofs rn => addProof Proofs rn.2 (proofsAt rn.1 lps)) Proofs) k =
      Proofs k ++ (pairs.filter (·.2 = k)).flatMap fun rn => proofsAt rn.1 lps := by
  induction pairs generalizing Proofs with
  | nil => simp
  | cons rn pairs ih =>
      rw [List.foldl_cons, ih]
      by_cases h : rn.2 = k
      · simp [addProof, h, List.filter_cons]
      · simp [addProof, h, Ne.symm h, List.filter_cons]

theorem foldl_addProof_children (children : List String) (right : Bytes)
    (Proofs : String → Proof) (k : String) :
    (children.foldl (fun Proofs name => addProof Proofs name [right]) Proofs) k =
      Proofs k ++ List.replicate (children.count k) right := by
  induction children generalizing Proofs with
  | nil => simp
  | cons name children ih =>
      simp only [List.foldl_cons]
      rw [ih]
      by_cases h : k = name <;> simp [addProof, h, List.count_cons, List.replicate_succ]

/-- **The proofs `ComputeCombinedMerkleRoot` hands out.** A name receives the log's hash once for
each time it is a child and once more if it is `"local"`, then the proofs of every sorted leaf
position that holds a root it is paired with, then, for `"local"`, those of every position that
holds the local root. -/
theorem computeCombinedMerkleRoot_Proofs
    (proofTree : (Bytes → Bytes) → List Bytes → Bytes × List Proof) (cosi : CosiStruct S P)
    (k : String) :
    let leaves := sortHashIds (cosi.Leaves ++ [cosi.HashedLog])
    let lps := leaves.zip (proofTree suite.hash leaves).2
    (cosi.computeCombinedMerkleRoot suite proofTree).Proofs k =
      List.replicate (cosi.Children.count k) cosi.HashedLog ++
      (if k = "local" then [cosi.HashedLog] else []) ++
      ((cosi.CMTRoots.zip cosi.CMTRootNames).filter (·.2 = k)).flatMap
        (fun rn => proofsAt rn.1 lps) ++
      (if k = "local" then proofsAt cosi.LocalMTRoot lps else []) := by
  by_cases h : k = "local" <;>
    simp [CosiStruct.computeCombinedMerkleRoot, CosiStruct.separateProofs, foldl_addIfHolds,
      foldl_separate, foldl_addProof_children, addProof, h]

end Merkle

/-- One level up a Merkle tree: adjacent nodes are hashed in pairs, every leaf under the left one
taking the right one's hash into its proof and the other way round; an odd last node goes up
unchanged. -/
def pairUp (hash : Bytes → Bytes) : List (Bytes × List Proof) → List (Bytes × List Proof)
  | (a, pa) :: (b, pb) :: rest =>
      (hash (a ++ b), pa.map (· ++ [b]) ++ pb.map (· ++ [a])) :: pairUp hash rest
  | level => level

/-- Levels up until one node is left, within `fuel` levels. -/
def climb (hash : Bytes → Bytes) : Nat → List (Bytes × List Proof) → Bytes × List Proof
  | _, [] => ([], [])
  | _, [top] => top
  | 0, top :: _ => top
  | fuel + 1, level => climb hash fuel (pairUp hash level)

/-- Modelled from the spec: `proof.ProofTree` (`lib/proof`, missing) builds a binary Merkle tree
over the leaves and returns its root and one proof per leaf, the sibling hashes from the leaf up. -/
def proofTree (hash : Bytes → Bytes) (leaves : List Bytes) : Bytes × List Proof :=
  climb hash leaves.length (leaves.map fun l => (l, [[]]))

/-- A child `B` whose root equals the local root: both receive the log's hash and the proofs of
the two positions that hold that root, and neither is the log's hash followed by one proof of a
position that holds it. -/
theorem merkle_proofs_repeated :
    ∃ cosi, { newCosi toySuite toyNode 0 1 () with
        Children := ["B"], Leaves := [[200, 200]], LeavesFrom := ["B"] }.combinedMerkleTree
          toySuite proofTree id [200, 200] = cosi ∧
      cosi.Proofs "B" = [[5], [5], [200, 200], [3]] ∧ cosi.Proofs "local" = cosi.Proofs "B" ∧
      ¬ ∃ lp ∈ cosi.Leaves.zip (proofTree toySuite.hash cosi.Leaves).2,
        lp.1 = [200, 200] ∧ cosi.Proofs "B" = cosi.HashedLog :: lp.2 :=
  ⟨_, rfl, by decide⟩

end Cothority.Sign
