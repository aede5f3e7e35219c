import Cothority.Sign.Merkle

/-! The order `ComputeCombinedMerkleRoot` sorts its leaves in. `bytes.Compare` is a total order on
byte strings, leaves that compare equal being equal, so `sort.Sort(hashid.ByHashId(leaves))` has
one result for every arrangement of the same leaves, whatever the sorting algorithm. Nothing else
`ComputeCombinedMerkleRoot` reads depends on where a leaf stands in `Leaves`: the combined tree is
a function of the children's roots as a multiset. -/

namespace Cothority

theorem bytesCompare_cons (x y : UInt8) (xs ys : Bytes) :
    bytesCompare (x :: xs) (y :: ys) =
      if x.toNat < y.toNat then -1 else if y.toNat < x.toNat then 1 else bytesCompare xs ys := rfl

theorem bytesCompare_swap (a b : Bytes) : bytesCompare b a = -bytesCompare a b := by
  induction a generalizing b with
  | nil => cases b <;> rfl
  | cons x xs ih =>
      cases b with
      | nil => rfl
      | cons y ys =>
          rw [bytesCompare_cons, bytesCompare_cons, ih]
          split_ifs <;> omega

theorem bytesCompare_trans {a b c : Bytes} (hab : bytesCompare a b ≤ 0)
    (hbc : bytesCompare b c ≤ 0) : bytesCompare a c ≤ 0 := by
  induction a generalizing b c with
  | nil => cases c <;> simp [bytesCompare]
  | cons x xs ih =>
      cases b with
      | nil => simp [bytesCompare] at hab
      | cons y ys =>
          cases c with
          | nil => simp [bytesCompare] at hbc
          | cons z zs =>
              rw [bytesCompare_cons] at hab hbc ⊢
              split_ifs at hab hbc ⊢ <;> first | omega | exact ih hab hbc

instance : IsTotal Bytes fun a b => bytesCompare a b ≤ 0 :=
  ⟨fun a b => by rw [bytesCompare_swap a b]; omega⟩

instance : IsTrans Bytes fun a b => bytesCompare a b ≤ 0 :=
  ⟨fun _ _ _ => bytesCompare_trans⟩

instance : IsAntisymm Bytes fun a b => bytesCompare a b ≤ 0 :=
  ⟨fun a b hab hba => bytesCompare_eq_zero.mp (by rw [bytesCompare_swap a b] at hba; omega)⟩

namespace Sign

theorem sortHashIds_perm (leaves : List Bytes) : (sortHashIds leaves).Perm leaves :=
  List.perm_insertionSort _ leaves

theorem sortHashIds_sorted (leaves : List Bytes) :
    (sortHashIds leaves).Sorted fun a b => bytesCompare a b ≤ 0 :=
  List.sorted_insertionSort _ leaves

theorem sortHashIds_eq_of_perm {l₁ l₂ : List Bytes} (h : l₁.Perm l₂) :
    sortHashIds l₁ = sortHashIds l₂ :=
  List.eq_of_perm_of_sorted ((sortHashIds_perm l₁).trans (h.trans (sortHashIds_perm l₂).symm))
    (sortHashIds_sorted l₁) (sortHashIds_sorted l₂)

set_option linter.unusedSectionVars false

section Order

variable {S P : Type} [CommRing S] [AddCommGroup P] [Module S P] (suite : Suite S P)
  (proofTree : (Bytes → Bytes) → List Bytes → Bytes × List Proof)

theorem computeCombinedMerkleRoot_Leaves (cosi : CosiStruct S P) :
    (cosi.computeCombinedMerkleRoot suite proofTree).Leaves =
      sortHashIds (cosi.Leaves ++ [cosi.HashedLog]) := rfl

/-- **The combined tree does not depend on the order of the leaves.** For every state and every
rearrangement of its leaves, `ComputeCombinedMerkleRoot` computes the same state: the same
sorted leaves, root and proofs. Its leaves are those it was given with the log's hash, in
`bytes.Compare` order. -/
theorem computeCombinedMerkleRoot_perm_leaves (cosi : CosiStruct S P) {leaves : List Bytes}
    (hperm : leaves.Perm cosi.Leaves) :
    { cosi with Leaves := leaves }.computeCombinedMerkleRoot suite proofTree =
        cosi.computeCombinedMerkleRoot suite proofTree ∧
      (cosi.computeCombinedMerkleRoot suite proofTree).Leaves.Sorted
        (fun a b => bytesCompare a b ≤ 0) ∧
      (cosi.computeCombinedMerkleRoot suite proofTree).Leaves.Perm
        (cosi.Leaves ++ [cosi.HashedLog]) := by
  have hsort : sortHashIds (leaves ++ [cosi.HashedLog]) =
      sortHashIds (cosi.Leaves ++ [cosi.HashedLog]) :=
    sortHashIds_eq_of_perm (hperm.append_right _)
  refine ⟨?_, ?_, ?_⟩
  · simp only [CosiStruct.computeCombinedMerkleRoot, hsort]
  · rw [computeCombinedMerkleRoot_Leaves]
    exact sortHashIds_sorted _
  · rw [computeCombinedMerkleRoot_Leaves]
    exact sortHashIds_perm _

end Order

theorem computeCombinedMerkleRoot_perm_leaves_swapped :
    [[200, 200], [5]].Perm [[5], [200, 200]] ∧
      ({ newCosi toySuite toyNode 0 1 () with Leaves := [[200, 200], [5]] } :
          CosiStruct (ZMod 11) (ZMod 11)).computeCombinedMerkleRoot toySuite proofTree =
        ({ newCosi toySuite toyNode 0 1 () with Leaves := [[5], [200, 200]] } :
          CosiStruct (ZMod 11) (ZMod 11)).computeCombinedMerkleRoot toySuite proofTree ∧
      (({ newCosi toySuite toyNode 0 1 () with Leaves := [[5], [200, 200]] } :
          CosiStruct (ZMod 11) (ZMod 11)).computeCombinedMerkleRoot toySuite proofTree).Leaves.Sorted
        (fun a b => bytesCompare a b ≤ 0) ∧
      (({ newCosi toySuite toyNode 0 1 () with Leaves := [[5], [200, 200]] } :
          CosiStruct (ZMod 11) (ZMod 11)).computeCombinedMerkleRoot toySuite proofTree).Leaves.Perm
        ([[5], [200, 200]] ++
          [(newCosi toySuite toyNode 0 1 () : CosiStruct (ZMod 11) (ZMod 11)).HashedLog]) :=
  ⟨List.Perm.swap _ _ _, computeCombinedMerkleRoot_perm_leaves toySuite proofTree
    { newCosi toySuite toyNode 0 1 () with Leaves := [[5], [200, 200]] } (List.Perm.swap _ _ _)⟩

end Sign

end Cothority
