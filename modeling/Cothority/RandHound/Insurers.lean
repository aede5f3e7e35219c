import Cothority.Suite

/-! The choice of insurers in RandHound, `chooseInsurers` (`protocols/randhound/utils.go`). The
leader reads `Uint64`s from a cipher seeded with `Rc ++ Rs` and keeps each index of a node of the
tree it has not kept yet and that is not the root, until it has `N` of them. The cipher's output
is a parameter, any stream of `Uint64`s, and the loop, which need not end, is run with fuel. A
call that can panic returns `Except String`, with the runtime's panic text. -/

namespace Cothority.RandHound

/-- The runtime's panic text for `make` asked for a negative length. -/
def makesliceLen : String := "runtime error: makeslice: len out of range"

/-- The runtime's panic text for `%` by zero. -/
def divideByZero : String := "runtime error: integer divide by zero"

/-- The runtime's panic text for an index past the end of a slice. -/
def indexOutOfRange : String := "runtime error: index out of range"

/-- A node of the tree as `ListNodes` lists it: whether it is the root, and its entity's key. -/
structure TreeNode (P : Type) where
  isRoot : Bool
  public : P
  deriving DecidableEq

/-- The variables of the loop: the indices of the map `set`, in the order they were added,
`insurers`, `keys`, `j`, and how many `Uint64`s were read from the cipher. -/
structure Choice (P : Type) where
  set : List Nat
  insurers : List (Option P)
  keys : List Int
  j : Nat
  drawn : Nat
  deriving DecidableEq

section Choose

variable {P : Type} (tns : List (TreeNode P)) (prng : Nat → UInt64)

/-- One turn of the loop: draw an index; keep it if it is new and not the root's. -/
def chooseStep (st : Choice P) : Except String (Choice P) :=
  if tns.length = 0 then .error divideByZero else
  let i := (prng st.drawn).toNat % tns.length
  let st := { st with drawn := st.drawn + 1 }
  if i ∉ st.set ∧ tns[i]?.any (!·.isRoot) = true then
    if st.j < st.keys.length ∧ st.j < st.insurers.length then
      .ok { st with
        set := st.set ++ [i]
        keys := st.keys.set st.j (i - 1)
        insurers := st.insurers.set st.j (tns[i]?.map (·.public))
        j := st.j + 1 }
    else .error indexOutOfRange
  else .ok st

/-- The loop `for len(set) < N`, within `fuel` turns; `none` when it has not ended by then. -/
def chooseLoop (N : Nat) : Nat → Choice P → Option (Except String (Choice P))
  | 0, _ => none
  | fuel + 1, st =>
      if st.set.length < N then
        match chooseStep tns prng st with
        | .error e => some (.error e)
        | .ok st => chooseLoop N fuel st
      else some (.ok st)

/-- `chooseInsurers`, `prng` being the `Uint64`s the cipher seeded with `Rc ++ Rs` gives: the keys
and the insurers, or a panic, or `none` when the loop has not ended within `fuel` turns. -/
def chooseInsurers (N : Int) (fuel : Nat) :
    Option (Except String (List Int × List (Option P))) :=
  if N < 0 then some (.error makesliceLen) else
  (chooseLoop tns prng N.toNat fuel
      ⟨[], List.replicate N.toNat none, List.replicate N.toNat 0, 0, 0⟩).map
    fun r => r.map fun st => (st.keys, st.insurers)

/-- What every turn keeps: distinct kept indices, each of a node that is not the root, at most `N`
of them, `j` counting them, and `keys` and `insurers` holding, in order, each one's index less one
and key, then their zero values. -/
def ChoiceInv (N : Nat) (st : Choice P) : Prop :=
  st.set.Nodup ∧ st.set.length ≤ N ∧ st.j = st.set.length ∧
    (∀ i ∈ st.set, ∃ tn, tns[i]? = some tn ∧ tn.isRoot = false) ∧
    st.keys = st.set.map (fun i : Nat => (i - 1 : Int)) ++ List.replicate (N - st.set.length) 0 ∧
    st.insurers = st.set.map (fun i => tns[i]?.map (·.public)) ++
      List.replicate (N - st.set.length) none

theorem set_append_replicate {α : Type} (l : List α) (n k : Nat) (a b : α) (hk : k = l.length) :
    (l ++ List.replicate (n + 1) a).set k b = l ++ b :: List.replicate n a := by
  rw [hk, List.set_append_right _ _ (le_refl _), Nat.sub_self, List.replicate_succ,
    List.set_cons_zero]

theorem choiceInv_start (N : Nat) :
    ChoiceInv tns N ⟨[], List.replicate N none, List.replicate N 0, 0, 0⟩ := by
  simp [ChoiceInv]

theorem chooseStep_inv {N : Nat} {st st' : Choice P} (hinv : ChoiceInv tns N st)
    (hlt : st.set.length < N) (h : chooseStep tns prng st = .ok st') : ChoiceInv tns N st' := by
  obtain ⟨hnodup, -, hj, hnode, hkeys, hins⟩ := hinv
  obtain ⟨n, hn⟩ : ∃ n, N - st.set.length = n + 1 := ⟨N - st.set.length - 1, by omega⟩
  have hn' : N - (st.set.length + 1) = n := by omega
  simp only [chooseStep] at h
  split_ifs at h with hlen hnew hidx <;> cases h
  · set i := (prng st.drawn).toNat % tns.length
    have hi : i < tns.length := Nat.mod_lt _ (Nat.pos_of_ne_zero hlen)
    simp only [List.getElem?_eq_getElem hi, Option.any_some, Bool.not_eq_true'] at hnew
    refine ⟨hnodup.append (List.nodup_singleton i) (by simpa using hnew.1), by simp; omega,
      by simp [hj], fun k hk => ?_, ?_, ?_⟩
    · rcases List.mem_append.mp hk with hk | hk
      · exact hnode k hk
      · rw [List.mem_singleton.mp hk]
        exact ⟨tns[i], List.getElem?_eq_getElem hi, hnew.2⟩
    · simp only [hkeys, hn, hn', List.length_append, List.length_singleton, List.map_append,
        List.map_singleton, List.append_assoc, List.singleton_append]
      exact set_append_replicate _ _ _ _ _ (by simp [hj])
    · simp only [hins, hn, hn', List.length_append, List.length_singleton, List.map_append,
        List.map_singleton, List.append_assoc, List.singleton_append]
      exact set_append_replicate _ _ _ _ _ (by simp [hj])
  · exact ⟨hnodup, hlt.le, hj, hnode, hkeys, hins⟩

theorem chooseLoop_inv {N : Nat} :
    ∀ {fuel : Nat} {st st' : Choice P}, ChoiceInv tns N st →
      chooseLoop tns prng N fuel st = some (.ok st') → ChoiceInv tns N st' ∧ st'.set.length = N
  | 0, _, _, _, h => by cases h
  | fuel + 1, st, st', hinv, h => by
      simp only [chooseLoop] at h
      split_ifs at h with hlt
      · split at h
        · cases h
        · exact chooseLoop_inv (chooseStep_inv tns prng hinv hlt ‹_›) h
      · cases h
        exact ⟨hinv, le_antisymm hinv.2.1 (not_lt.mp hlt)⟩

/-- **The insurers.** For every tree listed with its root first and no other root, every `N`,
every output of the cipher: if `chooseInsurers` returns, `keys` has `N` distinct entries, each
between `0` and `len(tns) - 2`, and `insurers[j]` is the key of the node `keys[j] + 1`; so the
leader is never chosen and no node twice. -/
theorem chooseInsurers_spec (N : Int) (fuel : Nat)
    (hroot : ∀ i (hi : i < tns.length), tns[i].isRoot = true ↔ i = 0)
    {keys : List Int} {insurers : List (Option P)}
    (h : chooseInsurers tns prng N fuel = some (.ok (keys, insurers))) :
    (keys.length : Int) = N ∧ keys.Nodup ∧ (∀ k ∈ keys, 0 ≤ k ∧ k ≤ tns.length - 2) ∧
      insurers.length = keys.length ∧
      ∀ j (hj : j < keys.length), ∃ tn, tns[(keys[j] + 1).toNat]? = some tn ∧
        insurers[j]? = some (some tn.public) := by
  simp only [chooseInsurers] at h
  split_ifs at h with hN
  · cases h
  obtain ⟨r, hloop, hr⟩ := Option.map_eq_some'.mp h
  cases r with
  | error e => cases hr
  | ok st =>
    simp only [Except.map, Except.ok.injEq, Prod.mk.injEq] at hr
    obtain ⟨rfl, rfl⟩ := hr
    obtain ⟨⟨hnodup, -, -, hnode, hkeys, hins⟩, hlen⟩ :=
      chooseLoop_inv tns prng (choiceInv_start tns N.toNat) hloop
    have hpos : ∀ i ∈ st.set, 1 ≤ i ∧ i < tns.length := by
      intro i hi
      obtain ⟨tn, htn, hnr⟩ := hnode i hi
      obtain ⟨hlt, rfl⟩ := List.getElem?_eq_some_iff.mp htn
      exact ⟨Nat.one_le_iff_ne_zero.mpr fun h0 => by simp [(hroot i hlt).mpr h0] at hnr, hlt⟩
    rw [hlen, Nat.sub_self, List.replicate_zero, List.append_nil] at hkeys hins
    simp only [hkeys, hins]
    refine ⟨by simp [hlen]; omega, ?_, ?_, by simp, fun j hj => ?_⟩
    · exact hnodup.map_on fun a ha b hb hab => by have := hpos a ha; have := hpos b hb; omega
    · simp only [List.mem_map]
      rintro k ⟨i, hi, rfl⟩
      have := hpos i hi
      omega
    · simp only [List.length_map] at hj
      have hi := hpos _ (List.getElem_mem hj)
      obtain ⟨tn, htn, -⟩ := hnode _ (List.getElem_mem hj)
      refine ⟨tn, ?_, ?_⟩
      · simp only [List.getElem_map]
        rw [show ((st.set[j] : Int) - 1 + 1).toNat = st.set[j] by omega, htn]
      · simp [List.getElem?_eq_getElem hj, htn]

end Choose

theorem chooseInsurers_spec_three :
    (∀ i (hi : i < ([⟨true, 10⟩, ⟨false, 11⟩, ⟨false, 12⟩] : List (TreeNode Nat)).length),
      ([⟨true, 10⟩, ⟨false, 11⟩, ⟨false, 12⟩] : List (TreeNode Nat))[i].isRoot = true ↔ i = 0) ∧
    chooseInsurers [⟨true, 10⟩, ⟨false, 11⟩, ⟨false, 12⟩] (fun k => k.toUInt64) 2 4 =
      some (.ok ([0, 1], [some 11, some 12])) ∧
    ((([0, 1] : List Int).length : Int) = 2 ∧ ([0, 1] : List Int).Nodup ∧
      (∀ k ∈ ([0, 1] : List Int),
        0 ≤ k ∧ k ≤ ([⟨true, 10⟩, ⟨false, 11⟩, ⟨false, 12⟩] : List (TreeNode Nat)).length - 2) ∧
      [some 11, some 12].length = ([0, 1] : List Int).length ∧
      ∀ j (hj : j < ([0, 1] : List Int).length), ∃ tn,
        ([⟨true, 10⟩, ⟨false, 11⟩, ⟨false, 12⟩] : List (TreeNode Nat))[(([0, 1] : List Int)[j] +
          1).toNat]? = some tn ∧ [some 11, some 12][j]? = some (some tn.public)) :=
  ⟨by decide, rfl, chooseInsurers_spec _ (fun k => k.toUInt64) 2 4 (by decide) rfl⟩

end Cothority.RandHound
