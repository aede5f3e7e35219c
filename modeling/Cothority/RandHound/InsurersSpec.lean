import Cothority.RandHound.Insurers

/-! What `chooseInsurers` computes, said without its loop. The `k`-th `Uint64` of the cipher draws
the index `drawIndex k`, and the draw is kept when its node is not the root and no earlier draw gave
the same index. The spec `insurersSpec` looks for the first number of draws that keeps `N` indices
and answers with their keys. The loop's variables after `d` draws are `choiceOf N d`, so one turn of
the loop is one draw of the spec, and `chooseInsurers` computes the spec exactly, apart from its two
panics. When the loop ends, and when it never does, is then read off the spec. -/

namespace Cothority.RandHound

section Spec

variable {P : Type} (tns : List (TreeNode P)) (prng : Nat → UInt64)

/-- The index of the node the `k`-th `Uint64` of the cipher draws. -/
def drawIndex (k : Nat) : Nat := (prng k).toNat % tns.length

/-- The index is that of a node of the tree that is not the root. -/
def eligible (i : Nat) : Bool := tns[i]?.any (!·.isRoot)

/-- The `k`-th draw is kept: its node is not the root, and no earlier draw gave its index. -/
def keptDraw (k : Nat) : Bool :=
  eligible tns (drawIndex tns prng k) &&
    (List.range k).all fun k' => drawIndex tns prng k' != drawIndex tns prng k

/-- The indices the first `d` draws keep, in the order they were drawn. -/
def keptWithin (d : Nat) : List Nat :=
  ((List.range d).filter (keptDraw tns prng)).map (drawIndex tns prng)

/-- **The spec of `chooseInsurers`.** The first number of draws below `fuel` that keeps `N`
indices, and for each index kept then, in order, the index less one and its node's key; `none`
when no number of draws below `fuel` keeps `N`. -/
def insurersSpec (N fuel : Nat) : Option (List Int × List (Option P)) :=
  ((List.range fuel).find? fun d => N ≤ (keptWithin tns prng d).length).map fun d =>
    ((keptWithin tns prng d).map fun i : Nat => (i - 1 : Int),
      (keptWithin tns prng d).map fun i => tns[i]?.map (·.public))

/-- The cipher giving `2, 3, 4, ...` on a root and two nodes draws `2`, then the root, then `1`: the
insurers are the nodes `2` and `1`, in the order of their first draw. -/
example : insurersSpec [⟨true, 10⟩, ⟨false, 11⟩, ⟨false, 12⟩] (fun k => (k + 2).toUInt64) 2 5 =
    some ([1, 0], [some 12, some 11]) := by
  decide

theorem keptWithin_succ (d : Nat) :
    keptWithin tns prng (d + 1) =
      keptWithin tns prng d ++ if keptDraw tns prng d then [drawIndex tns prng d] else [] := by
  rw [keptWithin, List.range_succ, List.filter_append, List.map_append, List.filter_singleton]
  cases keptDraw tns prng d <;> rfl

theorem mem_keptWithin {d i : Nat} :
    i ∈ keptWithin tns prng d ↔ eligible tns i = true ∧ ∃ k < d, drawIndex tns prng k = i := by
  simp only [keptWithin, List.mem_map, List.mem_filter, List.mem_range]
  constructor
  · rintro ⟨k, ⟨hk, hkept⟩, rfl⟩
    exact ⟨(Bool.and_eq_true _ _ ▸ hkept).1, k, hk, rfl⟩
  · rintro ⟨he, k, hk, hki⟩
    have hdrawn : ∃ k, drawIndex tns prng k = i := ⟨k, hki⟩
    refine ⟨Nat.find hdrawn, ⟨(Nat.find_min' hdrawn hki).trans_lt hk, ?_⟩, Nat.find_spec hdrawn⟩
    simp only [keptDraw, Nat.find_spec hdrawn, he, Bool.true_and, List.all_eq_true,
      List.mem_range, bne_iff_ne, ne_eq]
    exact fun k' hk' => Nat.find_min hdrawn hk'

theorem keptDraw_iff (d : Nat) :
    keptDraw tns prng d = true ↔
      drawIndex tns prng d ∉ keptWithin tns prng d ∧ eligible tns (drawIndex tns prng d) = true := by
  rw [mem_keptWithin]
  simp only [keptDraw, Bool.and_eq_true, List.all_eq_true, List.mem_range, bne_iff_ne, ne_eq]
  constructor
  · exact fun ⟨he, hnew⟩ => ⟨fun ⟨_, k, hk, hki⟩ => hnew k hk hki, he⟩
  · exact fun ⟨hnew, he⟩ => ⟨he, fun k hk hki => hnew ⟨he, k, hk, hki⟩⟩

theorem nodup_keptWithin (d : Nat) : (keptWithin tns prng d).Nodup := by
  induction d with
  | zero => simp [keptWithin]
  | succ d ih =>
      rw [keptWithin_succ]
      split_ifs with hkept
      · exact ih.append (List.nodup_singleton _)
          (List.disjoint_singleton.mpr ((keptDraw_iff tns prng d).mp hkept).1)
      · simpa using ih

theorem length_filter_eligible :
    ((List.range tns.length).filter (eligible tns)).length = tns.countP (!·.isRoot) := by
  induction tns with
  | nil => rfl
  | cons tn tns ih =>
      have hsucc : eligible (tn :: tns) ∘ Nat.succ = eligible tns := by
        funext i
        simp [eligible]
      rw [List.length_cons, List.range_succ_eq_map, List.filter_cons, List.filter_map, hsucc,
        List.countP_cons, ← ih]
      cases h : tn.isRoot <;> simp [eligible, h]

theorem mem_filter_eligible {i : Nat} :
    i ∈ (List.range tns.length).filter (eligible tns) ↔ eligible tns i = true := by
  simp only [List.mem_filter, List.mem_range, and_iff_right_iff_imp]
  intro he
  by_contra hlen
  simp [eligible, List.getElem?_eq_none_iff.mpr (not_lt.mp hlen)] at he

theorem length_keptWithin_le (d : Nat) :
    (keptWithin tns prng d).length ≤ tns.countP (!·.isRoot) := by
  rw [← length_filter_eligible]
  exact ((nodup_keptWithin tns prng d).subperm fun i hi =>
    (mem_filter_eligible tns).mpr ((mem_keptWithin tns prng).mp hi).1).length_le

theorem countP_le_length_keptWithin {F : Nat}
    (hcover : ∀ i < tns.length, ∃ k < F, drawIndex tns prng k = i) :
    tns.countP (!·.isRoot) ≤ (keptWithin tns prng F).length := by
  rw [← length_filter_eligible]
  refine ((List.nodup_range _).filter _ |>.subperm fun i hi => ?_).length_le
  obtain ⟨hlt, he⟩ := List.mem_filter.mp hi
  exact (mem_keptWithin tns prng).mpr ⟨he, hcover i (List.mem_range.mp hlt)⟩

/-- The loop's variables after `d` draws: the indices kept, their keys and their positions less
one, each followed by zero values up to `N`, how many were kept, and `d`. -/
def choiceOf (N d : Nat) : Choice P :=
  ⟨keptWithin tns prng d,
    (keptWithin tns prng d).map (fun i => tns[i]?.map (·.public)) ++
      List.replicate (N - (keptWithin tns prng d).length) none,
    (keptWithin tns prng d).map (fun i : Nat => (i - 1 : Int)) ++
      List.replicate (N - (keptWithin tns prng d).length) 0,
    (keptWithin tns prng d).length, d⟩

@[simp] theorem choiceOf_set (N d : Nat) : (choiceOf tns prng N d).set = keptWithin tns prng d :=
  rfl

theorem choiceOf_zero (N : Nat) :
    choiceOf tns prng N 0 = ⟨[], List.replicate N none, List.replicate N 0, 0, 0⟩ := by
  simp [choiceOf, keptWithin]

theorem chooseStep_choiceOf {N d : Nat} (hne : tns ≠ [])
    (hlt : (keptWithin tns prng d).length < N) :
    chooseStep tns prng (choiceOf tns prng N d) = .ok (choiceOf tns prng N (d + 1)) := by
  have hlen : tns.length ≠ 0 := fun h => hne (List.length_eq_zero.mp h)
  obtain ⟨n, hn⟩ : ∃ n, N - (keptWithin tns prng d).length = n + 1 :=
    ⟨N - (keptWithin tns prng d).length - 1, by omega⟩
  have hstep := keptWithin_succ tns prng d
  by_cases hkept : keptDraw tns prng d = true
  · obtain ⟨hnew, he⟩ := (keptDraw_iff tns prng d).mp hkept
    have hn' : N - ((keptWithin tns prng d).length + 1) = n := by omega
    simp only [hkept, if_true] at hstep
    simp only [chooseStep, hlen, if_false]
    rw [if_pos ⟨hnew, he⟩, if_pos (by simp [choiceOf]; omega)]
    simp only [choiceOf, hstep, hn, hn', List.length_append, List.length_singleton,
      List.map_append, List.map_singleton, List.append_assoc, List.singleton_append,
      set_append_replicate _ _ _ _ _ (List.length_map _ _).symm]
    rfl
  · have hskip : ¬(drawIndex tns prng d ∉ keptWithin tns prng d ∧
        eligible tns (drawIndex tns prng d) = true) := fun h => hkept ((keptDraw_iff tns prng d).mpr h)
    simp only [hkept, Bool.false_eq_true, if_false, List.append_nil] at hstep
    simp only [chooseStep, hlen, if_false]
    split_ifs with hc
    · exact absurd hc hskip
    · exact absurd hc hskip
    · simp only [choiceOf, hstep]

theorem chooseLoop_choiceOf {N : Nat} (hne : 0 < N → tns ≠ []) :
    ∀ fuel d, chooseLoop tns prng N fuel (choiceOf tns prng N d) =
      ((List.range' d fuel).find? fun d => N ≤ (keptWithin tns prng d).length).map
        fun d => .ok (choiceOf tns prng N d)
  | 0, _ => rfl
  | fuel + 1, d => by
      rw [chooseLoop, List.range'_succ, List.find?_cons, choiceOf_set]
      by_cases hlt : (keptWithin tns prng d).length < N
      · rw [if_pos hlt, chooseStep_choiceOf tns prng (hne (by omega)) hlt]
        simp only [chooseLoop_choiceOf hne fuel (d + 1), decide_eq_false (Nat.not_le.mpr hlt)]
      · rw [if_neg hlt]
        simp [decide_eq_true (Nat.le_of_not_lt hlt)]

theorem choiceOf_keys_insurers {N d : Nat} (hN : N ≤ (keptWithin tns prng d).length) :
    ((choiceOf tns prng N d).keys, (choiceOf tns prng N d).insurers) =
      ((keptWithin tns prng d).map fun i : Nat => (i - 1 : Int),
        (keptWithin tns prng d).map fun i => tns[i]?.map (·.public)) := by
  simp [choiceOf, Nat.sub_eq_zero_of_le hN]

theorem chooseInsurers_of_nonneg {N : Int} (hN : 0 ≤ N) (fuel : Nat) :
    chooseInsurers tns prng N fuel =
      (chooseLoop tns prng N.toNat fuel (choiceOf tns prng N.toNat 0)).map
        fun r => r.map fun st => (st.keys, st.insurers) := by
  rw [chooseInsurers, if_neg (not_lt.mpr hN), choiceOf_zero]

/-- **What `chooseInsurers` computes.** The panics for a negative `N` and for an empty tree, and
otherwise the first `N` distinct non-root nodes the cipher draws, or nothing while fuel runs short. -/
theorem chooseInsurers_eq_insurersSpec (N : Int) (fuel : Nat) :
    chooseInsurers tns prng N fuel =
      if N < 0 then some (.error makesliceLen)
      else if tns.length = 0 ∧ 0 < N ∧ 0 < fuel then some (.error divideByZero)
      else (insurersSpec tns prng N.toNat fuel).map .ok := by
  by_cases hneg : N < 0
  · simp [chooseInsurers, hneg]
  rw [if_neg hneg]
  split_ifs with hempty
  · obtain ⟨hlen, hpos, hfuel⟩ := hempty
    obtain ⟨fuel, rfl⟩ : ∃ f, fuel = f + 1 := ⟨fuel - 1, by omega⟩
    simp [chooseInsurers, hneg, chooseLoop, chooseStep, hpos, hlen, Except.map]
  · rw [chooseInsurers_of_nonneg tns prng (not_lt.mp hneg)]
    rcases Nat.eq_zero_or_pos fuel with rfl | hfuel
    · rfl
    · have hne : 0 < N.toNat → tns ≠ [] := fun hpos htns => hempty ⟨by simp [htns], by omega, hfuel⟩
      rw [chooseLoop_choiceOf tns prng hne, insurersSpec, List.range_eq_range']
      cases hfind : (List.range' 0 fuel).find? fun d => N.toNat ≤ (keptWithin tns prng d).length with
      | none => rfl
      | some d =>
          have hd := List.find?_some hfind
          simp only [Option.map_some', Except.map]
          rw [choiceOf_keys_insurers tns prng (of_decide_eq_true hd)]

/-- **Asking for more insurers than there are nodes to choose from.** When fewer nodes than `N` are
not the root, `chooseInsurers` gives no result, for every output of the cipher and every fuel: its
loop never ends. -/
theorem chooseInsurers_none_of_few {N : Int} (hfew : (tns.countP (!·.isRoot) : Int) < N)
    (hne : tns ≠ []) (fuel : Nat) : chooseInsurers tns prng N fuel = none := by
  rw [chooseInsurers_of_nonneg tns prng (by omega), chooseLoop_choiceOf tns prng fun _ => hne,
    List.find?_eq_none.mpr]
  · rfl
  · intro d _ hd
    have := length_keptWithin_le tns prng d
    simp only [decide_eq_true_eq] at hd
    omega

/-- **When `chooseInsurers` ends.** If the first `F` draws of the cipher give every index of the
tree, and at least `N ≥ 0` nodes are not the root, `chooseInsurers` returns with every fuel above
`F`, whatever the cipher draws afterwards. -/
theorem chooseInsurers_returns {N : Int} {F : Nat} (hN : 0 ≤ N)
    (henough : N ≤ tns.countP (!·.isRoot))
    (hcover : ∀ i < tns.length, ∃ k < F, drawIndex tns prng k = i) {fuel : Nat} (hfuel : F < fuel) :
    ∃ keys insurers, chooseInsurers tns prng N fuel = some (.ok (keys, insurers)) := by
  have hne : 0 < N.toNat → tns ≠ [] := fun hpos htns => by
    subst htns
    simp only [List.countP_nil, Nat.cast_zero] at henough
    omega
  have hkeep := countP_le_length_keptWithin tns prng hcover
  obtain ⟨d, hfind⟩ := Option.isSome_iff_exists.mp (List.find?_isSome.mpr
    ⟨F, List.mem_range'_1.mpr ⟨Nat.zero_le F, by omega⟩, decide_eq_true (by omega)⟩ :
      ((List.range' 0 fuel).find? fun d => N.toNat ≤ (keptWithin tns prng d).length).isSome)
  rw [chooseInsurers_of_nonneg tns prng hN, chooseLoop_choiceOf tns prng hne, hfind]
  exact ⟨_, _, rfl⟩

end Spec

theorem chooseInsurers_returns_three :
    (0 : Int) ≤ 2 ∧ (2 : Int) ≤ ([⟨true, 10⟩, ⟨false, 11⟩, ⟨false, 12⟩] : List (TreeNode Nat)).countP
      (!·.isRoot) ∧
    (∀ i < ([⟨true, 10⟩, ⟨false, 11⟩, ⟨false, 12⟩] : List (TreeNode Nat)).length, ∃ k < 3,
      drawIndex [⟨true, 10⟩, ⟨false, 11⟩, ⟨false, 12⟩] (fun k => k.toUInt64) k = i) ∧ 3 < 4 ∧
    ∃ keys insurers, chooseInsurers [⟨true, 10⟩, ⟨false, 11⟩, ⟨false, 12⟩] (fun k => k.toUInt64)
      2 4 = some (.ok (keys, insurers)) :=
  ⟨by decide, by decide, by decide, by decide,
    chooseInsurers_returns _ (fun k => k.toUInt64) (F := 3) (by decide) (by decide) (by decide)
      (by decide)⟩

theorem chooseInsurers_none_of_few_two :
    ((([⟨true, 10⟩, ⟨false, 11⟩] : List (TreeNode Nat)).countP (!·.isRoot) : Nat) : Int) < 2 ∧
    ([⟨true, 10⟩, ⟨false, 11⟩] : List (TreeNode Nat)) ≠ [] ∧
    chooseInsurers [⟨true, 10⟩, ⟨false, 11⟩] (fun k => k.toUInt64) 2 5 = none :=
  ⟨by decide, by decide, chooseInsurers_none_of_few _ (fun k => k.toUInt64) (by decide) (by decide) 5⟩

end Cothority.RandHound
