import Cothority.Sign.Messages

/-! Utilities of the signing node (`nodeutils.go`): the children of a new view, the `Default`
messages that stand for children that sent nothing, and the update of the highest vote seen. A Go
map is given by its keys in the order a `range` over it visits them, which is any order, so a
statement over every list of distinct keys covers every map and every visit. `updateLastSeenVote`
is run by concurrent calls, and is modelled at the granularity of its two atomic accesses. -/

namespace Cothority.Sign

/-- The runtime's panic text for `make` asked for a negative capacity. -/
def makesliceCap : String := "runtime error: makeslice: cap out of range"

section NewView

/-- `childrenForNewView`: the keys of `sn.Peers()` but `parent`. The slice is made with capacity
`len(peers) - 1`, which panics for an empty peer map. -/
def childrenForNewView (peers : List String) (parent : String) : Except String (List String) :=
  if (peers.length : Int) - 1 < 0 then .error makesliceCap
  else .ok (peers.foldl (fun children p => if p = parent then children else children ++ [p]) [])

theorem foldl_skipParent (parent : String) (peers acc : List String) :
    peers.foldl (fun children p => if p = parent then children else children ++ [p]) acc =
      acc ++ peers.filter (· ≠ parent) := by
  induction peers generalizing acc with
  | nil => simp
  | cons p peers ih => by_cases h : p = parent <;> simp [ih, h, List.filter_cons]

/-- For a peer map with at least one peer, the children are the peers but `parent`, each once. -/
theorem childrenForNewView_count {peers : List String} (parent : String) (hpeers : peers.Nodup)
    (hne : peers ≠ []) :
    ∃ children, childrenForNewView peers parent = .ok children ∧
      ∀ p, children.count p = if p ∈ peers ∧ p ≠ parent then 1 else 0 := by
  have hlen : ¬((peers.length : Int) - 1 < 0) := by
    have := List.length_pos.mpr hne
    omega
  refine ⟨_, by rw [childrenForNewView, if_neg hlen, foldl_skipParent, List.nil_append], fun p => ?_⟩
  rw [List.count_eq_of_nodup (hpeers.filter _)]
  simp

theorem childrenForNewView_count_three :
    ["A", "B", "C"].Nodup ∧ ["A", "B", "C"] ≠ [] ∧
    ∃ children, childrenForNewView ["A", "B", "C"] "A" = .ok children ∧
      ∀ p, children.count p = if p ∈ ["A", "B", "C"] ∧ p ≠ "A" then 1 else 0 :=
  ⟨by decide, by decide, childrenForNewView_count "A" (by decide) (by decide)⟩

/-- A node with no peers: `childrenForNewView` panics, whatever the parent. -/
theorem childrenForNewView_no_peers (parent : String) :
    childrenForNewView [] parent = .error "runtime error: makeslice: cap out of range" :=
  rfl

end NewView

section Defaults

/-- The `Default` message added for the child `c`, its other fields at their zero value. -/
def defaultMessage (suiteName : String) (view : Nat) (c : String) : SigningMessage :=
  { Suite := suiteName, Type' := .default, From := c, To := "", ViewNbr := view, LastSeenVote := 0,
    RoundNbr := 0 }

/-- `FillInWithDefaultMessages`: after the messages, one `Default` message for each child of the
view, the keys of `sn.Children(view)`, that is the sender of none of them. `suiteName` is
`sn.Suite().String()`. -/
def fillInWithDefaultMessages (suiteName : String) (children : List String) (view : Nat)
    (messgs : List SigningMessage) : List SigningMessage :=
  children.foldl (fun allmessgs c =>
    if messgs.any (·.From == c) then allmessgs
    else allmessgs ++ [defaultMessage suiteName view c]) messgs

/-- The children that sent none of the messages. -/
def silentChildren (children : List String) (messgs : List SigningMessage) : List String :=
  children.filter fun c => !messgs.any (·.From == c)

theorem foldl_fillIn (suiteName : String) (view : Nat) (messgs : List SigningMessage)
    (children : List String) (acc : List SigningMessage) :
    children.foldl (fun allmessgs c =>
      if messgs.any (·.From == c) then allmessgs
      else allmessgs ++ [defaultMessage suiteName view c]) acc =
      acc ++ (silentChildren children messgs).map (defaultMessage suiteName view) := by
  induction children generalizing acc with
  | nil => simp [silentChildren]
  | cons c children ih =>
      rw [List.foldl_cons, ih]
      by_cases h : messgs.any (·.From == c) <;> simp [h, silentChildren, List.filter_cons]

theorem mem_silentChildren {children : List String} {messgs : List SigningMessage} {c : String} :
    c ∈ silentChildren children messgs ↔ c ∈ children ∧ ∀ m ∈ messgs, m.From ≠ c := by
  simp [silentChildren]

/-- **The default messages.** For every children map and every message list: the messages come
first, unchanged, then messages of type `Default`, of the suite and the view and with their other
fields at zero, exactly one from each child that sent none of the messages and none from anybody
else; so every child of the view is the sender of a message of the result. -/
theorem fillInWithDefaultMessages_spec (suiteName : String) {children : List String} (view : Nat)
    (messgs : List SigningMessage) (hC : children.Nodup) :
    ∃ defaults, fillInWithDefaultMessages suiteName children view messgs = messgs ++ defaults ∧
      (∀ m ∈ defaults, m.Suite = suiteName ∧ m.Type' = .default ∧ m.ViewNbr = view ∧
        m.To = "" ∧ m.LastSeenVote = 0 ∧ m.RoundNbr = 0) ∧
      (∀ c, defaults.countP (·.From == c) =
        if c ∈ children ∧ ∀ m ∈ messgs, m.From ≠ c then 1 else 0) ∧
      ∀ c ∈ children, ∃ m ∈ fillInWithDefaultMessages suiteName children view messgs,
        m.From = c := by
  have hres := foldl_fillIn suiteName view messgs children messgs
  refine ⟨_, hres, by simp [defaultMessage], fun c => ?_, fun c hc => ?_⟩
  · have hcount : ((silentChildren children messgs).map (defaultMessage suiteName view)).countP
        (·.From == c) = (silentChildren children messgs).count c := by
      simp [List.countP_map, List.count, Function.comp_def, defaultMessage]
    have hnodup : (silentChildren children messgs).Nodup := hC.filter _
    simp only [hcount, List.count_eq_of_nodup hnodup, mem_silentChildren]
  · rw [fillInWithDefaultMessages, hres]
    by_cases hsent : ∃ m ∈ messgs, m.From = c
    · obtain ⟨m, hm, hfrom⟩ := hsent
      exact ⟨m, List.mem_append_left _ hm, hfrom⟩
    · refine ⟨defaultMessage suiteName view c, List.mem_append_right _ ?_, rfl⟩
      exact List.mem_map_of_mem _ (mem_silentChildren.mpr ⟨hc, fun m hm h => hsent ⟨m, hm, h⟩⟩)

theorem fillInWithDefaultMessages_spec_commitment :
    ["B", "C"].Nodup ∧
    ∃ defaults, fillInWithDefaultMessages "Ed25519" ["B", "C"] 1
        [⟨"Ed25519", .commitment, "B", "A", 1, 0, 0⟩] =
        [⟨"Ed25519", .commitment, "B", "A", 1, 0, 0⟩] ++ defaults ∧
      (∀ m ∈ defaults, m.Suite = "Ed25519" ∧ m.Type' = .default ∧ m.ViewNbr = 1 ∧
        m.To = "" ∧ m.LastSeenVote = 0 ∧ m.RoundNbr = 0) ∧
      (∀ c, defaults.countP (·.From == c) =
        if c ∈ ["B", "C"] ∧ ∀ m ∈ [(⟨"Ed25519", .commitment, "B", "A", 1, 0, 0⟩ : SigningMessage)],
          m.From ≠ c then 1 else 0) ∧
      ∀ c ∈ ["B", "C"], ∃ m ∈ fillInWithDefaultMessages "Ed25519" ["B", "C"] 1
        [⟨"Ed25519", .commitment, "B", "A", 1, 0, 0⟩], m.From = c :=
  ⟨by decide, fillInWithDefaultMessages_spec "Ed25519" 1 _ (by decide)⟩

end Defaults

section LastSeenVote

/-- Where a call of `updateLastSeenVote(hv, from)` is: before its atomic load, between a load
that found a value below `hv` and its atomic store, or returned. (`from` is not read.) -/
inductive VotePhase where
  | load
  | store
  | returned
  deriving DecidableEq, Repr

/-- The node's `LastSeenVote` and the calls running on it, each with its `hv` and its phase. -/
structure VoteState where
  LastSeenVote : Int
  calls : List (Int × VotePhase)
  deriving DecidableEq, Repr

/-- An atomic access: the load or the store of the `k`-th call. -/
inductive VoteEvent where
  | load (k : Nat)
  | store (k : Nat)
  deriving DecidableEq, Repr

/-- The calls `hvs`, none started yet, on the value `v`. -/
def voteStart (v : Int) (hvs : List Int) : VoteState :=
  ⟨v, hvs.map (·, .load)⟩

/-- One atomic access; `none` when the call is not at it. The load compares the value it read with
`hv` (the comparison reads nothing shared); the store writes `hv`, whatever the value is then. -/
def voteStep (s : VoteState) : VoteEvent → Option VoteState
  | .load k =>
      match s.calls[k]? with
      | some (hv, .load) =>
          some { s with calls := s.calls.set k (hv, if s.LastSeenVote < hv then .store else .returned) }
      | _ => none
  | .store k =>
      match s.calls[k]? with
      | some (hv, .store) => some ⟨hv, s.calls.set k (hv, .returned)⟩
      | _ => none

/-- An interleaving of the accesses, `none` if one of them is not enabled. -/
def voteRun (s : VoteState) (es : List VoteEvent) : Option VoteState :=
  es.foldlM voteStep s

theorem voteStep_cases {s s' : VoteState} {e : VoteEvent} (h : voteStep s e = some s') :
    (∃ k hv, s.calls[k]? = some (hv, .load) ∧ s' = { s with
      calls := s.calls.set k (hv, if s.LastSeenVote < hv then .store else .returned) }) ∨
    (∃ k hv, s.calls[k]? = some (hv, .store) ∧ s' = ⟨hv, s.calls.set k (hv, .returned)⟩) := by
  cases e with
  | load k =>
      simp only [voteStep] at h
      split at h <;> cases h
      exact .inl ⟨k, _, ‹_›, rfl⟩
  | store k =>
      simp only [voteStep] at h
      split at h <;> cases h
      exact .inr ⟨k, _, ‹_›, rfl⟩

/-- What every interleaving keeps: the calls and their votes, a value that is the initial one or
one of the votes, never below the initial one, and only votes above it waiting to be stored. -/
def VoteInv (v : Int) (hvs : List Int) (s : VoteState) : Prop :=
  s.calls.map Prod.fst = hvs ∧ s.LastSeenVote ∈ v :: hvs ∧ v ≤ s.LastSeenVote ∧
    ∀ c ∈ s.calls, c.2 = .store → v < c.1

theorem set_eq_self_of_getElem? {α : Type} {l : List α} {k : Nat} {a : α} (h : l[k]? = some a) :
    l.set k a = l := by
  induction l generalizing k with
  | nil => simp at h
  | cons x l ih => cases k <;> simp_all

theorem map_fst_set_phase {calls : List (Int × VotePhase)} {k : Nat} {hv : Int}
    {p p' : VotePhase} (hk : calls[k]? = some (hv, p)) :
    (calls.set k (hv, p')).map Prod.fst = calls.map Prod.fst := by
  rw [List.map_set]
  exact set_eq_self_of_getElem? (by simp [hk])

theorem voteInv_start (v : Int) (hvs : List Int) : VoteInv v hvs (voteStart v hvs) := by
  refine ⟨by simp [voteStart, Function.comp_def], by simp [voteStart], le_refl v, ?_⟩
  simp [voteStart]

theorem voteInv_step {v : Int} {hvs : List Int} {s s' : VoteState} {e : VoteEvent}
    (hinv : VoteInv v hvs s) (h : voteStep s e = some s') : VoteInv v hvs s' := by
  obtain ⟨hcalls, hmem, hle, hstore⟩ := hinv
  rcases voteStep_cases h with ⟨k, hv, hk, rfl⟩ | ⟨k, hv, hk, rfl⟩
  · refine ⟨(map_fst_set_phase hk).trans hcalls, hmem, hle, fun c hc hc2 => ?_⟩
    rcases List.mem_or_eq_of_mem_set hc with hc | rfl
    · exact hstore c hc hc2
    · split_ifs at hc2 with hlt
      exact lt_of_le_of_lt hle hlt
  · have hin : (hv, VotePhase.store) ∈ s.calls := List.getElem?_mem hk
    refine ⟨(map_fst_set_phase hk).trans hcalls, ?_, (hstore _ hin rfl).le, fun c hc hc2 => ?_⟩
    · rw [← hcalls]
      exact List.mem_cons_of_mem _ (List.mem_map_of_mem _ hin)
    · rcases List.mem_or_eq_of_mem_set hc with hc | rfl
      · exact hstore c hc hc2
      · cases hc2

theorem voteInv_foldlM {v : Int} {hvs : List Int} :
    ∀ {es : List VoteEvent} {s₀ s : VoteState}, VoteInv v hvs s₀ →
      es.foldlM voteStep s₀ = some s → VoteInv v hvs s
  | [], _, _, h₀, hs => by cases hs; exact h₀
  | e :: es, s₀, s, h₀, hs => by
      simp only [List.foldlM_cons, Option.bind_eq_bind] at hs
      obtain ⟨s₁, hstep, hs⟩ := Option.bind_eq_some.mp hs
      exact voteInv_foldlM (voteInv_step h₀ hstep) hs

/-- **In every interleaving** of the calls, `LastSeenVote` is its initial value or one of the
votes, and never below its initial value. -/
theorem voteRun_inv {v : Int} {hvs : List Int} {es : List VoteEvent} {s : VoteState}
    (h : voteRun (voteStart v hvs) es = some s) : VoteInv v hvs s :=
  voteInv_foldlM (voteInv_start v hvs) h

theorem voteRun_inv_five_ten :
    ∃ s, voteRun (voteStart 0 [5, 10]) [.load 0, .load 1, .store 1, .store 0] = some s ∧
      VoteInv 0 [5, 10] s :=
  ⟨_, rfl, @voteRun_inv 0 [5, 10] [.load 0, .load 1, .store 1, .store 0] _ rfl⟩

theorem voteRun_append (s : VoteState) (es es' : List VoteEvent) :
    voteRun s (es ++ es') = (voteRun s es).bind fun s => voteRun s es' := by
  simp only [voteRun, List.foldlM_append, Option.bind_eq_bind]

/-- The calls one after another, none overlapping the next: the `k`-th call's load, then its
store if `stores k`. -/
def serialEvents (stores : Nat → Bool) : Nat → List VoteEvent
  | 0 => []
  | k + 1 => serialEvents stores k ++ if stores k then [.load k, .store k] else [.load k]

theorem voteRun_block {s s' : VoteState} {k : Nat} {hv : Int} {st : Bool}
    (hk : s.calls[k]? = some (hv, .load))
    (h : voteRun s (if st then [.load k, .store k] else [.load k]) = some s') :
    (∀ j, j ≠ k → s'.calls[j]? = s.calls[j]?) ∧
      ∃ p, s'.calls[k]? = some (hv, p) ∧ (p = .returned → s'.LastSeenVote = max s.LastSeenVote hv) := by
  have hlen : k < s.calls.length := (List.getElem?_eq_some_iff.mp hk).1
  by_cases hlt : s.LastSeenVote < hv
  · cases st
    · simp only [voteRun, voteStep, hk, hlt, if_true, Bool.false_eq_true, if_false,
        List.foldlM_cons, List.foldlM_nil, Option.bind_eq_bind, Option.some_bind] at h
      cases h
      exact ⟨fun j hj => List.getElem?_set_ne (Ne.symm hj), _,
        List.getElem?_set_self hlen, fun hp => by cases hp⟩
    · simp only [voteRun, voteStep, hk, hlt, if_true, List.foldlM_cons, List.foldlM_nil,
        Option.bind_eq_bind, Option.some_bind, List.getElem?_set_self hlen, List.set_set] at h
      cases h
      exact ⟨fun j hj => List.getElem?_set_ne (Ne.symm hj), _, List.getElem?_set_self hlen,
        fun _ => (max_eq_right hlt.le).symm⟩
  · cases st
    · simp only [voteRun, voteStep, hk, hlt, if_false, Bool.false_eq_true, List.foldlM_cons,
        List.foldlM_nil, Option.bind_eq_bind, Option.some_bind] at h
      cases h
      exact ⟨fun j hj => List.getElem?_set_ne (Ne.symm hj), _, List.getElem?_set_self hlen,
        fun _ => (max_eq_left (not_lt.mp hlt)).symm⟩
    · simp [voteRun, voteStep, hk, hlt, List.getElem?_set_self hlen] at h

theorem voteRun_serialEvents {v : Int} {hvs : List Int} {stores : Nat → Bool} :
    ∀ {k : Nat} {s : VoteState}, k ≤ hvs.length →
      voteRun (voteStart v hvs) (serialEvents stores k) = some s →
      (∀ j, k ≤ j → s.calls[j]? = (voteStart v hvs).calls[j]?) ∧
      ((∀ j < k, ∀ c, s.calls[j]? = some c → c.2 = .returned) →
        s.LastSeenVote = (hvs.take k).foldl max v)
  | 0, s, _, h => by
      cases h
      exact ⟨fun _ _ => rfl, fun _ => rfl⟩
  | k + 1, s, hk, h => by
      rw [serialEvents, voteRun_append] at h
      obtain ⟨s₀, hrun, hblock⟩ := Option.bind_eq_some.mp h
      obtain ⟨hlater, hmax⟩ := voteRun_serialEvents (by omega) hrun
      have hkth : s₀.calls[k]? = some (hvs[k], .load) := by
        rw [hlater k le_rfl]
        simp [voteStart, List.getElem?_eq_getElem (show k < hvs.length by omega)]
      obtain ⟨hframe, p, hp, hret⟩ := voteRun_block hkth hblock
      refine ⟨fun j hj => (hframe j (by omega)).trans (hlater j (by omega)), fun hdone => ?_⟩
      have hprev : ∀ j < k, ∀ c, s₀.calls[j]? = some c → c.2 = .returned := fun j hj c hc =>
        hdone j (by omega) c ((hframe j (by omega)).trans hc)
      have hk' : k < hvs.length := by omega
      rw [hret (hdone k (Nat.lt_succ_self k) _ hp), hmax hprev, List.take_succ,
        List.getElem?_eq_getElem hk', Option.toList_some, List.foldl_append, List.foldl_cons,
        List.foldl_nil]

/-- **Calls that do not overlap lose no update.** In every schedule in which each call of
`updateLastSeenVote` makes its load, and its store if it makes one, before the next call starts,
`LastSeenVote` ends, once every call returned, at the largest of its initial value and the votes. -/
theorem voteRun_serial_max {v : Int} {hvs : List Int} {stores : Nat → Bool} {s : VoteState}
    (h : voteRun (voteStart v hvs) (serialEvents stores hvs.length) = some s)
    (hdone : ∀ c ∈ s.calls, c.2 = .returned) : s.LastSeenVote = hvs.foldl max v := by
  have := (voteRun_serialEvents le_rfl h).2 fun j _ c hc => hdone c (List.getElem?_mem hc)
  rwa [List.take_length] at this

theorem voteRun_serial_max_five_ten :
    ∃ s, voteRun (voteStart 0 [5, 10]) (serialEvents (fun _ => true) [5, 10].length) = some s ∧
      (∀ c ∈ s.calls, c.2 = .returned) ∧ s.LastSeenVote = [5, 10].foldl max 0 :=
  ⟨_, rfl, by decide, @voteRun_serial_max 0 [5, 10] (fun _ => true) _ rfl (by decide)⟩

/-- Two calls with votes `a < b` above the value `v`: both load `v`, the call of `b` stores
first, then the call of `a` stores `a`. `LastSeenVote` goes down, and with every call returned it
is not the highest vote. -/
theorem updateLastSeenVote_lost_update (v a b : Int) (ha : v < a) (hab : a < b) :
    ∃ s s', voteRun (voteStart v [a, b]) [.load 0, .load 1, .store 1] = some s ∧
      voteStep s (.store 0) = some s' ∧ s'.LastSeenVote < s.LastSeenVote ∧
      (∀ c ∈ s'.calls, c.2 = .returned) ∧ s'.LastSeenVote ≠ max v (max a b) := by
  have hb : v < b := ha.trans hab
  refine ⟨⟨b, [(a, .store), (b, .returned)]⟩, ⟨a, [(a, .returned), (b, .returned)]⟩,
    ?_, rfl, hab, by simp, ?_⟩
  · simp [voteRun, voteStart, voteStep, ha, hb]
  · rw [max_eq_right hab.le, max_eq_right hb.le]
    exact hab.ne

theorem updateLastSeenVote_lost_update_five_ten :
    (0 : Int) < 5 ∧ (5 : Int) < 10 ∧
    ∃ s s', voteRun (voteStart 0 [5, 10]) [.load 0, .load 1, .store 1] = some s ∧
      voteStep s (.store 0) = some s' ∧ s'.LastSeenVote < s.LastSeenVote ∧
      (∀ c ∈ s'.calls, c.2 = .returned) ∧ s'.LastSeenVote ≠ max 0 (max 5 10) :=
  ⟨by decide, by decide, updateLastSeenVote_lost_update 0 5 10 (by decide) (by decide)⟩

end LastSeenVote

end Cothority.Sign
