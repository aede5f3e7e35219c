import Mathlib.Tactic.Common

/-! The round loop of a conode peer, `Peer.LoopRounds`, as a state machine over the events around
its `select`: the ticker firing into `ticker.C`, the loop receiving a tick, a value on
`CloseChan`, `Node.ChangeView` switching `ViewNo`, and the node finishing a round, which moves
`LastRound()` on outside the loop. `ticker.C` holds one tick; the ticker drops a tick when the slot
is full, and `ticker.Stop()` does not empty it (Go's timers before 1.23). The branch of a tick that
finds the round budget spent receives the tick and calls `ticker.Stop()` in two steps, so the
ticker can fire in between. The ticker is created running and stopped at the start for a peer that
is not root of its view, and only on a spent budget afterwards; no branch starts it again. -/

namespace Cothority.Conode

/-- Where the loop is: running, returned after `CloseChan`, or ended by `dbg.Fatal` when the
round type has no constructor. -/
inductive Status where
  | running
  | returned
  | fatal
  deriving DecidableEq, Repr

/-- The peer state `LoopRounds` reads and writes: its local `firstRound`, whether `ticker` runs,
whether `ticker.C` holds a tick, whether the loop is between a tick that found the budget spent
and its `ticker.Stop()`, and how many times it called `SendCloseAll`. -/
structure LoopState where
  ViewNo : Nat
  lastRound : Int
  firstRound : Int
  ticking : Bool
  tickPending : Bool
  stopping : Bool
  closeAllSent : Nat
  status : Status
  deriving DecidableEq, Repr

/-- What happens next around the loop. -/
inductive Event where
  /-- `ChangeView` sets `ViewNo`; the role it then sends on `ViewChangeCh` is only logged. -/
  | viewChange (view : Nat)
  /-- The `select` receives from `CloseChan`. -/
  | close
  /-- The ticker fires into `ticker.C`. -/
  | fire
  /-- The `select` receives from `ticker.C`. -/
  | tick
  /-- A tick that found the budget spent calls `ticker.Stop()`, then `SendCloseAll` at the root. -/
  | stop
  /-- The node's last round moves on to `round`; modelled from the spec: round numbers grow. -/
  | roundDone (round : Int)
  deriving DecidableEq, Repr

section Loop

variable (isRoot : Nat → Bool) (rounds : Int) (roundTypeKnown : Bool)

/-- The start of `LoopRounds` in view `view` with the node at round `lastRound`. -/
def loopStart (view : Nat) (lastRound : Int) : LoopState :=
  ⟨view, lastRound, lastRound, isRoot view, false, false, 0, .running⟩

/-- The round budget is spent: `roundNbr >= rounds && rounds >= 0`. -/
def Exhausted (s : LoopState) : Prop := s.lastRound - s.firstRound ≥ rounds ∧ rounds ≥ 0

instance decidableExhausted (s : LoopState) : Decidable (Exhausted rounds s) :=
  inferInstanceAs (Decidable (_ ∧ _))

/-- The loop is in its `select`. -/
def Selecting (s : LoopState) : Prop := s.status = .running ∧ s.stopping = false

instance decidableSelecting (s : LoopState) : Decidable (Selecting s) :=
  inferInstanceAs (Decidable (_ ∧ _))

/-- One step, `none` when the event cannot happen. A running ticker fills `ticker.C`, or drops the
tick when it is full. A tick with the budget spent goes on to `ticker.Stop()`; otherwise the root
starts an announcement, or stops on `dbg.Fatal` when `NewRoundFromType` fails, and a regular peer
does nothing. -/
def step (s : LoopState) : Event → Option LoopState
  | .viewChange view => some { s with ViewNo := view }
  | .close => if Selecting s then some { s with status := .returned } else none
  | .fire => if s.ticking then some { s with tickPending := true } else none
  | .tick =>
      if Selecting s ∧ s.tickPending then
        if Exhausted rounds s then some { s with tickPending := false, stopping := true }
        else if isRoot s.ViewNo ∧ ¬roundTypeKnown then
          some { s with tickPending := false, status := .fatal }
        else some { s with tickPending := false }
      else none
  | .stop =>
      if s.stopping then
        some { s with
          ticking := false
          stopping := false
          closeAllSent := s.closeAllSent + if isRoot s.ViewNo then 1 else 0 }
      else none
  | .roundDone round => if s.lastRound ≤ round then some { s with lastRound := round } else none

/-- The step starts a round: the loop receives a tick with budget left at the root of the current
view. -/
def StartsAnnouncement (s : LoopState) (e : Event) : Prop :=
  e = .tick ∧ Selecting s ∧ s.tickPending = true ∧ ¬Exhausted rounds s ∧
    isRoot s.ViewNo = true ∧ roundTypeKnown = true

/-- The states of the loop started in view `view` at round `lastRound`. -/
inductive Reachable (view : Nat) (lastRound : Int) : LoopState → Prop where
  | start : Reachable view lastRound (loopStart isRoot view lastRound)
  | step {s s' : LoopState} {e : Event} :
      Reachable view lastRound s → step isRoot rounds roundTypeKnown s e = some s' →
        Reachable view lastRound s'

theorem step_cases {s s' : LoopState} {e : Event}
    (h : step isRoot rounds roundTypeKnown s e = some s') :
    (∃ view, s' = { s with ViewNo := view }) ∨ s' = { s with status := .returned } ∨
    (s.ticking = true ∧ s' = { s with tickPending := true }) ∨
    (s.stopping = false ∧ s.tickPending = true ∧ Exhausted rounds s ∧
      s' = { s with tickPending := false, stopping := true }) ∨
    (s.stopping = false ∧ s.tickPending = true ∧
      s' = { s with tickPending := false, status := .fatal }) ∨
    (s.stopping = false ∧ s.tickPending = true ∧ s' = { s with tickPending := false }) ∨
    (s.stopping = true ∧ s' = { s with
      ticking := false
      stopping := false
      closeAllSent := s.closeAllSent + if isRoot s.ViewNo then 1 else 0 }) ∨
    (∃ round, s.lastRound ≤ round ∧ s' = { s with lastRound := round }) := by
  cases e with
  | viewChange view => cases h; exact .inl ⟨view, rfl⟩
  | close => simp only [step] at h; split_ifs at h; cases h; exact .inr (.inl rfl)
  | fire =>
      simp only [step] at h; split_ifs at h with ht; cases h; exact .inr (.inr (.inl ⟨ht, rfl⟩))
  | tick =>
      simp only [step] at h
      split_ifs at h with hsel hex <;> cases h
      · exact .inr (.inr (.inr (.inl ⟨hsel.1.2, hsel.2, hex, rfl⟩)))
      · exact .inr (.inr (.inr (.inr (.inl ⟨hsel.1.2, hsel.2, rfl⟩))))
      · exact .inr (.inr (.inr (.inr (.inr (.inl ⟨hsel.1.2, hsel.2, rfl⟩)))))
  | stop =>
      by_cases hs : s.stopping = true
      · rw [step, if_pos hs] at h
        exact .inr (.inr (.inr (.inr (.inr (.inr (.inl ⟨hs, (Option.some.inj h).symm⟩))))))
      · rw [step, if_neg hs] at h
        cases h
  | roundDone round =>
      simp only [step] at h; split_ifs at h with hr; cases h
      exact .inr (.inr (.inr (.inr (.inr (.inr (.inr ⟨round, hr, rfl⟩))))))

theorem exhausted_of_le {s : LoopState} {round : Int} (hex : Exhausted rounds s)
    (hle : s.lastRound ≤ round) : Exhausted rounds { s with lastRound := round } := by
  simp only [Exhausted] at hex ⊢
  omega

/-- The ticker only ever stops: it runs, and `ticker.C` holds a tick, only for a peer that was root
when the loop started, and for such a peer it is stopped only once the budget is spent. -/
structure TickerInv (view : Nat) (lastRound : Int) (s : LoopState) : Prop where
  first_round : s.firstRound = lastRound
  ticking_root : s.ticking = true → isRoot view = true
  pending_root : s.tickPending = true → isRoot view = true
  stopping_exhausted : s.stopping = true → Exhausted rounds s
  stopped_exhausted : isRoot view = true → s.ticking = false → Exhausted rounds s

theorem tickerInv_step {view : Nat} {lastRound : Int} {s s' : LoopState} {e : Event}
    (hinv : TickerInv isRoot rounds view lastRound s)
    (h : step isRoot rounds roundTypeKnown s e = some s') :
    TickerInv isRoot rounds view lastRound s' := by
  obtain ⟨hfirst, htick, hpend, hstopping, hstopped⟩ := hinv
  rcases step_cases isRoot rounds roundTypeKnown h with
    ⟨_, rfl⟩ | rfl | ⟨ht, rfl⟩ | ⟨-, -, hex, rfl⟩ | ⟨-, -, rfl⟩ | ⟨-, -, rfl⟩ | ⟨hs, rfl⟩ |
      ⟨round, hle, rfl⟩
  · exact ⟨hfirst, htick, hpend, hstopping, hstopped⟩
  · exact ⟨hfirst, htick, hpend, hstopping, hstopped⟩
  · exact ⟨hfirst, htick, fun _ => htick ht, hstopping, hstopped⟩
  · exact ⟨hfirst, htick, by simp, fun _ => hex, hstopped⟩
  · exact ⟨hfirst, htick, by simp, hstopping, hstopped⟩
  · exact ⟨hfirst, htick, by simp, hstopping, hstopped⟩
  · exact ⟨hfirst, by simp, hpend, by simp, fun _ _ => hstopping hs⟩
  · exact ⟨hfirst, htick, hpend, fun hs => exhausted_of_le rounds (hstopping hs) hle,
      fun hr hoff => exhausted_of_le rounds (hstopped hr hoff) hle⟩

theorem Reachable.tickerInv {view : Nat} {lastRound : Int} {s : LoopState}
    (h : Reachable isRoot rounds roundTypeKnown view lastRound s) :
    TickerInv isRoot rounds view lastRound s := by
  induction h with
  | start =>
      exact ⟨rfl, id, fun h => by simp [loopStart] at h, fun h => by simp [loopStart] at h,
        fun hroot hoff => by simp [loopStart, hroot] at hoff⟩
  | step _ hs ih => exact tickerInv_step isRoot rounds roundTypeKnown ih hs

/-- **Only a peer that was root at the start ever starts a round.** In every run, whatever view
changes it went through, a peer that was not root of its view when `LoopRounds` started never
starts an announcement: its ticker was stopped and nothing starts it again. -/
theorem startsAnnouncement_root_at_start {view : Nat} {lastRound : Int} {s : LoopState}
    {e : Event} (h : Reachable isRoot rounds roundTypeKnown view lastRound s)
    (hstart : StartsAnnouncement isRoot rounds roundTypeKnown s e) : isRoot view = true :=
  (h.tickerInv isRoot rounds roundTypeKnown).pending_root hstart.2.2.1

/-- A peer that was root at the start keeps its ticker until the budget is spent, through any
view change. -/
theorem ticking_of_root_at_start {view : Nat} {lastRound : Int} {s : LoopState}
    (h : Reachable isRoot rounds roundTypeKnown view lastRound s) (hroot : isRoot view = true)
    (hleft : ¬Exhausted rounds s) : s.ticking = true := by
  by_contra hoff
  exact hleft ((h.tickerInv isRoot rounds roundTypeKnown).stopped_exhausted hroot
    (by simpa using hoff))

end Loop

theorem startsAnnouncement_root_at_start_viewChange :
    Reachable (· ≤ 1) 1 true 0 0 ⟨1, 0, 0, true, true, false, 0, .running⟩ ∧
      StartsAnnouncement (· ≤ 1) 1 true ⟨1, 0, 0, true, true, false, 0, .running⟩ .tick ∧
      decide (0 ≤ 1) = true :=
  ⟨.step (.step .start (e := .viewChange 1) rfl) (e := .fire) rfl,
    ⟨rfl, ⟨rfl, rfl⟩, rfl, by decide, rfl, rfl⟩,
    @startsAnnouncement_root_at_start (· ≤ 1) 1 true 0 0 _ _
      (.step (.step .start (e := .viewChange 1) rfl) (e := .fire) rfl)
      ⟨rfl, ⟨rfl, rfl⟩, rfl, by decide, rfl, rfl⟩⟩

theorem ticking_of_root_at_start_viewChange :
    Reachable (· == 0) 1 true 0 0 ⟨1, 0, 0, true, false, false, 0, .running⟩ ∧ (0 == 0) = true ∧
      ¬Exhausted 1 ⟨1, 0, 0, true, false, false, 0, .running⟩ ∧
      (⟨1, 0, 0, true, false, false, 0, .running⟩ : LoopState).ticking = true :=
  ⟨.step .start (e := .viewChange 1) rfl, rfl, by decide,
    @ticking_of_root_at_start (· == 0) 1 true 0 0 ⟨1, 0, 0, true, false, false, 0, .running⟩
      (.step .start (e := .viewChange 1) rfl) rfl (by decide)⟩

/-- A peer that is root of view `1` only, started in view `0` with no round budget, after the view
change to `1`: it is root, the budget is not spent and the ticker does not run. -/
theorem root_by_viewChange_not_ticking :
    ∃ s, step (· == 1) (-1) true (loopStart (· == 1) 0 0) (.viewChange 1) = some s ∧
      Reachable (· == 1) (-1) true 0 0 s ∧ s.status = .running ∧ s.ViewNo = 1 ∧
      ¬Exhausted (-1) s ∧ s.ticking = false :=
  ⟨_, rfl, .step .start (e := .viewChange 1) rfl, rfl, rfl, by decide, rfl⟩

end Cothority.Conode
