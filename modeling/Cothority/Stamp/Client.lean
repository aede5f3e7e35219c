import Cothority.Suite

/-! A client of the timestamp service (`app/stamp/client_funcs.go`): one `TimeStamp(val, server)`
call, interleaved with what the connection's goroutine does, the replies `handleServer` hands to
`ProcessStampSignature` and the failure that sends `io.EOF` on every done channel, and with the
expiry of the call's timeout. Each event is one critical section of the code or one channel
operation. A done channel holds the values sent on it and not yet received, the buffered one and
those of blocked senders, in order. The model lets replies and the failure come at any time, also
after the connection's goroutine returned or while it would be blocked on a send to a channel
that is not there; so it has every run of the code, and the run that refutes the call's guarantee
uses none of them. -/

namespace Cothority.Stamp

/-- The text of `io.EOF`. -/
def eofText : String := "EOF"

/-- Where the `TimeStamp` call is. -/
inductive CallPc where
  | start
  | putting (myReqno : Nat)
  | waiting (myReqno : Nat)
  | returned (err : Option String)
  deriving DecidableEq, Repr

/-- The `Client` fields the call and the connection's goroutine read and write: the done channels
by request number, `history` by request number (the Merkle root of the reply), and the call. -/
structure ClientState where
  Error : Option String
  reqno : Nat
  doneChan : Nat → Option (List (Option String))
  history : Nat → Option Bytes
  nRounds : Nat
  curMerkle : Bytes
  call : CallPc

/-- `NewClient`, before the call. -/
def newClient : ClientState :=
  ⟨none, 0, fun _ => none, fun _ => none, 0, [], .start⟩

/-- What can happen next. -/
inductive StampEvent where
  /-- `TimeStamp` checks `Error`, takes a request number and makes its done channel. -/
  | begin
  /-- `PutToServer` returns `result`, and `TimeStamp` looks its done channel up. -/
  | put (result : Option String)
  /-- The `select` receives from the done channel. -/
  | receive
  /-- The `select` takes `time.After(10 * sign.ROUND_TIME)`. -/
  | timeout
  /-- A `StampSignature` reply with `ReqNo` and `Srep.MerkleRoot`, through `handleResponse`. -/
  | reply (reqNo : Nat) (merkleRoot : Bytes)
  /-- `handleServer` fails: `io.EOF` on every done channel, and `Error`. -/
  | eof
  deriving DecidableEq, Repr

/-- `ProcessStampSignature`: the reply in `history`, a new round when its root is new, and `nil`
sent on the done channel of its request number, if there is one. -/
def processStampSignature (s : ClientState) (reqNo : Nat) (merkleRoot : Bytes) : ClientState :=
  let s := { s with history := Function.update s.history reqNo (some merkleRoot) }
  let s := if bytesCompare merkleRoot s.curMerkle ≠ 0 then
    { s with curMerkle := merkleRoot, nRounds := s.nRounds + 1 } else s
  { s with doneChan := Function.update s.doneChan reqNo ((s.doneChan reqNo).map (· ++ [none])) }

/-- One event; `none` when it cannot happen. After a `nil` from the channel, and after the
timeout, `TimeStamp` deletes its channel and returns `err`, which is still the `nil` of
`PutToServer`: the timeout's error is commented out. -/
def stampStep (s : ClientState) : StampEvent → Option ClientState
  | .begin =>
      match s.call, s.Error with
      | .start, some e => some { s with call := .returned (some e) }
      | .start, none =>
          some { s with
            reqno := s.reqno + 1
            doneChan := Function.update s.doneChan (s.reqno + 1) (some [])
            call := .putting (s.reqno + 1) }
      | _, _ => none
  | .put result =>
      match s.call, result with
      | .putting _, some e => some { s with call := .returned (some e) }
      | .putting m, none => some { s with call := .waiting m }
      | _, _ => none
  | .receive =>
      match s.call with
      | .waiting m =>
          match s.doneChan m with
          | some (some e :: q) =>
              some { s with doneChan := Function.update s.doneChan m (some q), call := .returned (some e) }
          | some (none :: _) =>
              some { s with doneChan := Function.update s.doneChan m none, call := .returned none }
          | _ => none
      | _ => none
  | .timeout =>
      match s.call with
      | .waiting m =>
          some { s with doneChan := Function.update s.doneChan m none, call := .returned none }
      | _ => none
  | .reply reqNo merkleRoot => some (processStampSignature s reqNo merkleRoot)
  | .eof =>
      some { s with
        Error := some eofText
        doneChan := fun k => (s.doneChan k).map (· ++ [some eofText]) }

/-- A run of events, `none` if one cannot happen. -/
def stampRun (s : ClientState) (es : List StampEvent) : Option ClientState :=
  es.foldlM stampStep s

/-- A `nil` waits on a done channel only for a request number whose reply was processed. -/
def NilsReplied (s : ClientState) : Prop :=
  ∀ k q, s.doneChan k = some q → none ∈ q → (s.history k).isSome

theorem nilsReplied_newClient : NilsReplied newClient := by
  intro k q h
  cases h

theorem processStampSignature_history (s : ClientState) (reqNo : Nat) (merkleRoot : Bytes) :
    (processStampSignature s reqNo merkleRoot).history =
      Function.update s.history reqNo (some merkleRoot) := by
  dsimp only [processStampSignature]
  split_ifs <;> rfl

theorem processStampSignature_doneChan (s : ClientState) (reqNo : Nat) (merkleRoot : Bytes) :
    (processStampSignature s reqNo merkleRoot).doneChan =
      Function.update s.doneChan reqNo ((s.doneChan reqNo).map (· ++ [none])) := by
  dsimp only [processStampSignature]
  split_ifs <;> rfl

theorem processStampSignature_call (s : ClientState) (reqNo : Nat) (merkleRoot : Bytes) :
    (processStampSignature s reqNo merkleRoot).call = s.call := by
  dsimp only [processStampSignature]
  split_ifs <;> rfl

theorem processStampSignature_reqno (s : ClientState) (reqNo : Nat) (merkleRoot : Bytes) :
    (processStampSignature s reqNo merkleRoot).reqno = s.reqno := by
  dsimp only [processStampSignature]
  split_ifs <;> rfl

theorem processStampSignature_Error (s : ClientState) (reqNo : Nat) (merkleRoot : Bytes) :
    (processStampSignature s reqNo merkleRoot).Error = s.Error := by
  dsimp only [processStampSignature]
  split_ifs <;> rfl

theorem stampStep_cases {s s' : ClientState} {e : StampEvent} (h : stampStep s e = some s') :
    (∃ err, e = .begin ∧ s.call = .start ∧ s.Error = some err ∧
      s' = { s with call := .returned (some err) }) ∨
    (e = .begin ∧ s.call = .start ∧ s.Error = none ∧
      s' = { s with
        reqno := s.reqno + 1
        doneChan := Function.update s.doneChan (s.reqno + 1) (some [])
        call := .putting (s.reqno + 1) }) ∨
    (∃ m err, e = .put (some err) ∧ s.call = .putting m ∧
      s' = { s with call := .returned (some err) }) ∨
    (∃ m, e = .put none ∧ s.call = .putting m ∧ s' = { s with call := .waiting m }) ∨
    (∃ m err q, e = .receive ∧ s.call = .waiting m ∧ s.doneChan m = some (some err :: q) ∧
      s' = { s with
        doneChan := Function.update s.doneChan m (some q)
        call := .returned (some err) }) ∨
    (∃ m q, e = .receive ∧ s.call = .waiting m ∧ s.doneChan m = some (none :: q) ∧
      s' = { s with doneChan := Function.update s.doneChan m none, call := .returned none }) ∨
    (∃ m, e = .timeout ∧ s.call = .waiting m ∧
      s' = { s with doneChan := Function.update s.doneChan m none, call := .returned none }) ∨
    (∃ reqNo merkleRoot, e = .reply reqNo merkleRoot ∧
      s' = processStampSignature s reqNo merkleRoot) ∨
    (e = .eof ∧ s' = { s with
      Error := some eofText
      doneChan := fun k => (s.doneChan k).map (· ++ [some eofText]) }) := by
  cases e with
  | begin =>
      simp only [stampStep] at h
      split at h <;> cases h
      · next hc he => exact .inl ⟨_, rfl, hc, he, rfl⟩
      · next hc he => exact .inr (.inl ⟨rfl, hc, he, rfl⟩)
  | put result =>
      simp only [stampStep] at h
      split at h <;> cases h
      · next m err hc => exact .inr (.inr (.inl ⟨m, err, rfl, hc, rfl⟩))
      · next m hc => exact .inr (.inr (.inr (.inl ⟨m, rfl, hc, rfl⟩)))
  | receive =>
      simp only [stampStep] at h
      split at h
      · next m hc =>
          split at h <;> cases h
          · next _ _ hq => exact .inr (.inr (.inr (.inr (.inl ⟨m, _, _, rfl, hc, hq, rfl⟩))))
          · next _ hq => exact .inr (.inr (.inr (.inr (.inr (.inl ⟨m, _, rfl, hc, hq, rfl⟩)))))
      · cases h
  | timeout =>
      simp only [stampStep] at h
      split at h <;> cases h
      next m hc => exact .inr (.inr (.inr (.inr (.inr (.inr (.inl ⟨m, rfl, hc, rfl⟩))))))
  | reply reqNo merkleRoot =>
      exact .inr (.inr (.inr (.inr (.inr (.inr (.inr (.inl ⟨reqNo, merkleRoot, rfl,
        (Option.some.inj h).symm⟩)))))))
  | eof => exact .inr (.inr (.inr (.inr (.inr (.inr (.inr (.inr ⟨rfl, (Option.some.inj h).symm⟩)))))))

theorem NilsReplied.update {s : ClientState} (hnils : NilsReplied s) (m : Nat)
    {c : Option (List (Option String))} (hc : ∀ q, c = some q → none ∈ q → (s.history m).isSome) :
    ∀ k q, Function.update s.doneChan m c k = some q → none ∈ q → (s.history k).isSome := by
  intro k q hk
  by_cases hkm : k = m
  · subst hkm
    exact hc q (by simpa using hk)
  · exact hnils k q (by simpa [Function.update_noteq hkm] using hk)

theorem stampStep_spec {s s' : ClientState} {e : StampEvent} (hnils : NilsReplied s)
    (h : stampStep s e = some s') :
    (∀ k, (s.history k).isSome → (s'.history k).isSome) ∧ NilsReplied s' ∧
    (s'.call = .returned none → s.call = .returned none ∨ e = .timeout ∨
      ∃ m, s.call = .waiting m ∧ (s.history m).isSome) := by
  rcases stampStep_cases h with ⟨_, -, -, -, rfl⟩ | ⟨-, -, -, rfl⟩ | ⟨_, _, -, -, rfl⟩ |
    ⟨_, -, -, rfl⟩ | ⟨m, _, _, -, -, hq, rfl⟩ | ⟨m, _, -, hm, hq, rfl⟩ | ⟨_, rfl, -, rfl⟩ |
    ⟨reqNo, merkleRoot, -, rfl⟩ | ⟨-, rfl⟩
  · exact ⟨fun _ => id, hnils, by simp⟩
  · exact ⟨fun _ => id, hnils.update _ (by rintro _ ⟨⟩ ⟨⟩), by simp⟩
  · exact ⟨fun _ => id, hnils, by simp⟩
  · exact ⟨fun _ => id, hnils, by simp⟩
  · refine ⟨fun _ => id, hnils.update m ?_, by simp⟩
    rintro _ ⟨⟩ hq'
    exact hnils m _ hq (List.mem_cons_of_mem _ hq')
  · exact ⟨fun _ => id, hnils.update m (by rintro _ ⟨⟩),
      fun _ => .inr (.inr ⟨m, hm, hnils m _ hq (List.mem_cons_self _ _)⟩)⟩
  · exact ⟨fun _ => id, hnils.update _ (by rintro _ ⟨⟩), fun _ => .inr (.inl rfl)⟩
  · refine ⟨fun k hk => ?_, fun k q hk hq => ?_, fun h => .inl (by
      rwa [processStampSignature_call] at h)⟩
    · rw [processStampSignature_history, Function.update_apply]
      split_ifs
      · rfl
      · exact hk
    · rw [processStampSignature_doneChan, Function.update_apply] at hk
      rw [processStampSignature_history, Function.update_apply]
      split_ifs at hk ⊢
      · rfl
      · exact hnils k q hk hq
  · refine ⟨fun _ => id, fun k q hk hq => ?_, .inl⟩
    obtain ⟨q₀, hq₀, rfl⟩ := Option.map_eq_some'.mp hk
    simp only [List.mem_append, List.mem_singleton, reduceCtorEq, or_false] at hq
    exact hnils k q₀ hq₀ hq

theorem stampRun_history {s s' : ClientState} :
    ∀ {es : List StampEvent}, NilsReplied s → stampRun s es = some s' →
      ∀ k, (s.history k).isSome → (s'.history k).isSome
  | [], _, h => by cases h; exact fun _ => id
  | e :: es, hnils, h => by
      simp only [stampRun, List.foldlM_cons, Option.bind_eq_bind] at h
      obtain ⟨s₁, hstep, h⟩ := Option.bind_eq_some.mp h
      obtain ⟨hhist, hnils₁, -⟩ := stampStep_spec hnils hstep
      exact fun k hk => stampRun_history hnils₁ h k (hhist k hk)

/-- The request number of the call, once it has one. -/
def CallFor (m : Nat) (s : ClientState) : Prop :=
  (s.call = .start → s.reqno + 1 = m) ∧ ∀ m', s.call = .putting m' ∨ s.call = .waiting m' → m' = m

theorem callFor_step {m : Nat} {s s' : ClientState} {e : StampEvent} (hcall : CallFor m s)
    (h : stampStep s e = some s') : CallFor m s' := by
  obtain ⟨hstart, hreq⟩ := hcall
  rcases stampStep_cases h with ⟨_, -, -, -, rfl⟩ | ⟨-, hs, -, rfl⟩ | ⟨_, _, -, -, rfl⟩ |
    ⟨m', -, hs, rfl⟩ | ⟨_, _, _, -, -, -, rfl⟩ | ⟨_, _, -, -, -, rfl⟩ | ⟨_, -, -, rfl⟩ |
    ⟨reqNo, merkleRoot, -, rfl⟩ | ⟨-, rfl⟩
  · exact ⟨by simp, by simp⟩
  · exact ⟨by simp, by simpa using hstart hs⟩
  · exact ⟨by simp, by simp⟩
  · exact ⟨by simp, by simpa using hreq m' (.inl hs)⟩
  · exact ⟨by simp, by simp⟩
  · exact ⟨by simp, by simp⟩
  · exact ⟨by simp, by simp⟩
  · simp only [CallFor, processStampSignature_call, processStampSignature_reqno]
    exact ⟨hstart, hreq⟩
  · exact ⟨hstart, hreq⟩

theorem stampRun_returned_nil {m : Nat} {s' : ClientState} :
    ∀ {es : List StampEvent} {s : ClientState}, NilsReplied s → CallFor m s →
      stampRun s es = some s' → s'.call = .returned none →
      s.call = .returned none ∨ (s'.history m).isSome ∨ .timeout ∈ es
  | [], _, _, _, h, hret => by cases h; exact .inl hret
  | e :: es, s, hnils, hcall, h, hret => by
      simp only [stampRun, List.foldlM_cons, Option.bind_eq_bind] at h
      obtain ⟨s₁, hstep, hrun⟩ := Option.bind_eq_some.mp h
      obtain ⟨hhist, hnils₁, hret₁⟩ := stampStep_spec hnils hstep
      rcases stampRun_returned_nil hnils₁ (callFor_step hcall hstep) hrun hret with h₁ | h₁ | h₁
      · rcases hret₁ h₁ with h₀ | rfl | ⟨m', hw, hm'⟩
        · exact .inl h₀
        · exact .inr (.inr (List.mem_cons_self _ _))
        · rw [hcall.2 m' (.inr hw)] at hm'
          exact .inr (.inl (stampRun_history hnils₁ hrun m (hhist m hm')))
      · exact .inr (.inl h₁)
      · exact .inr (.inr (List.mem_cons_of_mem _ h₁))

/-- **When `TimeStamp` returns `nil`.** In every interleaving, from a client whose channels hold
`nil` only for replies it processed, the call returns `nil` only if the reply with its request
number was processed or its timeout fired. -/
theorem timeStamp_nil_of_reply_or_timeout {s s' : ClientState} {es : List StampEvent}
    (hstart : s.call = .start) (hnils : NilsReplied s) (h : stampRun s es = some s')
    (hret : s'.call = .returned none) :
    (s'.history (s.reqno + 1)).isSome ∨ .timeout ∈ es := by
  have hcall : CallFor (s.reqno + 1) s :=
    ⟨fun _ => rfl, fun m' hm => by rcases hm with hm | hm <;> simp [hstart] at hm⟩
  exact (stampRun_returned_nil hnils hcall h hret).resolve_left (by simp [hstart])

theorem timeStamp_nil_of_reply_or_timeout_reply :
    ∃ s', newClient.call = .start ∧ NilsReplied newClient ∧
      stampRun newClient [.begin, .put none, .reply 1 [7], .receive] = some s' ∧
      s'.call = .returned none ∧
      ((s'.history (newClient.reqno + 1)).isSome ∨
        StampEvent.timeout ∈ [.begin, .put none, .reply 1 [7], .receive]) :=
  ⟨_, rfl, nilsReplied_newClient, rfl, rfl, @timeStamp_nil_of_reply_or_timeout newClient _
    [.begin, .put none, .reply 1 [7], .receive] rfl nilsReplied_newClient rfl rfl⟩

/-- A call whose timeout fires before any reply: `TimeStamp` returns `nil`, and the reply with its
request number was never processed. -/
theorem timeStamp_nil_without_reply (s : ClientState) (hstart : s.call = .start)
    (herr : s.Error = none) (hnone : s.history (s.reqno + 1) = none) :
    ∃ s', stampRun s [.begin, .put none, .timeout] = some s' ∧ s'.call = .returned none ∧
      s'.history (s.reqno + 1) = none := by
  refine ⟨{ s with
    reqno := s.reqno + 1
    doneChan := Function.update (Function.update s.doneChan (s.reqno + 1) (some [])) (s.reqno + 1) none
    call := .returned none }, ?_, rfl, hnone⟩
  simp [stampRun, stampStep, hstart, herr]

theorem timeStamp_nil_without_reply_newClient :
    newClient.call = .start ∧ newClient.Error = none ∧ newClient.history (newClient.reqno + 1) = none ∧
    ∃ s', stampRun newClient [.begin, .put none, .timeout] = some s' ∧ s'.call = .returned none ∧
      s'.history (newClient.reqno + 1) = none :=
  ⟨rfl, rfl, rfl, timeStamp_nil_without_reply newClient rfl rfl rfl⟩

end Cothority.Stamp
