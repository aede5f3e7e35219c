import Cothority.Stamp.Client

/-! Whole runs of the timestamp client. Everything one event can do is said once, in
`stampStep_cases`, and every invariant is derived from it: the only error `Error` or a done channel
ever holds is `io.EOF`, a `nil` waits only for a processed reply, and the call's channel is there
while the call puts or waits, and holds a value once the connection failed. From these follow
which errors `TimeStamp` returns, that after a failure every new call returns `io.EOF` at once, and
that a call still waiting then can always receive. -/

namespace Cothority.Stamp

theorem forall_update_chan {p : List (Option String) → Prop}
    {doneChan : Nat → Option (List (Option String))} (h : ∀ k q, doneChan k = some q → p q)
    (m : Nat) {c : Option (List (Option String))} (hc : ∀ q, c = some q → p q) :
    ∀ k q, Function.update doneChan m c k = some q → p q := by
  intro k q hk
  by_cases hkm : k = m
  · subst hkm
    exact hc q (by simpa using hk)
  · exact h k q (by simpa [Function.update_noteq hkm] using hk)

/-- What every state reached from `NewClient` keeps: `io.EOF` is the only error in `Error` and in
the done channels, a `nil` waits only for a processed reply, and while the call puts or waits its
channel is there, and holds a value once `Error` is set. -/
structure ClientInv (s : ClientState) : Prop where
  error_eof : ∀ err, s.Error = some err → err = eofText
  chan_eof : ∀ k q, s.doneChan k = some q → ∀ err, some err ∈ q → err = eofText
  nils : NilsReplied s
  chan_live : ∀ m, s.call = .putting m ∨ s.call = .waiting m →
    ∃ q, s.doneChan m = some q ∧ (s.Error.isSome → q ≠ [])

theorem clientInv_newClient : ClientInv newClient where
  error_eof _ h := by cases h
  chan_eof _ _ h := by cases h
  nils := nilsReplied_newClient
  chan_live _ h := by simp [newClient] at h

theorem clientInv_step {s s' : ClientState} {e : StampEvent} (hinv : ClientInv s)
    (h : stampStep s e = some s') : ClientInv s' := by
  have hnils := (stampStep_spec hinv.nils h).2.1
  obtain ⟨herr, hchan, -, hlive⟩ := hinv
  rcases stampStep_cases h with ⟨err, -, -, -, rfl⟩ | ⟨-, -, he, rfl⟩ | ⟨m, err, -, -, rfl⟩ |
    ⟨m, -, hc, rfl⟩ | ⟨m, err, q, -, -, hq, rfl⟩ | ⟨m, q, -, -, -, rfl⟩ | ⟨m, -, -, rfl⟩ |
    ⟨reqNo, merkleRoot, -, rfl⟩ | ⟨-, rfl⟩
  · exact ⟨herr, hchan, hnils, by simp⟩
  · refine ⟨herr, forall_update_chan hchan _ (by rintro _ ⟨⟩ _ ⟨⟩), hnils, fun m hm => ?_⟩
    obtain rfl : s.reqno + 1 = m := by simpa using hm
    exact ⟨[], by simp, by simp [he]⟩
  · exact ⟨herr, hchan, hnils, by simp⟩
  · exact ⟨herr, hchan, hnils, fun m' hm' => hlive m' (.inl (by simp at hm'; rw [hc, hm']))⟩
  · refine ⟨herr, forall_update_chan hchan _ ?_, hnils, by simp⟩
    rintro _ ⟨⟩ err' hmem
    exact hchan m _ hq err' (List.mem_cons_of_mem _ hmem)
  · exact ⟨herr, forall_update_chan hchan _ (by rintro _ ⟨⟩), hnils, by simp⟩
  · exact ⟨herr, forall_update_chan hchan _ (by rintro _ ⟨⟩), hnils, by simp⟩
  · refine ⟨by rwa [processStampSignature_Error], ?_, hnils, fun m hm => ?_⟩
    · rw [processStampSignature_doneChan]
      refine forall_update_chan hchan _ fun q hq err' hmem => ?_
      obtain ⟨q₀, hq₀, rfl⟩ := Option.map_eq_some'.mp hq
      simp only [List.mem_append, List.mem_singleton, Option.some.injEq, reduceCtorEq,
        or_false] at hmem
      exact hchan _ q₀ hq₀ err' hmem
    · rw [processStampSignature_call] at hm
      obtain ⟨q, hq, hne⟩ := hlive m hm
      rw [processStampSignature_doneChan, processStampSignature_Error]
      by_cases hmr : m = reqNo
      · subst hmr
        exact ⟨q ++ [none], by simp [hq], fun _ => by simp⟩
      · exact ⟨q, by rw [Function.update_noteq hmr, hq], hne⟩
  · refine ⟨fun err' h' => by cases h'; rfl, fun k q hk err' hmem => ?_, hnils, fun m hm => ?_⟩
    · obtain ⟨q₀, hq₀, rfl⟩ := Option.map_eq_some'.mp hk
      rcases List.mem_append.mp hmem with hmem | hmem
      · exact hchan k q₀ hq₀ err' hmem
      · cases List.mem_singleton.mp hmem
        rfl
    · obtain ⟨q, hq, -⟩ := hlive m hm
      exact ⟨q ++ [some eofText], by simp [hq], fun _ => by simp⟩

theorem clientInv_run {s' : ClientState} :
    ∀ {es : List StampEvent} {s : ClientState}, ClientInv s → stampRun s es = some s' →
      ClientInv s'
  | [], _, hinv, h => by cases h; exact hinv
  | e :: es, s, hinv, h => by
      simp only [stampRun, List.foldlM_cons, Option.bind_eq_bind] at h
      obtain ⟨s₁, hstep, h⟩ := Option.bind_eq_some.mp h
      exact clientInv_run (clientInv_step hinv hstep) h

theorem stampRun_cons {s s' : ClientState} {e : StampEvent} {es : List StampEvent}
    (h : stampRun s (e :: es) = some s') :
    ∃ s₁, stampStep s e = some s₁ ∧ stampRun s₁ es = some s' := by
  simp only [stampRun, List.foldlM_cons, Option.bind_eq_bind] at h
  exact Option.bind_eq_some.mp h

theorem returned_error_step {s s' : ClientState} {e : StampEvent} {err : String}
    (hinv : ClientInv s) (h : stampStep s e = some s') (hret : s'.call = .returned (some err)) :
    s.call = .returned (some err) ∨ err = eofText ∨ e = .put (some err) := by
  rcases stampStep_cases h with ⟨err', -, -, he, rfl⟩ | ⟨-, -, -, rfl⟩ | ⟨m, err', rfl, -, rfl⟩ |
    ⟨m, -, -, rfl⟩ | ⟨m, err', q, -, -, hq, rfl⟩ | ⟨m, q, -, -, -, rfl⟩ | ⟨m, -, -, rfl⟩ |
    ⟨reqNo, merkleRoot, -, rfl⟩ | ⟨-, rfl⟩
  · obtain rfl : err' = err := by simpa using hret
    exact .inr (.inl (hinv.error_eof _ he))
  · simp at hret
  · obtain rfl : err' = err := by simpa using hret
    exact .inr (.inr rfl)
  · simp at hret
  · obtain rfl : err' = err := by simpa using hret
    exact .inr (.inl (hinv.chan_eof m _ hq _ (List.mem_cons_self _ _)))
  · simp at hret
  · simp at hret
  · exact .inl (by rwa [processStampSignature_call] at hret)
  · exact .inl hret

theorem stampRun_returned_error {s' : ClientState} {err : String} :
    ∀ {es : List StampEvent} {s : ClientState}, ClientInv s → stampRun s es = some s' →
      s'.call = .returned (some err) →
      s.call = .returned (some err) ∨ err = eofText ∨ .put (some err) ∈ es
  | [], _, _, h, hret => by cases h; exact .inl hret
  | e :: es, s, hinv, h, hret => by
      obtain ⟨s₁, hstep, hrun⟩ := stampRun_cons h
      rcases stampRun_returned_error (clientInv_step hinv hstep) hrun hret with h₁ | h₁ | h₁
      · rcases returned_error_step hinv hstep h₁ with h₀ | h₀ | rfl
        · exact .inl h₀
        · exact .inr (.inl h₀)
        · exact .inr (.inr (List.mem_cons_self _ _))
      · exact .inr (.inl h₁)
      · exact .inr (.inr (List.mem_cons_of_mem _ h₁))

/-- **The errors `TimeStamp` returns.** In every interleaving from `NewClient`, a call that returns
an error returns `io.EOF` or the error `PutToServer` gave it. -/
theorem timeStamp_error_eof_or_put {es : List StampEvent} {s' : ClientState} {err : String}
    (h : stampRun newClient es = some s') (hret : s'.call = .returned (some err)) :
    err = eofText ∨ .put (some err) ∈ es :=
  (stampRun_returned_error clientInv_newClient h hret).resolve_left (by simp [newClient])

theorem timeStamp_error_eof_or_put_refused :
    ∃ s', stampRun newClient [.begin, .put (some "refused")] = some s' ∧
      s'.call = .returned (some "refused") ∧
      ("refused" = eofText ∨ StampEvent.put (some "refused") ∈ [.begin, .put (some "refused")]) :=
  ⟨_, rfl, rfl, timeStamp_error_eof_or_put rfl rfl⟩

theorem stampStep_Error {s s' : ClientState} {e : StampEvent} (h : stampStep s e = some s') :
    s'.Error = if e = .eof then some eofText else s.Error := by
  rcases stampStep_cases h with ⟨_, rfl, -, -, rfl⟩ | ⟨rfl, -, -, rfl⟩ | ⟨_, _, rfl, -, rfl⟩ |
    ⟨_, rfl, -, rfl⟩ | ⟨_, _, _, rfl, -, -, rfl⟩ | ⟨_, _, rfl, -, -, rfl⟩ | ⟨_, rfl, -, rfl⟩ |
    ⟨_, _, rfl, rfl⟩ | ⟨rfl, rfl⟩ <;> simp [processStampSignature_Error]

theorem stampRun_Error {s' : ClientState} :
    ∀ {es : List StampEvent} {s : ClientState}, stampRun s es = some s' →
      (s.Error = some eofText ∨ .eof ∈ es) → s'.Error = some eofText
  | [], _, h, hfail => by
      cases h
      simpa using hfail
  | e :: es, s, h, hfail => by
      obtain ⟨s₁, hstep, hrun⟩ := stampRun_cons h
      have herr := stampStep_Error hstep
      by_cases he : e = .eof
      · exact stampRun_Error hrun (.inl (by simp [herr, he]))
      · rw [if_neg he] at herr
        refine stampRun_Error hrun ?_
        rcases hfail with hfail | hfail
        · exact .inl (herr.trans hfail)
        · exact .inr ((List.mem_cons.mp hfail).resolve_left (Ne.symm he))

/-- **After a failure every new call fails at once.** From every state, in every interleaving in
which the connection's goroutine sent `io.EOF`, a `TimeStamp` call that starts afterwards returns
`io.EOF` at once, without putting anything to the server. -/
theorem timeStamp_after_eof {s s' : ClientState} {es : List StampEvent} (heof : .eof ∈ es)
    (h : stampRun s (es ++ [.begin]) = some s') : s'.call = .returned (some eofText) := by
  simp only [stampRun, List.foldlM_append, Option.bind_eq_bind, List.foldlM_cons,
    List.foldlM_nil] at h
  obtain ⟨s₁, hrun, h⟩ := Option.bind_eq_some.mp h
  obtain ⟨s₂, hstep, h⟩ := Option.bind_eq_some.mp h
  cases h
  have herr := stampRun_Error hrun (.inr heof)
  rcases stampStep_cases hstep with ⟨err, -, -, he, rfl⟩ | ⟨-, -, he, -⟩ | ⟨_, _, he, -⟩ |
    ⟨_, he, -⟩ | ⟨_, _, _, he, -⟩ | ⟨_, _, he, -⟩ | ⟨_, he, -⟩ | ⟨_, _, he, -⟩ | ⟨he, -⟩
  · rw [herr] at he
    cases he
    rfl
  · rw [herr] at he
    cases he
  all_goals cases he

theorem timeStamp_after_eof_late :
    StampEvent.eof ∈ [StampEvent.reply 1 [7], .eof, .reply 2 [9]] ∧
    ∃ s', stampRun newClient ([.reply 1 [7], .eof, .reply 2 [9]] ++ [.begin]) = some s' ∧
      s'.call = .returned (some eofText) :=
  ⟨by decide, _, rfl,
    @timeStamp_after_eof newClient _ [.reply 1 [7], .eof, .reply 2 [9]] (by decide) rfl⟩

/-- **After a failure a waiting call can always return.** In every interleaving from `NewClient`
in which the connection failed, a `TimeStamp` call still waiting can receive from its channel,
and then returns `io.EOF`, or `nil` for a reply to its request that was processed. -/
theorem timeStamp_receive_after_eof {es : List StampEvent} {s : ClientState} {m : Nat}
    (h : stampRun newClient es = some s) (heof : .eof ∈ es) (hwait : s.call = .waiting m) :
    ∃ s', stampStep s .receive = some s' ∧
      (s'.call = .returned (some eofText) ∨ s'.call = .returned none ∧ (s.history m).isSome) := by
  have hinv := clientInv_run clientInv_newClient h
  have herr := stampRun_Error h (.inr heof)
  obtain ⟨q, hq, hne⟩ := hinv.chan_live m (.inr hwait)
  match q, hq, hne (by simp [herr]) with
  | some err :: q, hq, _ =>
      obtain rfl := hinv.chan_eof m _ hq err (List.mem_cons_self _ _)
      exact ⟨{ s with
        doneChan := Function.update s.doneChan m (some q)
        call := .returned (some eofText) }, by simp [stampStep, hwait, hq], .inl rfl⟩
  | none :: q, hq, _ =>
      exact ⟨{ s with doneChan := Function.update s.doneChan m none, call := .returned none },
        by simp [stampStep, hwait, hq], .inr ⟨rfl, hinv.nils m _ hq (List.mem_cons_self _ _)⟩⟩

theorem timeStamp_receive_after_eof_waiting :
    ∃ s, stampRun newClient [.begin, .put none, .eof] = some s ∧
      StampEvent.eof ∈ [StampEvent.begin, .put none, .eof] ∧ s.call = .waiting 1 ∧
      ∃ s', stampStep s .receive = some s' ∧
        (s'.call = .returned (some eofText) ∨ s'.call = .returned none ∧ (s.history 1).isSome) :=
  ⟨_, rfl, by simp, rfl,
    @timeStamp_receive_after_eof [.begin, .put none, .eof] _ 1 rfl (by simp) rfl⟩

end Cothority.Stamp
