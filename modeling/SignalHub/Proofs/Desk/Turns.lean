import SignalHub.Proofs.Desk.Stop

/-! A runner that has ended stays so, and while it goes on no call to unregister is refused
(`Candid`). Commands come out of the queue as they went in, so the command of such a call is applied
when as many have been applied as had been put into the queue before it (`carried_of_accepted`). -/
namespace SignalHub.Desk

variable {d : Desk} {e : Event} {n : Nat} {conn : ConnId} {stage : Stage}
  {posted applied : List Command}

theorem runner_of_ended (ended : d.runner = .ended) (e : Event) : (d.event e).runner = .ended := by
  unfold Desk.event
  split
  · cases e with
    | move m =>
      cases m with
      | beginCall | halt | closeAll => exact ended
      | post call => exact (post_frame d call).1.trans ended
      | check => simp [act, move, Desk.check, ended]
      | take => simp [act, move, Desk.take, ended]
      | apply => simp [act, move, Desk.apply, ended]
      | answer => simp [act, move, Desk.answer, ended]
    | direct s => exact ended
    | dropRunner => simp [act, Desk.dropRunner, ended]
  · exact ended

theorem going_of_play {events : List Event} (going : (d.play events).runner ≠ .ended) :
    d.runner ≠ .ended := by
  induction events generalizing d with
  | nil => exact going
  | cons e rest ih =>
    have next : (d.event e).runner ≠ .ended := ih going
    exact fun ended => next (runner_of_ended ended e)

theorem asks_event (d : Desk) (e : Event) :
    ∃ begun, (d.event e).calls.map Call.ask = d.calls.map Call.ask ++ begun := by
  have kept {k : Desk} (same : k.calls.map Call.ask = d.calls.map Call.ask) :
      ∃ begun, k.calls.map Call.ask = d.calls.map Call.ask ++ begun :=
    ⟨[], by rw [same, List.append_nil]⟩
  unfold Desk.event
  split
  · cases e with
    | move m =>
      cases m with
      | beginCall ask => exact ⟨[ask], by simp [act, move, Desk.beginCall]⟩
      | post call => exact kept (asks_post d call)
      | check => exact kept (asks_check d)
      | take => exact kept (asks_take d)
      | apply => exact kept (asks_apply d)
      | answer => exact kept (asks_answer d)
      | halt | closeAll => exact kept rfl
    | direct s => exact kept rfl
    | dropRunner => exact kept (asks_dropRunner d)
  · exact kept rfl

theorem asks_play (d : Desk) (events : List Event) :
    ∃ begun, (d.play events).calls.map Call.ask = d.calls.map Call.ask ++ begun := by
  induction events generalizing d with
  | nil => exact ⟨[], (List.append_nil _).symm⟩
  | cons e rest ih =>
    obtain ⟨first, now⟩ := asks_event d e
    obtain ⟨more, later⟩ := ih (d.event e)
    refine ⟨first ++ more, ?_⟩
    change ((d.event e).play rest).calls.map Call.ask = _
    rw [later, now, List.append_assoc]

/-- A call is still there, and asks for the same. -/
theorem call_play {ask : Ask} (found : d.calls[n]? = some ⟨ask, stage⟩) (events : List Event) :
    ∃ later, (d.play events).calls[n]? = some ⟨ask, later⟩ := by
  obtain ⟨begun, asks⟩ := asks_play d events
  have bound := (List.getElem?_eq_some_iff.mp found).1
  have same := congrArg (fun asks => asks[n]?) asks
  simp only [List.getElem?_map] at same
  rw [List.getElem?_append_left (by simpa using bound), List.getElem?_map, found] at same
  obtain ⟨⟨ask', later⟩, there, rfl⟩ := Option.map_eq_some_iff.mp same
  exact ⟨later, there⟩

/-- How a call to unregister has come to where it is. -/
inductive Reached (d : Desk) (e : Event) (n : Nat) (conn : ConnId) : Stage → Prop where
  | before (stage : Stage) (found : d.calls[n]? = some ⟨.unregister conn, stage⟩) :
      Reached d e n conn stage
  | begun : Reached d e n conn .posting
  | posted (found : d.calls[n]? = some ⟨.unregister conn, .posting⟩)
      (posts : d.posts e = [.unregister conn]) : Reached d e n conn .accepted
  | late (found : d.calls[n]? = some ⟨.unregister conn, .posting⟩) (ended : d.runner = .ended) :
      Reached d e n conn .refused
  | abandoned (found : d.calls[n]? = some ⟨.unregister conn, .posted⟩) : Reached d e n conn .refused

theorem reached_of_abandon (now : (d.calls.map abandon)[n]? = some ⟨.unregister conn, stage⟩) :
    Reached d e n conn stage := by
  rw [List.getElem?_map] at now
  obtain ⟨⟨ask, before⟩, found, same⟩ := Option.map_eq_some_iff.mp now
  unfold abandon at same
  split at same
  · rename_i waits
    obtain ⟨rfl, rfl⟩ := Call.mk.inj same
    obtain rfl : before = .posted := waits
    exact .abandoned found
  · obtain ⟨rfl, rfl⟩ := Call.mk.inj same
    exact .before _ found

theorem reached_post {call : Nat}
    (now : (d.post call).calls[n]? = some ⟨.unregister conn, stage⟩) :
    Reached d (.move (.post call)) n conn stage := by
  unfold Desk.post at now
  split at now
  · rename_i ask found
    have moved {later : Stage}
        (there : (d.setStage call later).calls[n]? = some ⟨.unregister conn, stage⟩) :
        d.calls[n]? = some ⟨.unregister conn, stage⟩ ∨
          call = n ∧ ask = .unregister conn ∧ stage = later := by
      rw [calls_setStage] at there
      split at there
      · rename_i same
        rw [← same, found] at there
        obtain ⟨rfl, rfl⟩ := Call.mk.inj (Option.some.inj there)
        exact .inr ⟨same, rfl, rfl⟩
      · exact .inl there
    split at now
    · rename_i ended
      rcases moved now with before | ⟨rfl, rfl, rfl⟩
      · exact .before _ before
      · exact .late found ended
    split at now
    · rename_i going roomy
      cases ask with
      | register other =>
        rcases moved now with before | ⟨-, impossible, -⟩
        · exact .before _ before
        · contradiction
      | unregister other =>
        rcases moved now with before | ⟨rfl, same, rfl⟩
        · exact .before _ before
        · obtain rfl := Ask.unregister.inj same
          exact .posted found (by simp [posts, found, going, roomy, Ask.command])
    · exact .before _ now
  · exact .before _ now

theorem Ledger.reached (ledger : Ledger posted applied d)
    (now : (d.event e).calls[n]? = some ⟨.unregister conn, stage⟩) : Reached d e n conn stage := by
  unfold Desk.event at now
  split at now
  · cases e with
    | move m =>
      cases m with
      | beginCall ask =>
        change (d.calls ++ [_])[n]? = _ at now
        rw [List.getElem?_append] at now
        split at now
        · exact .before _ now
        · obtain ⟨rfl, rfl⟩ := Call.mk.inj (List.mem_singleton.mp (List.mem_of_getElem? now))
          exact .begun
      | post call => exact reached_post now
      | check =>
        simp only [act, move, Desk.check] at now
        split at now
        · split at now
          · exact reached_of_abandon now
          · exact .before _ now
        · exact .before _ now
      | take =>
        simp only [act, move, Desk.take] at now
        split at now
        · exact reached_of_abandon now
        · exact .before _ now
        · exact .before _ now
      | apply =>
        simp only [act, move, Desk.apply] at now
        split at now <;> exact .before _ now
      | answer =>
        simp only [act, move, Desk.answer] at now
        split at now
        · rename_i call runner
          obtain ⟨other, waits⟩ := ledger.answers call runner
          change (d.setStage call .accepted).calls[n]? = _ at now
          rw [calls_setStage] at now
          split at now
          · rename_i same
            rw [← same, waits] at now
            simp at now
          · exact .before _ now
        · exact .before _ now
      | halt | closeAll => exact .before _ now
    | direct s => exact .before _ now
    | dropRunner =>
      simp only [act, Desk.dropRunner] at now
      split at now
      · exact reached_of_abandon now
      · exact reached_of_abandon now
      · exact .before _ now
  · exact .before _ now

/-- A call to unregister waits for room in the queue and then for nothing more; it is refused only by
a runner that has ended. -/
def Candid (d : Desk) : Prop :=
  ∀ (n : Nat) (conn : ConnId) (stage : Stage), d.calls[n]? = some ⟨.unregister conn, stage⟩ →
    stage = .posting ∨ stage = .accepted ∨ stage = .refused ∧ d.runner = .ended

theorem Candid.event (candid : Candid d) (ledger : Ledger posted applied d) (e : Event) :
    Candid (d.event e) := by
  intro n conn stage now
  cases ledger.reached now with
  | before _ found =>
    rcases candid n conn stage found with posting | accepted | ⟨refused, ended⟩
    · exact .inl posting
    · exact .inr (.inl accepted)
    · exact .inr (.inr ⟨refused, runner_of_ended ended e⟩)
  | begun => exact .inl rfl
  | posted => exact .inr (.inl rfl)
  | late _ ended => exact .inr (.inr ⟨rfl, runner_of_ended ended e⟩)
  | abandoned found =>
    rcases candid n conn .posted found with posting | accepted | ⟨refused, -⟩ <;> contradiction

theorem Candid.play (candid : Candid d) (ledger : Ledger posted applied d) (events : List Event) :
    Candid (d.play events) := by
  induction events generalizing d posted applied with
  | nil => exact candid
  | cons e rest ih => exact ih (candid.event ledger e) (ledger.event e)

theorem candid_play (reports : Bool) (events : List Event) : Candid ((new reports).play events) :=
  Candid.play (by simp [Candid, new]) (ledger_new reports) events

/-- The command of a call is put into the queue by an event and taken out of it and applied in its
turn, after what is in between. -/
structure Carried (d : Desk) (call : Nat) (conn : ConnId) (before : List Event) (e : Event)
    (between : List Event) : Prop where
  called : (d.play before).calls[call]? = some ⟨.unregister conn, .posting⟩
  posts : (d.play before).posts e = [.unregister conn]
  holds : (d.play (before ++ e :: between)).runner = .holding (.unregister conn)
  turn : (d.along Desk.posts before).length =
    (d.along applies (before ++ e :: between)).length

end SignalHub.Desk
