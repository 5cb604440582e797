import SignalHub.Proofs.Desk.Run

/-! The invariant follows the command of each call (`Ledger`). Commands are applied in the order in
which they were put into the queue. The command of a call to register waits while the call does, has
been applied once when the call is accepted, and is never applied when it is refused: the runner
never ends between applying a command and answering it. -/
namespace SignalHub

namespace Call

/-- What has been applied of a call, which the runner may be about to answer. -/
def done (n : Nat) (answered : Bool) : Call → List Command
  | ⟨.register conn, .accepted⟩ => [.register conn n]
  | ⟨.register conn, .posted⟩ => if answered then [.register conn n] else []
  | _ => []

/-- What is still to be applied of a call. -/
def due (n : Nat) (answered : Bool) : Call → List Command
  | ⟨.register conn, .posted⟩ => if answered then [] else [.register conn n]
  | _ => []

/-- The call has ended. -/
def settled (c : Call) : Bool := c.stage == .accepted || c.stage == .refused

end Call

namespace Desk

def answering (d : Desk) (n : Nat) : Bool := decide (d.runner = .answering n)

def done (d : Desk) (n : Nat) : List Command := d.calls[n]?.elim [] (Call.done n (d.answering n))

def due (d : Desk) (n : Nat) : List Command := d.calls[n]?.elim [] (Call.due n (d.answering n))

/-- Commands that were put into the queue and not applied yet. -/
def waiting (d : Desk) : List Command := d.hand ++ d.inbox

/-- The commands that were put into the queue and those that were applied, in order, together with
what the calls and the runner have come to. Commands are lost only when the runner ends. -/
structure Ledger (posted applied : List Command) (d : Desk) : Prop where
  order : ∃ lost, posted = applied ++ d.waiting ++ lost ∧ (d.runner ≠ .ended → lost = [])
  past : ∀ n, applied.filter (Command.answers n) = d.done n
  ahead : ∀ n, d.waiting.filter (Command.answers n) = d.due n
  answers : ∀ n, d.runner = .answering n → ∃ conn, d.calls[n]? = some ⟨.register conn, .posted⟩

variable {posted applied : List Command} {d k : Desk}

theorem ledger_new (reports : Bool) : Ledger [] [] (new reports) where
  order := ⟨[], by simp [new, waiting, hand], fun _ => rfl⟩
  past n := by simp [new, done]
  ahead n := by simp [new, due, waiting, hand]
  answers n runner := by simp [new] at runner

theorem Ledger.of_same (ledger : Ledger posted applied d) (inbox : k.inbox = d.inbox)
    (runner : k.runner = d.runner) (calls : k.calls = d.calls) : Ledger posted applied k where
  order := by simpa [waiting, hand, inbox, runner] using ledger.order
  past n := by simpa [done, answering, calls, runner] using ledger.past n
  ahead n := by simpa [due, answering, waiting, hand, inbox, calls, runner] using ledger.ahead n
  answers n := by simpa [calls, runner] using ledger.answers n

theorem calls_setStage (d : Desk) (call : Nat) (stage : Stage) (n : Nat) :
    (d.setStage call stage).calls[n]? =
      if call = n then d.calls[n]?.map fun c => { c with stage := stage } else d.calls[n]? := by
  by_cases same : call = n
  · subst same
    simp [setStage]
  · simp [setStage, same]

theorem elim_setStage {call : Nat} {c : Call} (found : d.calls[call]? = some c) (stage : Stage)
    (f : Call → List Command) (n : Nat) :
    (d.setStage call stage).calls[n]?.elim [] f =
      if call = n then f { c with stage := stage } else d.calls[n]?.elim [] f := by
  rw [calls_setStage]
  split
  · rename_i same
    simp [← same, found]
  · rfl

theorem Ledger.beginCall (ledger : Ledger posted applied d) (ask : Ask) :
    Ledger posted applied (d.beginCall ask) := by
  obtain ⟨stage, begun, idle⟩ : ∃ stage, d.beginCall ask =
      { d with calls := d.calls ++ [⟨ask, stage⟩] } ∧ (stage = .refused ∨ stage = .posting) := by
    refine ⟨_, rfl, ?_⟩
    cases ask with
    | register conn =>
      dsimp only
      split
      · exact .inl rfl
      · exact .inr rfl
    | unregister conn => exact .inr rfl
  -- a call that has just begun has put nothing into the queue
  have same (f : Call → List Command) (nothing : f ⟨ask, stage⟩ = []) (n : Nat) :
      (d.calls ++ [⟨ask, stage⟩])[n]?.elim [] f = d.calls[n]?.elim [] f := by
    rcases Nat.lt_trichotomy n d.calls.length with less | here | more
    · rw [List.getElem?_append_left less]
    · simp [here, nothing]
    · rw [List.getElem?_eq_none (by simp; omega), List.getElem?_eq_none (by omega)]
  rw [begun]
  refine ⟨ledger.order, fun n => ?_, fun n => ?_, fun n runner => ?_⟩
  · refine (ledger.past n).trans (same _ ?_ n).symm
    rcases idle with rfl | rfl <;> cases ask <;> rfl
  · refine (ledger.ahead n).trans (same _ ?_ n).symm
    rcases idle with rfl | rfl <;> cases ask <;> rfl
  · obtain ⟨conn, found⟩ := ledger.answers n runner
    have bound := (List.getElem?_eq_some_iff.mp found).1
    exact ⟨conn, by rw [List.getElem?_append_left bound, found]⟩

theorem Ledger.not_answering (ledger : Ledger posted applied d) {n : Nat} {ask : Ask}
    (found : d.calls[n]? = some ⟨ask, .posting⟩) : d.runner ≠ .answering n := by
  intro runner
  obtain ⟨conn, other⟩ := ledger.answers n runner
  simp [found] at other

/-- A call that has posted nothing may come to any stage, as long as what it puts into the queue is
the command that it then waits for. -/
theorem Ledger.setStage (ledger : Ledger posted applied d) {call : Nat} {ask : Ask}
    (found : d.calls[call]? = some ⟨ask, .posting⟩) (stage : Stage) (added : List Command)
    (live : added = [] ∨ d.runner ≠ .ended)
    (own : Call.done call false ⟨ask, stage⟩ = [])
    (waits : ∀ n, added.filter (Command.answers n) =
      if call = n then Call.due call false ⟨ask, stage⟩ else []) :
    Ledger (posted ++ added) applied
      { d.setStage call stage with inbox := d.inbox ++ added } := by
  have unanswered : d.answering call = false := by
    simpa [answering] using ledger.not_answering found
  have waiting_eq : waiting { d.setStage call stage with inbox := d.inbox ++ added } =
      d.waiting ++ added := by
    simp [waiting, hand, Desk.setStage]
  refine ⟨?_, fun n => ?_, fun n => ?_, fun n runner => ?_⟩
  · obtain ⟨lost, order, kept⟩ := ledger.order
    rw [waiting_eq]
    rcases live with rfl | live
    · exact ⟨lost, by simp [order], kept⟩
    · exact ⟨[], by simp [order, kept live], fun _ => rfl⟩
  · rw [ledger.past]
    unfold done
    change _ = (d.setStage call stage).calls[n]?.elim [] (Call.done n (d.answering n))
    rw [elim_setStage found]
    split
    · rename_i same
      subst same
      rw [unanswered, own, found]
      cases ask <;> rfl
    · rfl
  · rw [waiting_eq, List.filter_append, ledger.ahead, waits]
    unfold due
    change _ = (d.setStage call stage).calls[n]?.elim [] (Call.due n (d.answering n))
    rw [elim_setStage found]
    split
    · rename_i same
      subst same
      rw [unanswered, found]
      cases ask <;> rfl
    · rw [List.append_nil]
  · have other : call ≠ n := by
      rintro rfl
      exact ledger.not_answering found runner
    change ∃ conn, (d.setStage call stage).calls[n]? = _
    rw [calls_setStage, if_neg other]
    exact ledger.answers n runner

theorem Ledger.post (ledger : Ledger posted applied d) (call : Nat) :
    Ledger (posted ++ d.posts (.move (.post call))) applied (d.post call) := by
  unfold Desk.post posts
  dsimp only
  rcases found : d.calls[call]? with - | ⟨ask, - | - | - | -⟩
  case some.posting =>
    dsimp only
    by_cases ended : d.runner = .ended
    · rw [if_pos ended, if_neg (by simp [ended])]
      have refused := ledger.setStage found .refused [] (.inl rfl) (by cases ask <;> rfl)
        (by intro n; cases ask <;> simp [Call.due])
      exact refused.of_same (List.append_nil _).symm rfl rfl
    by_cases roomy : d.inbox.length < room
    · rw [if_neg ended, if_pos roomy, if_pos ⟨ended, roomy⟩]
      cases ask with
      | register conn =>
        apply ledger.setStage found .posted [.register conn call] (.inr ended) rfl
        intro n
        by_cases same : call = n <;> simp [Command.answers, Call.due, same]
      | unregister conn =>
        apply ledger.setStage found .accepted [.unregister conn] (.inr ended) rfl
        intro n
        simp [Command.answers, Call.due]
    · rw [if_neg ended, if_neg roomy, if_neg (by simp [roomy]), List.append_nil]
      exact ledger
  all_goals simpa using ledger

theorem elim_abandon (d : Desk) (f : Call → List Command) (n : Nat) :
    d.dismiss.calls[n]?.elim [] f = d.calls[n]?.elim [] (f ∘ abandon) := by
  cases found : d.calls[n]? <;> simp [dismiss, found]

/-- Where the runner pauses it has nothing to answer, so whatever waits is lost and never done. -/
theorem Ledger.dismiss (ledger : Ledger posted applied d)
    (pausing : d.runner = .checking ∨ d.runner = .waiting) : Ledger posted applied d.dismiss := by
  have unanswered (n : Nat) : d.answering n = false := by
    rcases pausing with runner | runner <;> simp [answering, runner]
  have live : d.runner ≠ .ended := by
    rcases pausing with runner | runner <;> simp [runner]
  refine ⟨?_, fun n => ?_, fun n => ?_, fun n runner => by cases runner⟩
  · obtain ⟨lost, order, kept⟩ := ledger.order
    refine ⟨d.waiting, ?_, fun ended => absurd rfl ended⟩
    simp [order, kept live, waiting, hand, Desk.dismiss]
  · rw [ledger.past]
    change d.done n = d.dismiss.calls[n]?.elim [] (Call.done n false)
    rw [elim_abandon, done, unanswered]
    congr 1
    funext ⟨ask, stage⟩
    cases ask <;> cases stage <;> rfl
  · change _ = d.dismiss.calls[n]?.elim [] (Call.due n false)
    rw [elim_abandon]
    have nothing : Call.due n false ∘ abandon = fun _ => [] := by
      funext ⟨ask, stage⟩
      cases ask <;> cases stage <;> rfl
    rw [nothing]
    cases d.calls[n]? <;> rfl

/-- The runner may move on as long as it neither comes to an answer nor comes from one. -/
theorem Ledger.of_waiting (ledger : Ledger posted applied d) (live : d.runner ≠ .ended)
    (waiting : k.waiting = d.waiting) (calls : k.calls = d.calls)
    (before : ∀ n, d.runner ≠ .answering n) (after : ∀ n, k.runner ≠ .answering n) :
    Ledger posted applied k := by
  have unanswered (n : Nat) : d.answering n = false ∧ k.answering n = false := by
    simp [answering, before, after]
  refine ⟨?_, fun n => ?_, fun n => ?_, fun n runner => absurd runner (after n)⟩
  · obtain ⟨lost, order, kept⟩ := ledger.order
    exact ⟨lost, by rw [order, waiting], fun _ => kept live⟩
  · rw [ledger.past, done, done, calls, (unanswered n).1, (unanswered n).2]
  · rw [waiting, ledger.ahead, due, due, calls, (unanswered n).1, (unanswered n).2]

theorem Ledger.check (ledger : Ledger posted applied d) : Ledger posted applied d.check := by
  unfold Desk.check
  split
  · rename_i runner
    split
    · exact ledger.dismiss (.inl runner)
    · apply ledger.of_waiting <;> simp [waiting, hand, runner]
  · exact ledger

theorem Ledger.take (ledger : Ledger posted applied d) : Ledger posted applied d.take := by
  unfold Desk.take
  split
  · rename_i runner notified
    have unheard : Ledger posted applied { d with notified := false } :=
      ledger.of_same rfl rfl rfl
    exact unheard.dismiss (.inr runner)
  · rename_i command rest runner notified inbox
    apply ledger.of_waiting <;> simp [waiting, hand, runner, inbox]
  · exact ledger

theorem Ledger.dropRunner (ledger : Ledger posted applied d) :
    Ledger posted applied d.dropRunner := by
  unfold Desk.dropRunner
  split
  · rename_i runner
    exact ledger.dismiss (.inl runner)
  · rename_i runner
    exact ledger.dismiss (.inr runner)
  · exact ledger

/-- The command in the runner's hand is that of a call that waits, and it is there once. -/
theorem Ledger.posted_of_holding (ledger : Ledger posted applied d) {conn : ConnId} {call : Nat}
    (runner : d.runner = .holding (.register conn call)) :
    d.calls[call]? = some ⟨.register conn, .posted⟩ ∧
      d.inbox.filter (Command.answers call) = [] := by
  have ahead := ledger.ahead call
  have unanswered : d.answering call = false := by simp [answering, runner]
  simp only [waiting, hand, runner, List.singleton_append, List.filter_cons, Command.answers,
    beq_self_eq_true, ↓reduceIte, due, unanswered] at ahead
  cases found : d.calls[call]? with
  | none => simp [found] at ahead
  | some c =>
    rw [found, Option.elim_some] at ahead
    obtain ⟨_ | _, _ | _ | _ | _⟩ := c
    case register.posted =>
      simp only [Call.due, Bool.false_eq_true, ↓reduceIte, List.cons.injEq,
        Command.register.injEq, and_true] at ahead
      exact ⟨by rw [ahead.1], ahead.2⟩
    all_goals simp [Call.due] at ahead

theorem Ledger.apply (ledger : Ledger posted applied d) :
    Ledger posted (applied ++ d.hand) d.apply := by
  obtain ⟨lost, order, kept⟩ := ledger.order
  unfold Desk.apply
  split
  · rename_i conn call runner
    obtain ⟨found, alone⟩ := ledger.posted_of_holding runner
    have live : d.runner ≠ .ended := by simp [runner]
    have taken : d.hand = [.register conn call] := by simp [hand, runner]
    have unanswered (n : Nat) : d.answering n = false := by simp [answering, runner]
    refine ⟨⟨[], ?_, fun _ => rfl⟩, fun n => ?_, fun n => ?_, fun n answering => ?_⟩
    · simp [order, kept live, waiting, hand, runner]
    · rw [List.filter_append, ledger.past, taken, done, unanswered]
      change _ = d.calls[n]?.elim [] (Call.done n (decide (Runner.answering call = .answering n)))
      by_cases same : call = n
      · subst same
        simp [found, Call.done, Command.answers]
      · simp [same, Command.answers]
    · change d.inbox.filter (Command.answers n) =
        d.calls[n]?.elim [] (Call.due n (decide (Runner.answering call = .answering n)))
      have ahead := ledger.ahead n
      by_cases same : call = n
      · subst same
        simp [found, Call.due, alone]
      · simpa [waiting, taken, Command.answers, same, due, unanswered] using ahead
    · obtain rfl : call = n := Runner.answering.inj answering
      exact ⟨conn, found⟩
  · rename_i conn runner
    have live : d.runner ≠ .ended := by simp [runner]
    have taken : d.hand = [.unregister conn] := by simp [hand, runner]
    refine ⟨⟨[], ?_, fun _ => rfl⟩, fun n => ?_, fun n => ?_, fun n answering => by cases answering⟩
    · simp [order, kept live, waiting, hand, runner]
    · simpa [taken, Command.answers, done, answering, runner] using ledger.past n
    · simpa [waiting, hand, runner, Command.answers, due, answering] using ledger.ahead n
  · rename_i noRegister noUnregister
    have nothing : d.hand = [] := by
      unfold hand
      cases runner : d.runner with
      | holding command =>
        cases command with
        | register conn call => exact absurd runner (noRegister conn call)
        | unregister conn => exact absurd runner (noUnregister conn)
      | checking | waiting | answering | ended => rfl
    rw [nothing, List.append_nil]
    exact ledger

theorem Ledger.answer (ledger : Ledger posted applied d) : Ledger posted applied d.answer := by
  unfold Desk.answer
  split
  · rename_i call runner
    obtain ⟨conn, found⟩ := ledger.answers call runner
    refine ⟨?_, fun n => ?_, fun n => ?_, fun n impossible => by cases impossible⟩
    · simpa [waiting, hand, runner, Desk.setStage] using ledger.order
    · rw [ledger.past, done]
      change _ = (d.setStage call .accepted).calls[n]?.elim [] (Call.done n false)
      rw [elim_setStage found]
      by_cases same : call = n
      · subst same
        simp [found, answering, runner, Call.done]
      · simp [answering, runner, same]
    · have ahead := ledger.ahead n
      simp only [waiting, hand, runner, List.nil_append] at ahead
      change d.inbox.filter (Command.answers n) =
        (d.setStage call .accepted).calls[n]?.elim [] (Call.due n false)
      rw [elim_setStage found, ahead, due]
      by_cases same : call = n
      · subst same
        simp [found, answering, runner, Call.due]
      · simp [answering, runner, same]
  · exact ledger

theorem Ledger.event (ledger : Ledger posted applied d) (e : Event) :
    Ledger (posted ++ d.posts e) (applied ++ d.applies e) (d.event e) := by
  unfold Desk.event
  split
  · cases e with
    | move m =>
      cases m with
      | post call => simpa [act, move, applies] using ledger.post call
      | apply => simpa [act, move, posts, applies] using ledger.apply
      | beginCall ask => simpa [act, move, posts, applies] using ledger.beginCall ask
      | check => simpa [act, move, posts, applies] using ledger.check
      | take => simpa [act, move, posts, applies] using ledger.take
      | answer => simpa [act, move, posts, applies] using ledger.answer
      | halt =>
        have told : Ledger posted applied d.halt := ledger.of_same rfl rfl rfl
        simpa [act, move, posts, applies] using told
      | closeAll =>
        have closed : Ledger posted applied (d.closeAll true) := ledger.of_same rfl rfl rfl
        simpa [act, move, posts, applies] using closed
    | direct s =>
      have made : Ledger posted applied (d.act (.direct s)) := ledger.of_same rfl rfl rfl
      simpa [posts, applies] using made
    | dropRunner => simpa [act, move, posts, applies] using ledger.dropRunner
  · rename_i forbidden
    cases e with
    | move m =>
      cases m with
      | beginCall ask => simpa [act, move, posts, applies] using ledger
      | post | check | take | apply | answer | halt | closeAll => exact absurd rfl forbidden
    | direct s => simpa [act, move, posts, applies] using ledger
    | dropRunner => exact absurd rfl forbidden

theorem Ledger.play (ledger : Ledger posted applied d) (events : List Event) :
    Ledger (posted ++ d.along posts events) (applied ++ d.along applies events)
      (d.play events) := by
  induction events generalizing d posted applied with
  | nil => simpa [along, Desk.play] using ledger
  | cons e rest ih =>
    have later := ih (ledger.event e)
    rwa [List.append_assoc, List.append_assoc] at later

theorem ledger_play (reports : Bool) (events : List Event) :
    Ledger ((new reports).along posts events) ((new reports).along applies events)
      ((new reports).play events) := by
  simpa using (ledger_new reports).play events

theorem calls_dismiss (d : Desk) (n : Nat) : d.dismiss.calls[n]? = d.calls[n]?.map abandon := by
  simp [Desk.dismiss]

section Settled

variable {n : Nat} {c : Call}

theorem dismiss_of_settled (found : d.calls[n]? = some c) (settled : c.settled = true) :
    d.dismiss.calls[n]? = some c := by
  obtain ⟨ask, stage⟩ := c
  cases stage <;> simp_all [calls_dismiss, abandon, Call.settled]

/-- A call that has ended is none of those that may come to another stage. -/
theorem setStage_of_settled (found : d.calls[n]? = some c) (settled : c.settled = true)
    {call : Nat} {other : Call} (there : d.calls[call]? = some other)
    (unsettled : other.settled = false) (stage : Stage) :
    (d.setStage call stage).calls[n]? = some c := by
  rw [calls_setStage, if_neg, found]
  rintro rfl
  obtain rfl := Option.some.inj (found.symm.trans there)
  simp [settled] at unsettled

theorem post_of_settled (found : d.calls[n]? = some c) (settled : c.settled = true) (call : Nat) :
    (d.post call).calls[n]? = some c := by
  unfold Desk.post
  split
  · rename_i ask posting
    have kept := setStage_of_settled found settled posting rfl
    split
    · exact kept _
    split
    · split <;> exact kept _
    · exact found
  · exact found

theorem check_of_settled (found : d.calls[n]? = some c) (settled : c.settled = true) :
    d.check.calls[n]? = some c := by
  unfold Desk.check
  split
  · split
    · exact dismiss_of_settled found settled
    · exact found
  · exact found

theorem take_of_settled (found : d.calls[n]? = some c) (settled : c.settled = true) :
    d.take.calls[n]? = some c := by
  unfold Desk.take
  split
  · exact dismiss_of_settled (d := { d with notified := false }) found settled
  · exact found
  · exact found

theorem apply_of_settled (found : d.calls[n]? = some c) : d.apply.calls[n]? = some c := by
  unfold Desk.apply
  split <;> exact found

theorem Ledger.answer_of_settled (ledger : Ledger posted applied d)
    (found : d.calls[n]? = some c) (settled : c.settled = true) :
    d.answer.calls[n]? = some c := by
  unfold Desk.answer
  split
  · rename_i call runner
    obtain ⟨conn, waits⟩ := ledger.answers call runner
    exact setStage_of_settled found settled waits rfl _
  · exact found

theorem dropRunner_of_settled (found : d.calls[n]? = some c) (settled : c.settled = true) :
    d.dropRunner.calls[n]? = some c := by
  unfold Desk.dropRunner
  split
  · exact dismiss_of_settled found settled
  · exact dismiss_of_settled found settled
  · exact found

theorem answer_of_accepted {ask : Ask} (found : d.calls[n]? = some ⟨ask, .accepted⟩) :
    d.answer.calls[n]? = some ⟨ask, .accepted⟩ := by
  unfold Desk.answer
  split
  · rw [calls_setStage]
    split <;> simp [*]
  · exact found

/-- A call that has ended stays as it is, if the answers that the runner gives are not for it. -/
theorem settled_event (found : d.calls[n]? = some c) (settled : c.settled = true)
    (answered : d.answer.calls[n]? = some c) (e : Event) : (d.event e).calls[n]? = some c := by
  unfold Desk.event
  split
  · cases e with
    | move m =>
      cases m with
      | beginCall ask =>
        have bound := (List.getElem?_eq_some_iff.mp found).1
        exact (List.getElem?_append_left bound).trans found
      | post call => exact post_of_settled found settled call
      | check => exact check_of_settled found settled
      | take => exact take_of_settled found settled
      | apply => exact apply_of_settled found
      | answer => exact answered
      | halt | closeAll => exact found
    | direct s => exact found
    | dropRunner => exact dropRunner_of_settled found settled
  · exact found

theorem Ledger.settled_play (ledger : Ledger posted applied d) (found : d.calls[n]? = some c)
    (settled : c.settled = true) (events : List Event) : (d.play events).calls[n]? = some c := by
  induction events generalizing d posted applied with
  | nil => exact found
  | cons e rest ih =>
    exact ih (ledger.event e)
      (settled_event found settled (ledger.answer_of_settled found settled) e)

/-- What has been accepted stays so, whatever the runner may answer. -/
theorem accepted_play {ask : Ask} (found : d.calls[n]? = some ⟨ask, .accepted⟩)
    (events : List Event) : (d.play events).calls[n]? = some ⟨ask, .accepted⟩ := by
  induction events generalizing d with
  | nil => exact found
  | cons e rest ih => exact ih (settled_event found rfl (answer_of_accepted found) e)

end Settled

/-- The event is made for this call. -/
def concerns (d : Desk) (n : Nat) : Event → Bool
  | .move (.beginCall _) => d.calls.length == n
  | .move (.post call) => call == n
  | .move .apply => d.hand.any (Command.answers n)
  | .move .answer => d.answering n
  | _ => false

/-- Only the command of a call does anything to the hub. -/
theorem hub_of_concerns {n : Nat} {e : Event} (concerned : d.concerns n e = true)
    (spared : (d.applies e).filter (Command.answers n) = []) : (d.event e).hub = d.hub := by
  have nothing : d.deeds e = [] := by
    cases e with
    | move m =>
      cases m with
      | beginCall | post | answer => rfl
      | apply =>
        obtain ⟨command, taken, answers⟩ := List.any_eq_true.mp concerned
        exact absurd answers (List.filter_eq_nil_iff.mp spared command taken)
      | check | take | halt | closeAll => simp [concerns] at concerned
    | direct | dropRunner => simp [concerns] at concerned
  rw [hub_event, nothing]
  rfl

theorem length_applies (d : Desk) (e : Event) : (d.applies e).length ≤ 1 := by
  unfold applies
  split
  · unfold hand
    split <;> simp
  · simp

theorem stopping_event (stopping : d.hub.stopping = true) (e : Event) :
    (d.event e).hub.stopping = true := by
  rw [hub_event]
  exact Hub.stopping_run stopping (d.deeds e)

theorem stopping_play (stopping : d.hub.stopping = true) (events : List Event) :
    (d.play events).hub.stopping = true := by
  induction events generalizing d with
  | nil => exact stopping
  | cons e rest ih => exact ih (stopping_event stopping e)

theorem stopping_of_halted (d : Desk) {events : List Event} (halted : .move .halt ∈ events) :
    (d.play events).hub.stopping = true := by
  obtain ⟨past, rest, rfl⟩ := List.append_of_mem halted
  rw [play_append]
  exact stopping_play (d := (d.play past).event (.move .halt)) rfl rest

theorem beginCall_of_stopping (stopping : d.hub.stopping = true) {conn : ConnId}
    (known : (d.hub.connection? conn).isSome = true) :
    (d.event (.move (.beginCall (.register conn)))).calls[d.calls.length]? =
      some ⟨.register conn, .refused⟩ := by
  have permitted : d.permits (.move (.beginCall (.register conn))) = true := known
  simp [Desk.event, permitted, act, move, Desk.beginCall, stopping]

theorem Ledger.applied_of_accepted (ledger : Ledger posted applied d) {n : Nat} {conn : ConnId}
    (accepted : d.calls[n]? = some ⟨.register conn, .accepted⟩) :
    applied.filter (Command.answers n) = [.register conn n] := by
  simp [ledger.past, done, accepted, Call.done]

theorem Ledger.applied_of_refused (ledger : Ledger posted applied d) {n : Nat} {conn : ConnId}
    (refused : d.calls[n]? = some ⟨.register conn, .refused⟩) :
    applied.filter (Command.answers n) = [] := by
  simp [ledger.past, done, refused, Call.done]

theorem spared_of_refused {start : Desk} {past rest : List Event} {e : Event} {n : Nat}
    (spared : (start.along applies (past ++ e :: rest)).filter (Command.answers n) = [])
    (concerned : (start.play past).concerns n e = true) :
    ((start.play past).event e).hub = (start.play past).hub := by
  apply hub_of_concerns concerned
  rw [along_append, List.filter_append, List.append_eq_nil_iff, along, List.filter_append,
    List.append_eq_nil_iff] at spared
  exact spared.2.1

/-- However callers, the runner and others come in between each other: nothing but commands registers
or unregisters, one at a time, and they are applied in the order in which they were put into the
queue. A call to register that has been accepted had its command applied by then, and once; if it has
been refused its command is never applied, so nothing that is done for the call changes the hub. A
call to register that begins after the hub was told to stop is refused. -/
theorem commands_in_order (reports : Bool) (events : List Event) :
    let start := new reports
    let d := start.play events
    (∀ past e rest, events = past ++ e :: rest →
      ((start.play past).event e).hub =
          (start.play past).hub.run (((start.play past).applies e).map Command.deed ++ e.bypass) ∧
        ((start.play past).applies e).length ≤ 1 ∧ ∀ s ∈ e.bypass, s.bypasses = true) ∧
    (∃ lost, start.along posts events = start.along applies events ++ d.hand ++ d.inbox ++ lost ∧
      (d.runner ≠ .ended → lost = [])) ∧
    (∀ past rest, events = past ++ rest → ∀ n conn,
      ((start.play past).calls[n]? = some ⟨.register conn, .accepted⟩ →
        d.calls[n]? = some ⟨.register conn, .accepted⟩ ∧
        (start.along applies past).filter (Command.answers n) = [.register conn n] ∧
        (start.along applies events).filter (Command.answers n) = [.register conn n]) ∧
      ((start.play past).calls[n]? = some ⟨.register conn, .refused⟩ →
        d.calls[n]? = some ⟨.register conn, .refused⟩ ∧
        (start.along applies events).filter (Command.answers n) = [] ∧
        ∀ before e after, events = before ++ e :: after → (start.play before).concerns n e = true →
          ((start.play before).event e).hub = (start.play before).hub)) ∧
    ∀ past conn rest, events = past ++ .move (.beginCall (.register conn)) :: rest →
      .move .halt ∈ past → ((start.play past).hub.connection? conn).isSome = true →
      d.calls[(start.play past).calls.length]? = some ⟨.register conn, .refused⟩ := by
  intro start d
  have ledger := ledger_play reports events
  refine ⟨?_, by simpa [waiting] using ledger.order, ?_, ?_⟩
  · intro past e rest _
    refine ⟨hub_event _ e, length_applies _ e, ?_⟩
    intro s member
    unfold Event.bypass at member
    split at member
    · rw [List.mem_singleton.mp member]
      rfl
    · rw [List.mem_singleton.mp member]
      rfl
    · split at member
      · rename_i allowed
        rw [List.mem_singleton.mp member]
        exact allowed
      · simp at member
    · simp at member
  · intro past rest split n conn
    have before := ledger_play reports past
    refine ⟨fun accepted => ?_, fun refused => ?_⟩
    · have still := before.settled_play accepted rfl rest
      rw [← play_append, ← split] at still
      exact ⟨still, before.applied_of_accepted accepted, ledger.applied_of_accepted still⟩
    · have still := before.settled_play refused rfl rest
      rw [← play_append, ← split] at still
      have spared := ledger.applied_of_refused still
      refine ⟨still, spared, ?_⟩
      rintro before e after rfl concerned
      exact spared_of_refused spared concerned
  · rintro past conn rest rfl halted known
    have refused := beginCall_of_stopping (stopping_of_halted start halted) known
    have begun := (ledger_play reports past).event (.move (.beginCall (.register conn)))
    have still := begun.settled_play refused rfl rest
    change (start.play (past ++ _ :: rest)).calls[_]? = _
    rw [play_append]
    exact still

/-- Two devices call. The hub is told to stop while the first command is being answered; the second is
still queued then, and a third call comes too late. -/
theorem commands_in_order_three_calls :
    let user := Uuid.repeated 0
    let phone := Device.Info.plain (.repeated 1) "phone"
    let laptop := Device.Info.plain (.repeated 2) "laptop"
    let before : List Event := [.direct (.connect user phone.id phone 4),
      .direct (.connect user laptop.id laptop 4), .move (.beginCall (.register 0)),
      .move (.beginCall (.register 1)), .move (.post 0), .move (.post 1), .move .check,
      .move .take, .move .apply, .move .halt, .move .answer, .move .check]
    let events := before ++ [.move (.beginCall (.register 1))]
    let start := new true
    start.along posts events = [.register 0 0, .register 1 1] ∧
      (start.along applies events).filter (Command.answers 0) = [.register 0 0] ∧
      (start.along applies events).filter (Command.answers 1) = [] ∧
      (start.play events).calls[2]? = some ⟨.register 1, .refused⟩ := by
  intro user phone laptop before events start
  obtain ⟨-, -, ended, late⟩ := commands_in_order true events
  have accepted := (ended events [] (List.append_nil _).symm 0 0).1 (by decide +kernel)
  have refused := (ended events [] (List.append_nil _).symm 1 1).2 (by decide +kernel)
  refine ⟨by decide +kernel, accepted.2.2, refused.2.1, ?_⟩
  have begun : (start.play before).calls.length = 2 := by decide +kernel
  have last := late before 1 [] rfl (by decide +kernel) (by decide +kernel)
  rwa [begun] at last

end Desk
end SignalHub
