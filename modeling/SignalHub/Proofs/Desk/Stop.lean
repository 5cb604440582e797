import SignalHub.Proofs.Desk.Calls

/-! Whoever stops the server tells the hub to stop, closes what is registered, and waits for the
runner to end. The runner takes no command once the hub was told to stop, but it may hold one that
it took before, and apply it after the registry has been emptied. What is left in the registry in
the end is what the runner was about to register then (`Drained`). -/
namespace SignalHub

/-- The connection that the runner is about to register. -/
def Runner.registering : Runner → List ConnId
  | .holding (.register conn _) => [conn]
  | _ => []

namespace Hub

def Step.drains : Step → Bool
  | .closeAll _ => true
  | _ => false

variable {h : Hub}

/-- Only commands and drains change the registry. -/
theorem registry_of_bypass (h : Hub) {s : Step} (bypass : s.bypasses = true)
    (spared : s.drains = false) : (h.step s).registry = h.registry := by
  rw [registry_step]
  cases s with
  | register | unregister | join | leave => simp [Step.bypasses] at bypass
  | closeAll => simp [Step.drains] at spared
  | connect | text | forward | broadcast | streamStart | streamEnd | send | close | receive
  | dropReceiver | finish | halt | release => rfl

theorem Consistent.registry_nil (valid : Consistent h) (nobody : h.registry.connections = []) :
    h.registry = [] := by
  cases stored : h.registry with
  | nil => rfl
  | cons p rest =>
    have empty : p.2 = [] := by
      simp only [stored, Registry.connections, List.flatMap_cons, List.append_eq_nil_iff,
        List.map_eq_nil_iff] at nobody
      exact nobody.1
    have first : h.registry.get? p.1 = some p.2 := by simp [stored, Table.get?]
    exact absurd (empty ▸ first) (valid.inhabited p.1)

theorem connections_register {id : ConnId} {c : Connection} (found : h.connection? id = some c)
    (empty : h.registry = []) : (h.register id).registry.connections = [id] := by
  have stored := registry_step h (.register id)
  rw [arrange, arrangeRegister, found, registry_enroll, empty] at stored
  change (h.step (.register id)).registry.connections = [id]
  rw [stored]
  rfl

theorem registry_unregister (id : ConnId) (empty : h.registry = []) :
    (h.unregister id).1.registry = [] := by
  unfold unregister
  split
  · exact empty
  · rw [empty, if_neg (by simp [Registry.lookup, Registry.devices, Table.get?])]
    exact empty

end Hub

namespace Desk

variable {posted applied : List Command} {d k : Desk}

def Known (d : Desk) : Prop :=
  ∀ ask ∈ d.calls.map Call.ask, ∃ c, d.hub.connection? ask.conn = some c

theorem ages_event (d : Desk) (e : Event) : Hub.Ages d.hub (d.event e).hub := by
  rw [hub_event]
  exact Hub.ages_run d.hub (d.deeds e)

theorem asks_setStage (d : Desk) (call : Nat) (stage : Stage) :
    (d.setStage call stage).calls.map Call.ask = d.calls.map Call.ask := by
  apply List.ext_getElem?
  intro n
  rw [List.getElem?_map, calls_setStage, List.getElem?_map]
  split <;> simp [Function.comp_def]

theorem asks_dismiss (d : Desk) : d.dismiss.calls.map Call.ask = d.calls.map Call.ask := by
  have kept : Call.ask ∘ abandon = Call.ask := by
    funext c
    simp only [Function.comp_apply, abandon]
    split <;> rfl
  simp [Desk.dismiss, kept]

theorem asks_post (d : Desk) (call : Nat) :
    (d.post call).calls.map Call.ask = d.calls.map Call.ask := by
  unfold Desk.post
  split
  · split
    · exact asks_setStage d call _
    split
    · split <;> exact asks_setStage d call _
    · rfl
  · rfl

theorem asks_check (d : Desk) : d.check.calls.map Call.ask = d.calls.map Call.ask := by
  unfold Desk.check
  split
  · split
    · exact asks_dismiss d
    · rfl
  · rfl

theorem asks_take (d : Desk) : d.take.calls.map Call.ask = d.calls.map Call.ask := by
  unfold Desk.take
  split
  · exact asks_dismiss { d with notified := false }
  · rfl
  · rfl

theorem asks_apply (d : Desk) : d.apply.calls.map Call.ask = d.calls.map Call.ask := by
  unfold Desk.apply
  split <;> rfl

theorem asks_answer (d : Desk) : d.answer.calls.map Call.ask = d.calls.map Call.ask := by
  unfold Desk.answer
  split
  · exact asks_setStage d _ _
  · rfl

theorem asks_dropRunner (d : Desk) :
    d.dropRunner.calls.map Call.ask = d.calls.map Call.ask := by
  unfold Desk.dropRunner
  split
  · exact asks_dismiss d
  · exact asks_dismiss d
  · rfl

/-- Only a call that begins adds to what is asked for. -/
theorem mem_asks_event {ask : Ask} {e : Event} (asked : ask ∈ (d.event e).calls.map Call.ask) :
    ask ∈ d.calls.map Call.ask ∨ e = .move (.beginCall ask) ∧ d.permits e = true := by
  unfold Desk.event at asked
  split at asked
  · rename_i permitted
    cases e with
    | move m =>
      cases m with
      | beginCall begun =>
        change ask ∈ (d.calls ++ [_]).map Call.ask at asked
        rw [List.map_append, List.mem_append] at asked
        rcases asked with before | new
        · exact .inl before
        · obtain rfl : ask = begun := by simpa using new
          exact .inr ⟨rfl, permitted⟩
      | post call => exact .inl (asks_post d call ▸ asked)
      | check => exact .inl (asks_check d ▸ asked)
      | take => exact .inl (asks_take d ▸ asked)
      | apply => exact .inl (asks_apply d ▸ asked)
      | answer => exact .inl (asks_answer d ▸ asked)
      | halt | closeAll => exact .inl asked
    | direct s => exact .inl asked
    | dropRunner => exact .inl (asks_dropRunner d ▸ asked)
  · exact .inl asked

theorem Known.event (known : Known d) (e : Event) : Known (d.event e) := by
  intro ask asked
  obtain ⟨c, found⟩ : ∃ c, d.hub.connection? ask.conn = some c := by
    rcases mem_asks_event asked with before | ⟨rfl, permitted⟩
    · exact known ask before
    · exact Option.isSome_iff_exists.mp permitted
  obtain ⟨c', found', -⟩ := ages_event d e _ c found
  exact ⟨c', found'⟩

theorem Known.play (known : Known d) (events : List Event) : Known (d.play events) := by
  induction events generalizing d with
  | nil => exact known
  | cons e rest ih => exact ih (known.event e)

theorem Known.of_holding (known : Known d) (ledger : Ledger posted applied d) {conn : ConnId}
    {call : Nat} (runner : d.runner = .holding (.register conn call)) :
    ∃ c, d.hub.connection? conn = some c := by
  have waits := (ledger.posted_of_holding runner).1
  exact known (.register conn) (List.mem_map.mpr ⟨_, List.mem_of_getElem? waits, rfl⟩)

theorem known_play (reports : Bool) (events : List Event) :
    Known ((new reports).play events) :=
  Known.play (by simp [Known, new]) events

theorem consistent_play (reports : Bool) (events : List Event) :
    Hub.Consistent ((new reports).play events).hub := by
  rw [hub_play]
  exact Hub.consistent_run reports _

theorem held_play (reports : Bool) (events : List Event) :
    Hub.Held ((Hub.new reports).registrations ((new reports).along deeds events))
      ((new reports).play events).hub := by
  rw [hub_play]
  exact Hub.held_run reports _

theorem mem_along {α : Type} {f : Desk → Event → List α} {a : α} {events : List Event}
    (member : a ∈ d.along f events) :
    ∃ past e rest, events = past ++ e :: rest ∧ a ∈ f (d.play past) e := by
  induction events generalizing d with
  | nil => simp [along] at member
  | cons e rest ih =>
    rcases List.mem_append.mp member with now | later
    · exact ⟨[], e, rest, rfl, now⟩
    · obtain ⟨past, e', future, rfl, there⟩ := ih later
      exact ⟨e :: past, e', future, rfl, there⟩

theorem mem_applies_iff {command : Command} {e : Event} :
    command ∈ d.applies e ↔ e = .move .apply ∧ d.runner = .holding command := by
  have taken : command ∈ d.hand ↔ d.runner = .holding command := by
    unfold hand
    cases d.runner <;> simp [eq_comm]
  unfold applies
  split
  · simp [taken]
  · rename_i other
    simpa using fun apply => absurd apply other

/-- The runner registers the connections that it is told to register. -/
theorem registered_of_applied (reports : Bool) {events : List Event} {conn : ConnId} {call : Nat}
    (done : .register conn call ∈ (new reports).along applies events) :
    conn ∈ (Hub.new reports).registrations ((new reports).along deeds events) := by
  obtain ⟨past, e, rest, rfl, applied⟩ := mem_along done
  obtain ⟨rfl, runner⟩ := mem_applies_iff.mp applied
  obtain ⟨c, found⟩ := (known_play reports past).of_holding (ledger_play reports past) runner
  have deeds : ((new reports).play past).deeds (.move .apply) = [.register conn] := by
    simp [Desk.deeds, applies, hand, runner, Event.bypass, Command.deed]
  have hub : (Hub.new reports).run ((new reports).along Desk.deeds past) =
      ((new reports).play past).hub := (hub_play (new reports) past).symm
  rw [along_append, along, deeds, Hub.registrations_append, hub]
  simp [Hub.registrations, Hub.enrolls, found]

/-- The runner will take no command any more. -/
structure Told (d : Desk) : Prop where
  stopping : d.hub.stopping = true
  noticed : d.runner = .waiting → d.notified = true

/-- What an event does to a runner that takes no more commands. -/
inductive Turn (d : Desk) (e : Event) : Prop where
  | stay (runner : (d.event e).runner = d.runner)
      (notified : d.notified = true → (d.event e).notified = true) (idle : d.applies e = [])
  | pause (runner : (d.event e).runner = .ended ∨ (d.event e).runner = .checking)
      (empty : d.hand = []) (idle : d.applies e = [])
  | apply (command : Command) (runner : d.runner = .holding command) (applying : e = .move .apply)

theorem Turn.of_same {e : Event} (same : d.event e = d) (idle : d.applies e = []) : Turn d e :=
  .stay (by rw [same]) (by rw [same]; exact id) idle

theorem post_frame (d : Desk) (call : Nat) :
    (d.post call).runner = d.runner ∧ (d.post call).notified = d.notified := by
  unfold Desk.post
  split
  · split
    · exact ⟨rfl, rfl⟩
    split
    · split <;> exact ⟨rfl, rfl⟩
    · exact ⟨rfl, rfl⟩
  · exact ⟨rfl, rfl⟩

theorem Told.turn (told : Told d) (e : Event) : Turn d e := by
  cases e with
  | move m =>
    cases m with
    | beginCall ask =>
      by_cases permitted : d.permits (.move (.beginCall ask)) = true
      · refine .stay ?_ ?_ rfl <;> simp [Desk.event, permitted, act, move, Desk.beginCall]
      · exact .of_same (if_neg permitted) rfl
    | post call =>
      obtain ⟨runner, notified⟩ := post_frame d call
      exact .stay runner (fun heard => notified.trans heard) rfl
    | check =>
      cases runner : d.runner with
      | checking =>
        refine .pause (.inl ?_) (by simp [hand, runner]) rfl
        change d.check.runner = .ended
        simp [Desk.check, runner, told.stopping, Desk.dismiss]
      | waiting | holding | answering | ended =>
        refine .of_same ?_ rfl
        change d.check = d
        simp [Desk.check, runner]
    | take =>
      cases runner : d.runner with
      | waiting =>
        refine .pause (.inl ?_) (by simp [hand, runner]) rfl
        change d.take.runner = .ended
        simp [Desk.take, runner, told.noticed runner, Desk.dismiss]
      | checking | holding | answering | ended =>
        refine .of_same ?_ rfl
        change d.take = d
        simp [Desk.take, runner]
    | apply =>
      cases runner : d.runner with
      | holding command => exact .apply command runner rfl
      | checking | waiting | answering | ended =>
        refine .of_same ?_ (by simp [applies, hand, runner])
        change d.apply = d
        simp [Desk.apply, runner]
    | answer =>
      cases runner : d.runner with
      | answering call =>
        refine .pause (.inr ?_) (by simp [hand, runner]) rfl
        change d.answer.runner = .checking
        simp [Desk.answer, runner]
      | checking | waiting | holding | ended =>
        refine .of_same ?_ rfl
        change d.answer = d
        simp [Desk.answer, runner]
    | halt => exact .stay rfl (fun _ => rfl) rfl
    | closeAll => exact .stay rfl id rfl
  | direct s =>
    by_cases permitted : d.permits (.direct s) = true
    · refine .stay ?_ ?_ rfl <;> simp [Desk.event, permitted, act]
    · exact .of_same (if_neg permitted) rfl
  | dropRunner =>
    cases runner : d.runner with
    | checking | waiting =>
      refine .pause (.inl ?_) (by simp [hand, runner]) rfl
      change d.dropRunner.runner = .ended
      simp [Desk.dropRunner, runner, Desk.dismiss]
    | holding | answering | ended =>
      refine .of_same ?_ rfl
      change d.dropRunner = d
      simp [Desk.dropRunner, runner]

theorem runner_apply {command : Command} (runner : d.runner = .holding command) :
    (d.event (.move .apply)).runner ≠ .waiting ∧
      ∀ other, (d.event (.move .apply)).runner ≠ .holding other := by
  change d.apply.runner ≠ .waiting ∧ ∀ other, d.apply.runner ≠ .holding other
  cases command <;> simp [Desk.apply, runner]

theorem Told.event (told : Told d) (e : Event) : Told (d.event e) where
  stopping := stopping_event told.stopping e
  noticed := by
    rcases told.turn e with ⟨runner, notified, -⟩ | ⟨runner, -, -⟩ | ⟨command, runner, rfl⟩
    · rw [runner]
      exact fun waiting => notified (told.noticed waiting)
    · intro waiting
      rcases runner with runner | runner <;> simp [runner] at waiting
    · exact fun waiting => absurd waiting (runner_apply runner).1

theorem Told.play (told : Told d) (events : List Event) : Told (d.play events) := by
  induction events generalizing d with
  | nil => exact told
  | cons e rest ih => exact ih (told.event e)

theorem told_halt (d : Desk) : Told (d.event (.move .halt)) := ⟨rfl, fun _ => rfl⟩

def Event.drains : Event → Bool
  | .move .closeAll => true
  | .direct s => s.drains
  | _ => false

/-- When the registry was emptied the runner was at `held`, and the registry has not been emptied
since: what it holds by now is what the runner was about to register then. -/
structure Drained (held : Runner) (d : Desk) : Prop where
  told : Told d
  same : ∀ command, d.runner = .holding command → held = .holding command
  left : d.hub.registry.connections ++ d.runner.registering = held.registering

theorem drained_closeAll (told : Told d) : Drained d.runner (d.event (.move .closeAll)) := by
  refine ⟨told.event _, fun _ runner => runner, ?_⟩
  have empty : (d.event (.move .closeAll)).hub.registry = [] := Hub.registry_closeAll d.hub true
  rw [empty]
  rfl

theorem registry_idle {e : Event} (idle : d.applies e = []) (spared : e.drains = false) :
    (d.event e).hub.registry = d.hub.registry := by
  rw [hub_event, deeds, idle, List.map_nil, List.nil_append]
  cases e with
  | move m =>
    cases m with
    | halt => rfl
    | closeAll => simp [Event.drains] at spared
    | beginCall | post | check | take | apply | answer => rfl
  | direct s =>
    rw [Event.bypass]
    split
    · rename_i bypass
      exact Hub.registry_of_bypass d.hub bypass spared
    · rfl
  | dropRunner => rfl

theorem registering_of_hand (empty : d.hand = []) : d.runner.registering = [] := by
  unfold hand at empty
  split at empty
  · simp at empty
  · rename_i idle
    cases runner : d.runner with
    | holding command => exact absurd runner (idle command)
    | checking | waiting | answering | ended => rfl

theorem Drained.event {held : Runner} (drained : Drained held d) (known : Known d)
    (ledger : Ledger posted applied d) (valid : Hub.Consistent d.hub) {e : Event}
    (spared : e.drains = false) : Drained held (d.event e) := by
  have left := drained.left
  rcases drained.told.turn e with ⟨runner, -, idle⟩ | ⟨runner, empty, idle⟩ |
    ⟨command, runner, rfl⟩
  · refine ⟨drained.told.event e, by rw [runner]; exact drained.same, ?_⟩
    rw [registry_idle idle spared, runner, left]
  · refine ⟨drained.told.event e, ?_, ?_⟩
    · intro command holding
      rcases runner with runner | runner <;> simp [runner] at holding
    · rw [registering_of_hand empty] at left
      rw [registry_idle idle spared, ← left]
      rcases runner with runner | runner <;> rw [runner] <;> rfl
  · refine ⟨drained.told.event _, fun other holding => absurd holding ((runner_apply runner).2 other),
      ?_⟩
    rw [drained.same command runner, runner] at left
    have nobody := valid.registry_nil (List.append_left_eq_self.mp left)
    rw [drained.same command runner]
    change d.apply.hub.registry.connections ++ d.apply.runner.registering = _
    cases command with
    | register conn call =>
      obtain ⟨c, found⟩ := known.of_holding ledger runner
      have alone := Hub.connections_register found nobody
      simp [Desk.apply, runner, alone, Runner.registering]
    | unregister conn =>
      have still := Hub.registry_unregister conn nobody
      simp [Desk.apply, runner, still, Runner.registering, Registry.connections]

theorem drained_play (reports : Bool) {past rest : List Event} {held : Runner}
    (drained : Drained held ((new reports).play past)) (spared : ∀ e ∈ rest, e.drains = false) :
    Drained held ((new reports).play (past ++ rest)) := by
  induction rest generalizing past with
  | nil => simpa using drained
  | cons e rest ih =>
    have next := drained.event (known_play reports past) (ledger_play reports past)
      (consistent_play reports past) (spared e List.mem_cons_self)
    have taken : Drained held ((new reports).play (past ++ [e])) := by
      rw [play_append]
      exact next
    have later := ih taken fun e' member => spared e' (List.mem_cons_of_mem e member)
    rwa [List.append_assoc] at later

/-- A connection that was accepted and is open is in the registry. -/
theorem registered_of_accepted (reports : Bool) {events : List Event} {n : Nat} {conn : ConnId}
    (accepted : ((new reports).play events).calls[n]? = some ⟨.register conn, .accepted⟩)
    (open_ : ((new reports).play events).hub.isOpen conn = true) :
    conn ∈ ((new reports).play events).hub.registry.connections := by
  have ledger := ledger_play reports events
  have once := ledger.applied_of_accepted accepted
  have applied : .register conn n ∈ (new reports).along applies events :=
    (List.mem_filter.mp (once ▸ List.mem_singleton_self _)).1
  have member := registered_of_applied reports applied
  obtain ⟨c, found, sender⟩ := (Hub.isOpen_iff _ conn).mp open_
  have stored := (held_play reports events).registered conn member c found sender
  exact Registry.mem_connections_of_lookup stored

/-- Nothing is registered, and what was accepted is closed. -/
def Quiet (d : Desk) : Prop :=
  d.hub.registry = [] ∧ ∀ (n : Nat) (conn : ConnId),
    d.calls[n]? = some ⟨.register conn, .accepted⟩ → d.hub.isOpen conn = false

/-- What goes on before, between and after the two things that whoever stops the server does. -/
def stopped (before middle after : List Event) : List Event :=
  before ++ .move .halt :: middle ++ .move .closeAll :: after

/-- Whoever stops the server tells the hub to stop, closes what is registered and waits until the
runner has ended. What is registered then is what the runner was about to register when the registry
was emptied for the last time, and nothing else that was accepted is open. So nothing is left alive
exactly if the runner was not about to register anything at that time. -/
theorem stop_quiet_iff (reports : Bool) (before middle after : List Event)
    (spared : ∀ e ∈ after, e.drains = false)
    (ended : ((new reports).play (stopped before middle after)).runner = .ended) :
    let held := ((new reports).play (before ++ .move .halt :: middle)).runner
    let d := (new reports).play (stopped before middle after)
    d.hub.registry.connections = held.registering ∧
    (∀ (n : Nat) (conn : ConnId), d.calls[n]? = some ⟨.register conn, .accepted⟩ →
      d.hub.isOpen conn = true → conn ∈ held.registering) ∧
    (d.Quiet ↔ held.registering = []) := by
  intro held d
  have drained : Drained held d := by
    have told : Told ((new reports).play (before ++ .move .halt :: middle)) := by
      rw [play_append]
      exact (told_halt _).play middle
    have emptied : Drained held
        ((new reports).play (before ++ .move .halt :: middle ++ [.move .closeAll])) := by
      rw [play_append]
      exact drained_closeAll told
    have later := drained_play reports emptied spared
    rwa [List.append_assoc] at later
  have gone : d.runner = .ended := ended
  have left : d.hub.registry.connections = held.registering := by
    simpa [gone, Runner.registering] using drained.left
  have open_of_accepted (n : Nat) (conn : ConnId)
      (accepted : d.calls[n]? = some ⟨.register conn, .accepted⟩)
      (open_ : d.hub.isOpen conn = true) : conn ∈ held.registering :=
    left ▸ registered_of_accepted reports accepted open_
  refine ⟨left, open_of_accepted, ?_, ?_⟩
  · rintro ⟨empty, -⟩
    rw [← left, empty]
    rfl
  · intro nothing
    have valid : Hub.Consistent d.hub := consistent_play reports _
    refine ⟨valid.registry_nil (left.trans nothing), fun n conn accepted => ?_⟩
    apply Bool.eq_false_iff.mpr
    intro open_
    simpa [nothing] using open_of_accepted n conn accepted open_

/-- A device calls, and the runner takes the command. -/
def callTaken (user device : Uuid) : List Event :=
  [.direct (.connect user device (.plain device "phone") 4), .move (.beginCall (.register 0)),
    .move .check, .move (.post 0), .move .take]

/-- The registry is emptied after the runner has registered the device. -/
theorem stop_quiet_applied :
    let d := (new true).play (stopped (callTaken (.repeated 0) (.repeated 1)) [.move .apply]
      [.move .answer, .move .check])
    d.runner = .ended ∧ d.calls[0]? = some ⟨.register 0, .accepted⟩ ∧ d.Quiet := by
  intro d
  have ended : d.runner = .ended := by decide +kernel
  have quiet := (stop_quiet_iff true (callTaken (.repeated 0) (.repeated 1)) [.move .apply]
    [.move .answer, .move .check] (by decide) ended).2.2
  exact ⟨ended, by decide +kernel, quiet.mpr (by decide +kernel)⟩

/-- The registry is emptied while the runner holds the command: the device stays registered and open,
and its call is accepted. -/
theorem stop_leaves_registered :
    ¬∀ before middle after : List Event,
      let d := (new true).play (stopped before middle after)
      d.runner = .ended → d.Quiet := by
  intro quiet
  have closed := (quiet (callTaken (.repeated 0) (.repeated 1)) []
    [.move .apply, .move .answer, .move .check] (by decide +kernel)).2 0 0 (by decide +kernel)
  exact absurd closed (by decide +kernel)

/-- The hub comes to the same as when the registry is emptied first and the device calls then. -/
example :
    let connect : Hub.Step := .connect (.repeated 0) (.repeated 1) (.plain (.repeated 1) "phone") 4
    ((new true).play [.direct connect, .move (.beginCall (.register 0)), .move .check,
      .move (.post 0), .move .take, .move .halt, .move .closeAll, .move .apply, .move .answer,
      .move .check]).hub =
        (Hub.new true).run [connect, .closeAll true, .join 0, .halt] := by
  decide +kernel

end Desk
end SignalHub
