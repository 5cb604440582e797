import SignalHub.Proofs.Desk.Turns
import SignalHub.Proofs.Hub.Leave
import SignalHub.Proofs.World.Run

/-! However a serving comes to its end, its pump makes one call to unregister and goes on when the
command is in the queue (`Leaving`). The runner applies the command in its turn. So when the pump
has finished and nothing waits at the desk, the connection is closed for good and out of the
registry (`serving_cleans_up`). -/
namespace SignalHub

namespace Desk

variable {d : Desk} {conn : ConnId}

theorem hub_apply_unregister (holds : d.runner = .holding (.unregister conn)) :
    (d.event (.move .apply)).hub = d.hub.step (.unregister conn) := by
  have deeds : d.deeds (.move .apply) = [.unregister conn] := by
    simp [Desk.deeds, applies, hand, holds, Event.bypass, Command.deed]
  rw [hub_event, deeds]
  rfl

/-- The connection of a call is there when the command of the call is applied. -/
theorem Carried.known (reports : Bool) {call : Nat} {before between : List Event} {e : Event}
    (carried : Carried (new reports) call conn before e between) :
    ∃ c, ((new reports).play (before ++ e :: between)).hub.connection? conn = some c := by
  have asked : .unregister conn ∈ ((new reports).play before).calls.map Call.ask :=
    List.mem_map.mpr ⟨_, List.mem_of_getElem? carried.called, rfl⟩
  obtain ⟨c, found⟩ := known_play reports before (.unregister conn) asked
  rw [play_append, hub_play]
  obtain ⟨c', found', -⟩ := Hub.ages_run ((new reports).play before).hub _ conn c found
  exact ⟨c', found'⟩

/-- A call that was made after `past` is carried out after it too. -/
theorem Carried.late {call : Nat} {before between past rest after : List Event} {e : Event}
    (carried : Carried d call conn before e between)
    (late : (d.play past).calls.length ≤ call)
    (split : past ++ rest = before ++ e :: between ++ after) : past <+: before := by
  have order : past <+: before ∨ before <+: past := by
    rw [List.append_assoc] at split
    rcases List.append_eq_append_iff.mp split with ⟨more, same, -⟩ | ⟨more, same, -⟩
    · exact .inl ⟨more, same.symm⟩
    · exact .inr ⟨more, same.symm⟩
  refine order.resolve_right ?_
  rintro ⟨more, rfl⟩
  obtain ⟨stage, there⟩ := call_play carried.called more
  rw [← play_append] at there
  have bound := (List.getElem?_eq_some_iff.mp there).1
  omega

/-- What is registered in a run of the desk, in two parts. -/
theorem registrations_split (reports : Bool) (first rest : List Event) :
    (Hub.new reports).registrations ((new reports).along deeds (first ++ rest)) =
      (Hub.new reports).registrations ((new reports).along deeds first) ++
        ((new reports).play first).hub.registrations
          (((new reports).play first).along deeds rest) := by
  rw [along_append, Hub.registrations_append, hub_play]
  rfl

/-- A connection that was registered once, before its call was made, is out of the registry after the
command of the call has been applied. -/
theorem Carried.absent (reports : Bool) {call : Nat} {before between past rest after : List Event}
    {e : Event} (carried : Carried (new reports) call conn before e between)
    (late : ((new reports).play past).calls.length ≤ call)
    (split : past ++ rest = before ++ e :: between ++ .move .apply :: after)
    (registered : conn ∈ (Hub.new reports).registrations ((new reports).along deeds past))
    (once : ((Hub.new reports).registrations ((new reports).along deeds (past ++ rest))).count conn =
      1) :
    conn ∉ ((new reports).play (past ++ rest)).hub.registry.connections := by
  have valid := consistent_play reports (before ++ e :: between ++ [.move .apply])
  have out : conn ∉ ((new reports).play
      (before ++ e :: between ++ [.move .apply])).hub.registry.connections := by
    rw [play_append]
    change conn ∉ (((new reports).play _).event (.move .apply)).hub.registry.connections
    rw [hub_apply_unregister carried.holds]
    exact Hub.absent_unregister (consistent_play reports _) conn
  rw [split] at once ⊢
  obtain ⟨more, rfl⟩ := carried.late late split
  have whole : past ++ more ++ e :: between ++ .move .apply :: after =
      past ++ (more ++ e :: between ++ [.move .apply]) ++ after := by simp
  have turn : past ++ more ++ e :: between ++ [.move .apply] =
      past ++ (more ++ e :: between ++ [.move .apply]) := by simp
  have before := List.count_pos_iff.mpr registered
  rw [turn] at out valid
  rw [whole] at once ⊢
  rw [registrations_split, registrations_split, List.count_append, List.count_append] at once
  rw [play_append, hub_play]
  exact Hub.absent_run valid out (List.count_eq_zero.mp (by omega))

end Desk

/-- The call that a serving makes when it comes from one stage to another. -/
def Serving.called : Serving → Serving → Option Nat
  | .reading _, .unregistering call => some call
  | _, _ => none

theorem Serving.called_self (serving : Serving) : called serving serving = none := by
  cases serving <;> rfl

namespace World

variable {w : World} {m : Move} {i base : Nat} {p p' : Pump} {calls : List Nat}

/-- The calls to unregister that a pump makes in a move. -/
def farewells (i : Nat) (w : World) (m : Move) : List Nat :=
  w.observed m i fun p p' => (Serving.called p.serving p'.serving).toList

/-- How far a pump has come in leaving: it has made one call since there were `base` of them. -/
inductive Leaving (w : World) (p : Pump) (base : Nat) : List Nat → Prop where
  | reading (r : Reader) (serving : p.serving = .reading r) : Leaving w p base []
  | called (call : Nat) (stage : Stage) (serving : p.serving = .unregistering call)
      (late : base ≤ call) (asked : w.desk.calls[call]? = some ⟨.unregister p.conn, stage⟩) :
      Leaving w p base [call]
  | closing (call : Nat) (serving : p.serving = .closing) (late : base ≤ call)
      (accepted : w.desk.calls[call]? = some ⟨.unregister p.conn, .accepted⟩) :
      Leaving w p base [call]
  | ended (call : Nat) (c : Connection) (serving : p.serving = .done) (late : base ≤ call)
      (accepted : w.desk.calls[call]? = some ⟨.unregister p.conn, .accepted⟩)
      (found : w.hub.connection? p.conn = some c) (finished : c.Finished) : Leaving w p base [call]

theorem Leaving.of_same (leaving : Leaving w p base calls) (conn : p'.conn = p.conn)
    (serving : p'.serving = p.serving) : Leaving w p' base calls := by
  cases leaving with
  | reading r reading => exact .reading r (serving.trans reading)
  | called call stage unregistering late asked =>
    exact .called call stage (serving.trans unregistering) late (conn ▸ asked)
  | closing call closing late accepted =>
    exact .closing call (serving.trans closing) late (conn ▸ accepted)
  | ended call c done late accepted found finished =>
    exact .ended call c (serving.trans done) late (conn ▸ accepted) (conn ▸ found) finished

theorem accepted_proceed (sound : Sound w) {call : Nat} {conn : ConnId}
    (accepted : w.desk.calls[call]? = some ⟨.unregister conn, .accepted⟩) (m : Move) :
    (w.proceed m).desk.calls[call]? = some ⟨.unregister conn, .accepted⟩ := by
  rw [desk_proceed sound]
  exact Desk.accepted_play accepted _

theorem Leaving.still (leaving : Leaving w p base calls) (sound : Sound w) (m : Move) :
    Leaving (w.proceed m) p base calls := by
  cases leaving with
  | reading r reading => exact .reading r reading
  | called call stage unregistering late asked =>
    obtain ⟨later, there⟩ := Desk.call_play asked (w.doings m)
    rw [← desk_proceed sound] at there
    exact .called call later unregistering late there
  | closing call closing late accepted =>
    exact .closing call closing late (accepted_proceed sound accepted m)
  | ended call c done late accepted found finished =>
    obtain ⟨c', found', aged⟩ := ages_proceed sound m p.conn c found
    exact .ended call c' done late (accepted_proceed sound accepted m) found'
      (aged.finished finished)

/-- While the runner goes on, a call to unregister that waits no more has been accepted. -/
theorem accepted_of_posted (played : Played w) {call : Nat} {stage : Stage} {conn : ConnId}
    (asked : w.desk.calls[call]? = some ⟨.unregister conn, stage⟩)
    (posted : ∀ ask, (w.desk.post call).calls[call]? ≠ some ⟨ask, .posting⟩)
    (going : (w.desk.post call).runner ≠ .ended) :
    (w.desk.post call).calls[call]? = some ⟨.unregister conn, .accepted⟩ := by
  obtain ⟨reports, events, same⟩ := played
  obtain ⟨later, there⟩ : ∃ later,
      (w.desk.post call).calls[call]? = some ⟨.unregister conn, later⟩ :=
    Desk.call_play asked [.move (.post call)]
  have candid : (w.desk.post call).Candid := by
    have all := Desk.candid_play reports (events ++ [.move (.post call)])
    rwa [Desk.play_append, ← same] at all
  rcases candid call conn later there with posting | accepted | ⟨-, ended⟩
  · exact absurd (posting ▸ there) (posted _)
  · exact accepted ▸ there
  · exact absurd ended going

theorem Leaving.serve (leaving : Leaving w p base calls) (sound : Sound w) (played : Played w)
    (found : w.pumps[i]? = some p) (early : base ≤ w.desk.calls.length) {hasty : Bool}
    {events : List Desk.Event} (change : p.Change w.settings w.now w.desk events p')
    (desk : (w.proceed (.serve i hasty)).desk = w.desk.play events)
    (going : (w.proceed (.serve i hasty)).desk.runner ≠ .ended) :
    Leaving (w.proceed (.serve i hasty)) p' base
      (calls ++ (Serving.called p.serving p'.serving).toList) := by
  have still {q : Pump} (conn : q.conn = p.conn) (serving : q.serving = p.serving)
      (quiet : Serving.called p.serving q.serving = none) :
      Leaving (w.proceed (.serve i hasty)) q base
        (calls ++ (Serving.called p.serving q.serving).toList) := by
    rw [quiet, Option.toList_none, List.append_nil]
    exact (leaving.still sound _).of_same conn serving
  cases change with
  | read f rest deadline reading =>
    cases leaving with
    | reading r =>
      rw [reading]
      exact .reading _ rfl
    | called _ _ other | closing _ other | ended _ _ other => simp [reading] at other
  | wait deadline reading => exact still rfl rfl (by simp [reading, Serving.called])
  | leave r unread awake reading =>
    cases leaving with
    | reading _ =>
      have begun : (w.desk.play [p.farewell]).calls[w.desk.calls.length]? =
          some ⟨.unregister p.conn, .posting⟩ := by
        rw [← Pump.play_farewell (sound.found found)]
        simp [Desk.beginCall]
      rw [← desk] at begun
      rw [reading]
      exact .called w.desk.calls.length .posting rfl early begun
    | called _ _ other | closing _ other | ended _ _ other => simp [reading] at other
  | blocked call ask unregistering =>
    exact still rfl rfl (by simp [unregistering, Serving.called])
  | close call unregistering posted =>
    cases leaving with
    | called call' stage unregistering' late asked =>
      obtain rfl := Serving.unregistering.inj (unregistering.symm.trans unregistering')
      have calls : (w.proceed (.serve i hasty)).desk.calls = (w.desk.post call).calls ∧
          (w.proceed (.serve i hasty)).desk.runner = (w.desk.post call).runner := by
        rw [desk]
        exact ⟨rfl, rfl⟩
      have accepted := accepted_of_posted played asked posted (calls.2 ▸ going)
      rw [← calls.1] at accepted
      rw [unregistering]
      exact .closing call rfl late accepted
    | reading _ other | closing _ other | ended _ _ other => simp [unregistering] at other
  | finish closing ended =>
    cases leaving with
    | closing call _ late accepted =>
      obtain ⟨c, known⟩ := Option.isSome_iff_exists.mp (sound.found found)
      have still := accepted_proceed sound accepted (.serve i hasty)
      have shut : (w.proceed (.serve i hasty)).hub.connection? p.conn = some c.markClosed := by
        unfold hub
        rw [desk]
        change (w.hub.update p.conn Connection.markClosed).connection? p.conn = _
        simp [Hub.connection?_update, known]
      rw [closing]
      exact .ended call _ rfl late still shut ⟨rfl, rfl⟩
    | reading _ other | called _ _ other | ended _ _ other => simp [closing] at other
  | idle settled =>
    refine still rfl rfl ?_
    rcases settled with done | ⟨closing, -⟩
    · simp [done, Serving.called]
    · simp [closing, Serving.called]

theorem Leaving.turn (leaving : Leaving w p base calls) (sound : Sound w) (played : Played w)
    (found : w.pumps[i]? = some p) (early : base ≤ w.desk.calls.length)
    (going : (w.proceed m).desk.runner ≠ .ended) (own : m.pump? = some i) (turn : Turn w p m p') :
    Leaving (w.proceed m) p' base (calls ++ (Serving.called p.serving p'.serving).toList) := by
  have same (conn : p'.conn = p.conn) (serving : p'.serving = p.serving) :
      Leaving (w.proceed m) p' base (calls ++ (Serving.called p.serving p'.serving).toList) := by
    rw [serving, Serving.called_self, Option.toList_none, List.append_nil]
    exact (leaving.still sound m).of_same conn serving
  cases turn with
  | serve j hasty events q change done =>
    obtain rfl : j = i := Option.some.inj own
    have desk : (w.proceed (.serve j hasty)).desk = w.desk.play events := by
      rw [desk_proceed sound, doings_serve, found, ← done]
      rfl
    exact (leaving.serve sound played found early change desk going).of_same rfl rfl
  | write j pingFirst c o =>
    obtain ⟨unread, awake, wrote⟩ := p.wrote_eq w.now o
    exact same (by rw [wrote]) (by rw [wrote])
  | idle | arrive | setSink => exact same rfl rfl

theorem Leaving.proceed (leaving : Leaving w p base calls) (sound : Sound w) (played : Played w)
    (found : w.pumps[i]? = some p) (early : base ≤ w.desk.calls.length) (m : Move)
    (going : (w.proceed m).desk.runner ≠ .ended) :
    ∃ p', (w.proceed m).pumps[i]? = some p' ∧ p'.conn = p.conn ∧
      Leaving (w.proceed m) p' base (calls ++ w.farewells i m) := by
  obtain ⟨p', next, ⟨-, rfl⟩ | ⟨own, turn⟩⟩ := course found (sound.found found) m
  · refine ⟨p', next, rfl, ?_⟩
    rw [farewells, observed_eq found next, Serving.called_self, Option.toList_none, List.append_nil]
    exact leaving.still sound m
  · refine ⟨p', next, turn.conn, ?_⟩
    rw [farewells, observed_eq found next]
    exact leaving.turn sound played found early going own turn

theorem calls_proceed (sound : Sound w) (m : Move) :
    w.desk.calls.length ≤ (w.proceed m).desk.calls.length := by
  obtain ⟨begun, asks⟩ := Desk.asks_play w.desk (w.doings m)
  have longer := congrArg List.length asks
  simp only [← desk_proceed sound, List.length_map, List.length_append] at longer
  omega

theorem Leaving.follow (leaving : Leaving w p base calls) (sound : Sound w) (played : Played w)
    (found : w.pumps[i]? = some p) (early : base ≤ w.desk.calls.length) (moves : List Move)
    (going : (w.follow moves).desk.runner ≠ .ended) :
    ∃ p', (w.follow moves).pumps[i]? = some p' ∧ p'.conn = p.conn ∧
      Leaving (w.follow moves) p' base (calls ++ w.along (farewells i) moves) := by
  induction moves generalizing w p calls with
  | nil =>
    rw [along, List.append_nil]
    exact ⟨p, found, rfl, leaving⟩
  | cons m rest ih =>
    have still : (w.proceed m).desk.runner ≠ .ended := by
      have last : ((w.proceed m).follow rest).desk.runner ≠ .ended := going
      rw [desk_follow (sound.proceed m)] at last
      exact Desk.going_of_play last
    have later := Nat.le_trans early (calls_proceed sound m)
    obtain ⟨q, next, conn, now⟩ := leaving.proceed sound played found early m still
    obtain ⟨p', last, conn', final⟩ :=
      ih now (sound.proceed m) (played.proceed sound m) next later going
    rw [List.append_assoc] at final
    exact ⟨p', last, conn'.trans conn, final⟩

end World
end SignalHub
