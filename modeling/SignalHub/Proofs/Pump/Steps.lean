import SignalHub.Pump.Basic
import SignalHub.Proofs.Desk.Stop
import SignalHub.Proofs.Hub.Channel

/-! What the writing and the serving side of a pump can do in one step (`Writer.change`,
`Pump.change`). To the hub and its desk each step is something that callers do: the writer receives
from the queue and closes it, the serving side passes on what it reads, makes a call to unregister
and closes the connection (`desk_serve`, `desk_write`). -/
namespace SignalHub

theorem Connection.take?_eq (c : Connection) :
    c.take? = c.queue.head?.map fun o => (o, c.dropFirst) := by
  unfold take? dropFirst
  cases c.queue <;> rfl

/-- The connection whose queue a step reads, or which a step closes for good. -/
def Hub.Step.reader? : Hub.Step → Option ConnId
  | .receive conn | .dropReceiver conn | .finish conn => some conn
  | _ => none

namespace Hub

theorem update_const {h : Hub} {id : ConnId} {c : Connection} (found : h.connection? id = some c)
    (f : Connection → Connection) : (h.update id fun _ => f c) = h.update id f := by
  have same : h.connections.modify id (fun _ => f c) = h.connections.modify id f := by
    apply List.ext_getElem?
    intro j
    by_cases own : id = j
    · subst own
      have here : h.connections[id]? = some c := found
      simp [here]
    · simp [own]
  simp [update, same]

theorem update_id (h : Hub) (id : ConnId) : (h.update id fun c => c) = h := by
  have same : h.connections.modify id (fun c => c) = h.connections := by
    apply List.ext_getElem?
    intro j
    rw [List.getElem?_modify]
    split <;> simp
  simp [update, same]

end Hub

/-- The socket takes what is written. -/
def Sink.accepts (sink : Sink) : Bool := !sink.failing && !sink.stalled

namespace Writer

/-- Everything that one step of a writer can do. -/
inductive Change (s : Settings) (now : Nat) (sink : Sink) (c : Connection) (w : Writer) :
    Outcome → Prop where
  | take (o : Outbound) (rest : List Outbound) (idle : w.stage = .idle)
      (waiting : c.queue = o :: rest) :
      Change s now sink c w
        ⟨c.dropFirst, { w with stage := .writing (.outbound o) (now + s.writeWait) }, []⟩
  | last (idle : w.stage = .idle) (empty : c.queue = []) (closed : c.senderOpen = false) :
      Change s now sink c w ⟨c, { w with stage := .writing .close (now + s.writeWait) }, []⟩
  | ping (idle : w.stage = .idle) (due : w.nextPing ≤ now) :
      Change s now sink c w
        ⟨c, ⟨w.nextPing + s.pingPeriod, .writing .ping (now + s.writeWait)⟩, []⟩
  | written (job : Job) (deadline : Nat) (writing : w.stage = .writing job deadline)
      (more : job ≠ .close) (accepts : sink.accepts = true) :
      Change s now sink c w ⟨c, { w with stage := .idle }, [job.written]⟩
  | farewell (deadline : Nat) (writing : w.stage = .writing .close deadline)
      (accepts : sink.accepts = true) :
      Change s now sink c w ⟨c.close, { w with stage := .ended }, [.close, .closed]⟩
  | broken (job : Job) (deadline : Nat) (writing : w.stage = .writing job deadline)
      (refused : sink.failing = true ∨ sink.stalled = true ∧ deadline ≤ now) :
      Change s now sink c w ⟨c.close, { w with stage := .ended }, [.closed]⟩

variable {s : Settings} {now : Nat} {sink : Sink} {c : Connection} {w : Writer} {o : Outcome}

theorem change_serveQueue (idle : w.stage = .idle) (step : serveQueue? s now c w = some o) :
    Change s now sink c w o := by
  unfold serveQueue? at step
  rw [c.take?_eq] at step
  cases waiting : c.queue with
  | cons first rest =>
    simp only [waiting, List.head?_cons, Option.map_some, Option.some.injEq] at step
    exact step ▸ .take first rest idle waiting
  | nil =>
    simp only [waiting, List.head?_nil, Option.map_none] at step
    split at step
    · contradiction
    · rename_i closed
      exact Option.some.inj step ▸ .last idle waiting (Bool.eq_false_iff.mpr closed)

theorem change_ping (idle : w.stage = .idle) (step : ping? s now c w = some o) :
    Change s now sink c w o := by
  unfold ping? at step
  split at step
  · rename_i due
    exact Option.some.inj step ▸ .ping idle due
  · contradiction

theorem change {pingFirst : Bool} (step : w.step? s now sink pingFirst c = some o) :
    Change s now sink c w o := by
  unfold step? at step
  cases stage : w.stage with
  | ended => simp [stage] at step
  | writing job deadline =>
    simp only [stage] at step
    split at step
    · rename_i failing
      exact Option.some.inj step ▸ .broken job deadline stage (.inl failing)
    split at step
    · rename_i failing stalled
      have accepts : sink.accepts = true := by
        simp_all [Sink.accepts]
      cases job with
      | close => exact Option.some.inj step ▸ .farewell deadline stage accepts
      | outbound item =>
        exact Option.some.inj step ▸ .written (.outbound item) deadline stage (by simp) accepts
      | ping => exact Option.some.inj step ▸ .written .ping deadline stage (by simp) accepts
    split at step
    · rename_i stalled late
      exact Option.some.inj step ▸ .broken job deadline stage (.inr ⟨by simpa using stalled, late⟩)
    · contradiction
  | idle =>
    simp only [stage] at step
    split at step
    · rcases Option.or_eq_some_iff.mp step with first | ⟨-, second⟩
      · exact change_ping stage first
      · exact change_serveQueue stage second
    · rcases Option.or_eq_some_iff.mp step with first | ⟨-, second⟩
      · exact change_serveQueue stage first
      · exact change_ping stage second

/-- What a writer does to the hub when it comes from one stage to another. -/
def deeds (conn : ConnId) : WriterStage → WriterStage → List Hub.Step
  | .idle, .writing (.outbound _) _ => [.receive conn]
  | .writing _ _, .ended => [.close conn]
  | _, _ => []

theorem mem_deeds {conn : ConnId} {before after : WriterStage} {step : Hub.Step}
    (member : step ∈ deeds conn before after) : step = .receive conn ∨ step = .close conn := by
  unfold deeds at member
  split at member
  · exact .inl (List.mem_singleton.mp member)
  · exact .inr (List.mem_singleton.mp member)
  · simp at member

theorem Change.hub (change : Change s now sink c w o) {h : Hub} {conn : ConnId}
    (found : h.connection? conn = some c) :
    (h.update conn fun _ => o.connection) = h.run (deeds conn w.stage o.writer.stage) := by
  have same := (Hub.update_const found fun c => c).trans (h.update_id conn)
  cases change with
  | take item rest idle waiting =>
    rw [idle]
    exact Hub.update_const found Connection.dropFirst
  | last idle | ping idle =>
    rw [idle]
    exact same
  | written job deadline writing =>
    rw [writing]
    exact same
  | farewell deadline writing | broken job deadline writing =>
    rw [writing]
    exact Hub.update_const found Connection.close

end Writer

namespace Frame

/-- What reading a frame makes the client do to the hub. -/
def deeds (conn : ConnId) : Frame → List Hub.Step
  | .text raw => [.text conn raw]
  | .binary bytes =>
    match Utf8.text? bytes with
    | some raw => [.text conn raw]
    | none => [.send conn (.message (.error Inbound.Refusal.notAnEnvelope.report))]
  | _ => []

theorem handle_eq_run (f : Frame) (h : Hub) (conn : ConnId) :
    f.handle h conn = h.run (f.deeds conn) := by
  cases f with
  | binary bytes =>
    cases text : Utf8.text? bytes <;> simp only [handle, deeds, text] <;> rfl
  | text | ping | pong | close | failure | finish => rfl

/-- Reading a frame does nothing to the hub but let it handle a text or offer an answer. -/
theorem mem_deeds {f : Frame} {conn : ConnId} {s : Hub.Step} (member : s ∈ f.deeds conn) :
    (∃ raw, s = .text conn raw) ∨ ∃ o, s = .send conn o := by
  cases f with
  | binary bytes =>
    rw [deeds] at member
    split at member
    · exact .inl ⟨_, List.mem_singleton.mp member⟩
    · exact .inr ⟨_, List.mem_singleton.mp member⟩
  | text raw => exact .inl ⟨raw, List.mem_singleton.mp member⟩
  | ping | pong | close | failure | finish => cases member

theorem bypasses_deeds {f : Frame} {conn : ConnId} {s : Hub.Step} (member : s ∈ f.deeds conn) :
    s.bypasses = true := by
  rcases mem_deeds member with ⟨raw, rfl⟩ | ⟨o, rfl⟩ <;> rfl

end Frame

namespace Desk

/-- What is done without the desk is done to the hub and changes nothing else. -/
theorem play_direct (d : Desk) {steps : List Hub.Step} (direct : ∀ s ∈ steps, s.bypasses = true) :
    d.play (steps.map .direct) = { d with hub := d.hub.run steps } := by
  induction steps generalizing d with
  | nil => rfl
  | cons s rest ih =>
    have permitted : d.permits (.direct s) = true := direct s List.mem_cons_self
    have first : d.event (.direct s) = { d with hub := d.hub.step s } := if_pos permitted
    rw [List.map_cons]
    change (d.event (.direct s)).play (rest.map .direct) = _
    rw [first, ih _ fun t member => direct t (List.mem_cons_of_mem s member)]
    rfl

theorem along_direct (d : Desk) {steps : List Hub.Step}
    (direct : ∀ s ∈ steps, s.bypasses = true) : d.along deeds (steps.map .direct) = steps := by
  induction steps generalizing d with
  | nil => rfl
  | cons s rest ih =>
    have allowed : s.bypasses = true := direct s List.mem_cons_self
    have first : d.deeds (.direct s) = [s] := by simp [deeds, applies, Event.bypass, allowed]
    rw [List.map_cons, along, first, ih _ fun t member => direct t (List.mem_cons_of_mem s member)]
    rfl

end Desk

namespace Pump

/-- The call that ends the serving begins. -/
def farewell (p : Pump) : Desk.Event := .move (.beginCall (.unregister p.conn))

/-- What one step of the serving side does at the desk. -/
def serveDoings (s : Settings) (now : Nat) (hasty : Bool) (d : Desk) (p : Pump) : List Desk.Event :=
  match p.serving with
  | .reading r =>
    if (hasty || p.unread.isEmpty) && p.writer.ended then [p.farewell]
    else match p.unread, r with
      | f :: _, .reading _ =>
        if f.terminates s then [p.farewell] else (f.deeds p.conn).map .direct
      | [], .reading deadline => if deadline ≤ now then [p.farewell] else []
      | _, .ended => [p.farewell]
  | .unregistering call =>
    match (d.post call).calls[call]? with
    | some ⟨_, .posting⟩ => [.move (.post call)]
    | _ => [.move (.post call), .direct (.close p.conn)]
  | .closing => if p.writer.ended then [.direct (.finish p.conn)] else []
  | .done => []

/-- Everything that one step of the serving side can do. -/
inductive Change (s : Settings) (now : Nat) (d : Desk) (p : Pump) :
    List Desk.Event → Pump → Prop where
  | read (f : Frame) (rest : List Frame) (deadline : Nat)
      (reading : p.serving = .reading (.reading deadline)) (next : p.unread = f :: rest)
      (more : f.terminates s = false) :
      Change s now d p ((f.deeds p.conn).map .direct)
        { p with
          unread := rest
          awake := !rest.isEmpty
          serving := .reading (.reading (now + s.pongWait)) }
  | wait (deadline : Nat) (reading : p.serving = .reading (.reading deadline))
      (nothing : p.unread = []) (early : now < deadline) :
      Change s now d p [] { p with awake := false }
  | leave (r : Reader) (unread : List Frame) (awake : Bool) (reading : p.serving = .reading r)
      (why : p.writer.ended = true ∨ (∃ f ∈ p.unread, f.terminates s = true) ∨ r = .ended ∨
        ∃ deadline ≤ now, r = .reading deadline)
      (fewer : unread.length ≤ p.unread.length) :
      Change s now d p [p.farewell]
        { p with unread := unread, awake := awake, serving := .unregistering d.calls.length }
  | blocked (call : Nat) (ask : Ask) (unregistering : p.serving = .unregistering call)
      (posting : (d.post call).calls[call]? = some ⟨ask, .posting⟩) :
      Change s now d p [.move (.post call)] p
  | close (call : Nat) (unregistering : p.serving = .unregistering call)
      (posted : ∀ ask, (d.post call).calls[call]? ≠ some ⟨ask, .posting⟩) :
      Change s now d p [.move (.post call), .direct (.close p.conn)] { p with serving := .closing }
  | finish (closing : p.serving = .closing) (ended : p.writer.ended = true) :
      Change s now d p [.direct (.finish p.conn)]
        { p with serving := .done, events := (now, .done) :: p.events }
  | idle (settled : p.serving = .done ∨ p.serving = .closing ∧ p.writer.ended = false) :
      Change s now d p [] p

variable {s : Settings} {now : Nat} {hasty : Bool} {d : Desk} {p : Pump}

/-- A step of the serving side changes the pump in one of these ways and does at the desk what goes
with it. -/
def Serves (s : Settings) (now : Nat) (hasty : Bool) (d : Desk) (p : Pump) : Prop :=
  Change s now d p (p.serveDoings s now hasty d) (p.serve s now hasty d).2 ∧
    (p.serve s now hasty d).1 = d.play (p.serveDoings s now hasty d)

/-- No frame arrives in a step of the serving side. -/
theorem Change.unread {events : List Desk.Event} {p' : Pump} (change : Change s now d p events p') :
    p'.unread.length ≤ p.unread.length := by
  cases change with
  | read f rest deadline reading next => simp [next]
  | leave r unread awake reading why fewer => exact fewer
  | wait | blocked | close | finish | idle => exact Nat.le_refl _

/-- What the serving side does to the hub without the desk. -/
theorem Change.direct {events : List Desk.Event} {p' : Pump} (change : Change s now d p events p')
    {step : Hub.Step} (member : .direct step ∈ events) :
    (∃ f : Frame, step ∈ f.deeds p.conn) ∨ step = .close p.conn ∨ step = .finish p.conn := by
  cases change with
  | read f rest deadline =>
    obtain ⟨t, deed, same⟩ := List.mem_map.mp member
    obtain rfl := Desk.Event.direct.inj same
    exact .inl ⟨f, deed⟩
  | leave | blocked => simp [farewell] at member
  | close => exact .inr (.inl (by simpa using member))
  | finish => exact .inr (.inr (by simpa using member))
  | wait | idle => simp at member

theorem play_farewell (known : (d.hub.connection? p.conn).isSome = true) :
    d.beginCall (.unregister p.conn) = d.play [p.farewell] := by
  have permitted : d.permits p.farewell = true := known
  exact (if_pos permitted).symm

theorem serves_reading {r : Reader} (known : (d.hub.connection? p.conn).isSome = true)
    (reading : p.serving = .reading r) : Serves s now hasty d p := by
  have bye := play_farewell known
  unfold Serves serveDoings serve
  simp only [reading]
  split
  · rename_i hurried
    have ended : p.writer.ended = true := (Bool.and_eq_true_iff.mp hurried).2
    exact ⟨.leave r p.unread p.awake reading (.inl ended) (Nat.le_refl _), bye⟩
  cases next : p.unread with
  | nil =>
    cases r with
    | ended =>
      simp only [Pump.read, next, Reader.wait, leave]
      exact ⟨.leave .ended [] false reading (.inr (.inr (.inl rfl))) (Nat.zero_le _), bye⟩
    | reading deadline =>
      simp only [Pump.read, next, Reader.wait, leave]
      by_cases late : deadline ≤ now
      · simp only [late, ↓reduceIte]
        have why : ∃ due ≤ now, Reader.reading deadline = .reading due := ⟨deadline, late, rfl⟩
        exact ⟨.leave _ [] false reading (.inr (.inr (.inr why))) (Nat.zero_le _), bye⟩
      · simp only [late, ↓reduceIte]
        have waited := Change.wait (s := s) (d := d) deadline reading next (Nat.lt_of_not_le late)
        exact ⟨by simpa [reading, next] using waited, rfl⟩
  | cons f rest =>
    have fewer : rest.length ≤ p.unread.length := by simp [next]
    cases r with
    | ended =>
      simp only [Pump.read, next, Reader.receive, leave]
      exact ⟨.leave .ended rest (!rest.isEmpty) reading (.inr (.inr (.inl rfl))) fewer, bye⟩
    | reading deadline =>
      simp only [Pump.read, next, Reader.receive, leave]
      cases last : f.terminates s with
      | true =>
        have why : ∃ f ∈ p.unread, f.terminates s = true := ⟨f, by simp [next], last⟩
        exact ⟨.leave _ rest (!rest.isEmpty) reading (.inr (.inl why)) fewer, bye⟩
      | false =>
        simp only [Bool.false_eq_true, ↓reduceIte]
        refine ⟨.read f rest deadline reading next last, ?_⟩
        rw [Desk.play_direct d fun step member => f.bypasses_deeds member, ← f.handle_eq_run]

theorem serves (known : (d.hub.connection? p.conn).isSome = true) : Serves s now hasty d p := by
  cases serving : p.serving with
  | reading r => exact serves_reading known serving
  | unregistering call =>
    unfold Serves serveDoings serve
    simp only [serving]
    cases there : (d.post call).calls[call]? with
    | none => exact ⟨.close call serving (by simp [there]), rfl⟩
    | some c =>
      obtain ⟨ask, stage⟩ := c
      cases stage with
      | posting => exact ⟨.blocked call ask serving there, rfl⟩
      | posted | accepted | refused => exact ⟨.close call serving (by simp [there]), rfl⟩
  | closing =>
    unfold Serves serveDoings serve
    simp only [serving]
    split
    · rename_i ended
      exact ⟨.finish serving ended, rfl⟩
    · rename_i writing
      exact ⟨.idle (.inr ⟨serving, Bool.eq_false_iff.mpr writing⟩), rfl⟩
  | done =>
    unfold Serves serveDoings serve
    simp only [serving]
    exact ⟨.idle (.inl serving), rfl⟩

/-- What one step of the writing side does at the desk. -/
def writeDoings (s : Settings) (now : Nat) (pingFirst : Bool) (d : Desk) (p : Pump) :
    List Desk.Event :=
  match p.write? s now pingFirst d with
  | none => []
  | some (_, after) => (Writer.deeds p.conn p.writer.stage after.writer.stage).map .direct

/-- The pump after its writer has made a step. -/
def wrote (p : Pump) (now : Nat) (o : Writer.Outcome) : Pump :=
  { p with
    writer := o.writer
    events := (o.written.map fun w => (now, Event.written w)).reverse ++ p.events }.answered o.written

theorem bypasses_writerDeeds {conn : ConnId} {before after : WriterStage} {step : Hub.Step}
    (member : step ∈ Writer.deeds conn before after) : step.bypasses = true := by
  rcases Writer.mem_deeds member with rfl | rfl <;> rfl

theorem mem_writeDoings {pingFirst : Bool} {step : Hub.Step}
    (member : .direct step ∈ p.writeDoings s now pingFirst d) :
    step = .receive p.conn ∨ step = .close p.conn := by
  unfold writeDoings at member
  split at member
  · simp at member
  · obtain ⟨t, deed, same⟩ := List.mem_map.mp member
    obtain rfl := Desk.Event.direct.inj same
    exact Writer.mem_deeds deed

/-- A peer answers with one frame or none. -/
theorem answered_cases (p : Pump) (written : List Written) :
    p.answered written = p ∨ p.answered written = p.arrive .pong false := by
  unfold answered
  split
  · exact .inr rfl
  · exact .inl rfl

/-- An answer of the peer changes nothing but what there is to read. -/
theorem answered_eq (p : Pump) (written : List Written) :
    ∃ unread awake, p.answered written = { p with unread := unread, awake := awake } := by
  rcases p.answered_cases written with none | one
  · exact ⟨p.unread, p.awake, none⟩
  · exact ⟨_, _, one⟩

theorem wrote_eq (p : Pump) (now : Nat) (o : Writer.Outcome) :
    ∃ unread awake, p.wrote now o =
      { p with
        unread := unread
        awake := awake
        writer := o.writer
        events := (o.written.map fun w => (now, Event.written w)).reverse ++ p.events } :=
  answered_eq _ _

/-- After a step of the writer there is as much to read as before, or an answer to what is written. -/
theorem wrote_cases (p : Pump) (now : Nat) (o : Writer.Outcome) :
    ∃ q : Pump, q.conn = p.conn ∧ q.serving = p.serving ∧ q.unread = p.unread ∧
      q.awake = p.awake ∧ (p.wrote now o = q ∨ p.wrote now o = q.arrive .pong false) :=
  ⟨{ p with
      writer := o.writer
      events := (o.written.map fun w => (now, Event.written w)).reverse ++ p.events },
    rfl, rfl, rfl, rfl, answered_cases _ _⟩

theorem write_cases {pingFirst : Bool} {after : Desk × Pump}
    (step : p.write? s now pingFirst d = some after) :
    ∃ c o, d.hub.connection? p.conn = some c ∧ Writer.Change s now p.sink c p.writer o ∧
      p.writeDoings s now pingFirst d =
        (Writer.deeds p.conn p.writer.stage o.writer.stage).map .direct ∧
      after.1 = d.play (p.writeDoings s now pingFirst d) ∧ after.2 = p.wrote now o := by
  have unfolded := step
  simp only [write?, Option.bind_eq_bind, Option.bind_eq_some_iff, Option.pure_def,
    Option.some.injEq] at unfolded
  obtain ⟨c, found, o, moved, rfl⟩ := unfolded
  have change := Writer.change moved
  obtain ⟨unread, awake, wrote⟩ := p.wrote_eq now o
  have done : p.writeDoings s now pingFirst d =
      (Writer.deeds p.conn p.writer.stage o.writer.stage).map .direct := by
    rw [writeDoings, step]
    change (Writer.deeds _ _ (p.wrote now o).writer.stage).map _ = _
    rw [wrote]
  refine ⟨c, o, found, change, done, ?_, rfl⟩
  rw [done, Desk.play_direct d fun _ member => bypasses_writerDeeds member, ← change.hub found]

end Pump
end SignalHub
