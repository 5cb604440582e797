import SignalHub.World.Schedule
import SignalHub.Proofs.Pump.Steps

/-! The two sides of each pump, callers and the hub's runner, the sockets and the clock move in any
order. To the desk such a run is one of its own runs, in which the pumps are callers among others
(`desk_follow`), and to the hub it is a run too (`hub_follow`). A pump is changed by its own moves
only, and each changes it in one of the ways that its two sides have (`turned`). -/
namespace SignalHub

namespace World

/-- The desk's moves are those of callers, of the runner, and of whoever uses the hub directly. -/
inductive Move where
  | desk (e : Desk.Event)
  | attend (conn : ConnId) (answers : Bool)
  | serve (pump : Nat) (hasty : Bool)
  | write (pump : Nat) (pingFirst : Bool)
  | arrive (pump : Nat) (f : Frame) (hold : Bool)
  | setSink (pump : Nat) (sink : Sink)
  | wait (time : Nat)
  deriving DecidableEq, Repr

/-- The pump whose move it is. -/
def Move.pump? : Move → Option Nat
  | .serve i _ | .write i _ | .arrive i _ _ | .setSink i _ => some i
  | .desk _ | .attend _ _ | .wait _ => none

def isServed (w : World) (conn : ConnId) : Bool := w.pumps.any fun p => p.conn == conn

/-- A connection is served once, by whoever has its queue, and from then on nobody but its pump reads
the queue. -/
def allows (w : World) : Move → Bool
  | .desk (.direct s) => s.reader?.all fun conn => !w.isServed conn
  | .attend conn _ => w.hub.isRead conn && !w.isServed conn
  | _ => true

def make (w : World) : Move → World
  | .desk e => { w with desk := w.desk.event e }
  | .attend conn answers => w.attend conn answers
  | .serve i hasty => w.serveStep i hasty
  | .write i pingFirst => w.writeStep i pingFirst
  | .arrive i f hold => w.updatePump i (·.arrive f hold)
  | .setSink i sink => w.updatePump i fun p => { p with sink := sink }
  | .wait time => { w with now := w.now + time }

def proceed (w : World) (m : Move) : World := if w.allows m then w.make m else w

def follow (w : World) (moves : List Move) : World := moves.foldl proceed w

/-- What a move does at the desk. -/
def doings (w : World) (m : Move) : List Desk.Event :=
  if w.allows m then
    match m with
    | .desk e => [e]
    | .attend conn _ =>
      if (Writer.start w.settings w.now).ended then [.direct (.dropReceiver conn)] else []
    | .serve i hasty =>
      (w.pumps[i]?).elim [] fun p => p.serveDoings w.settings w.now hasty w.desk
    | .write i pingFirst =>
      (w.pumps[i]?).elim [] fun p => p.writeDoings w.settings w.now pingFirst w.desk
    | _ => []
  else []

/-- What a move does to the hub. -/
def deeds (w : World) (m : Move) : List Hub.Step := w.desk.along Desk.deeds (w.doings m)

/-- What the moves of a run amount to, in order. -/
def along {α : Type} (f : World → Move → List α) : World → List Move → List α
  | _, [] => []
  | w, m :: rest => f w m ++ along f (w.proceed m) rest

variable {w : World} {m : Move} {i : Nat} {p p' : Pump}

theorem follow_append (w : World) (first rest : List Move) :
    w.follow (first ++ rest) = (w.follow first).follow rest := List.foldl_append

theorem along_append {α : Type} (f : World → Move → List α) (w : World)
    (first rest : List Move) :
    w.along f (first ++ rest) = w.along f first ++ (w.follow first).along f rest := by
  induction first generalizing w with
  | nil => rfl
  | cons m first ih => simp only [List.cons_append, along, ih, List.append_assoc]; rfl

/-- What a move makes of the pump whose move it is. -/
def turn (w : World) (m : Move) (p : Pump) : Pump :=
  match m with
  | .serve _ hasty => { (p.serve w.settings w.now hasty w.desk).2 with readSet := w.timers }
  | .write _ pingFirst =>
    (p.write? w.settings w.now pingFirst w.desk).elim p fun after =>
      { after.2 with writeSet := w.timers }
  | .arrive _ f hold => p.arrive f hold
  | .setSink _ sink => { p with sink := sink }
  | .desk _ | .attend _ _ | .wait _ => p

/-- The pumps that a move starts. -/
def started (w : World) (m : Move) : List Pump :=
  match m with
  | .attend conn answers =>
    if w.allows (.attend conn answers) then
      [{ Pump.start w.settings w.now conn answers with readSet := w.timers, writeSet := w.timers }]
    else []
  | _ => []

theorem set_eq_modify {pumps : List Pump} (found : pumps[i]? = some p) (f : Pump → Pump) :
    pumps.set i (f p) = pumps.modify i f := by
  apply List.ext_getElem?
  intro j
  by_cases same : i = j
  · subst same
    rw [List.getElem?_set_self', List.getElem?_modify, found]
    simp
  · simp [same]

theorem pumps_serveStep (w : World) (i : Nat) (hasty : Bool) :
    (w.serveStep i hasty).pumps = w.pumps.modify i (w.turn (.serve i hasty)) := by
  unfold serveStep
  cases found : w.pumps[i]? with
  | none => rw [List.modify_eq_self (List.getElem?_eq_none_iff.mp found)]
  | some p => exact set_eq_modify found (w.turn (.serve i hasty))

theorem pumps_writeStep (w : World) (i : Nat) (pingFirst : Bool) :
    (w.writeStep i pingFirst).pumps = w.pumps.modify i (w.turn (.write i pingFirst)) := by
  unfold writeStep
  cases found : w.pumps[i]? with
  | none => rw [List.modify_eq_self (List.getElem?_eq_none_iff.mp found)]; rfl
  | some p =>
    rw [← set_eq_modify found]
    unfold turn
    cases step : p.write? w.settings w.now pingFirst w.desk with
    | none =>
      obtain ⟨bound, here⟩ := List.getElem?_eq_some_iff.mp found
      have same : w.pumps.set i p = w.pumps := by
        rw [← here]
        exact List.set_getElem_self bound
      simp [step, same]
    | some after => simp [step, setPump]

theorem pumps_proceed (w : World) (m : Move) :
    (w.proceed m).pumps =
      (m.pump?.elim w.pumps fun i => w.pumps.modify i (w.turn m)) ++ w.started m := by
  unfold proceed
  cases m with
  | desk e =>
    split <;> simp [make, Move.pump?, started]
  | attend conn answers =>
    split
    · rename_i allowed
      simp [make, Move.pump?, started, attend, allowed]
    · rename_i forbidden
      simp [Move.pump?, started, forbidden]
  | serve i hasty => simpa [make, allows, Move.pump?, started] using pumps_serveStep w i hasty
  | write i pingFirst =>
    simpa [make, allows, Move.pump?, started] using pumps_writeStep w i pingFirst
  | arrive | setSink => exact (List.append_nil _).symm
  | wait time => simp [make, allows, Move.pump?, started]

theorem pump_proceed (found : w.pumps[i]? = some p) (m : Move) :
    (w.proceed m).pumps[i]? = some (if m.pump? = some i then w.turn m p else p) := by
  have bound := (List.getElem?_eq_some_iff.mp found).1
  rw [pumps_proceed]
  cases m.pump? with
  | none =>
    rw [Option.elim_none, List.getElem?_append_left bound]
    simpa using found
  | some j =>
    rw [Option.elim_some, List.getElem?_append_left (by simpa using bound)]
    by_cases same : j = i
    · subst same
      simp [found]
    · simp [same, found]

theorem pump_attend {conn : ConnId} {answers : Bool}
    (allowed : w.allows (.attend conn answers) = true) :
    (w.proceed (.attend conn answers)).pumps[w.pumps.length]? =
      some { Pump.start w.settings w.now conn answers with
        readSet := w.timers, writeSet := w.timers } := by
  rw [pumps_proceed, started, if_pos allowed]
  simp [Move.pump?]

/-- Everything that a pump's own move can do to it. -/
inductive Turn (w : World) (p : Pump) : Move → Pump → Prop where
  | serve (i : Nat) (hasty : Bool) (events : List Desk.Event) (p' : Pump)
      (change : p.Change w.settings w.now w.desk events p')
      (done : p.serveDoings w.settings w.now hasty w.desk = events) :
      Turn w p (.serve i hasty) { p' with readSet := w.timers }
  | write (i : Nat) (pingFirst : Bool) (c : Connection) (o : Writer.Outcome)
      (found : w.hub.connection? p.conn = some c)
      (change : p.writer.Change w.settings w.now p.sink c o)
      (done : p.writeDoings w.settings w.now pingFirst w.desk =
        (Writer.deeds p.conn p.writer.stage o.writer.stage).map .direct) :
      Turn w p (.write i pingFirst) { p.wrote w.now o with writeSet := w.timers }
  | idle (i : Nat) (pingFirst : Bool)
      (waits : p.write? w.settings w.now pingFirst w.desk = none) :
      Turn w p (.write i pingFirst) p
  | arrive (i : Nat) (f : Frame) (hold : Bool) : Turn w p (.arrive i f hold) (p.arrive f hold)
  | setSink (i : Nat) (sink : Sink) : Turn w p (.setSink i sink) { p with sink := sink }

theorem turned (known : (w.hub.connection? p.conn).isSome = true) (own : m.pump? = some i) :
    Turn w p m (w.turn m p) := by
  cases m with
  | desk | attend | wait => simp [Move.pump?] at own
  | serve j hasty => exact .serve j hasty _ _ (Pump.serves known).1 rfl
  | write j pingFirst =>
    cases step : p.write? w.settings w.now pingFirst w.desk with
    | none =>
      simp only [turn, step, Option.elim_none]
      exact .idle j pingFirst step
    | some after =>
      obtain ⟨c, o, found, change, done, -, made⟩ := Pump.write_cases step
      simp only [turn, step, Option.elim_some, made]
      exact .write j pingFirst c o found change done
  | arrive j f hold => exact .arrive j f hold
  | setSink j sink => exact .setSink j sink

theorem Turn.conn (turn : Turn w p m p') : p'.conn = p.conn := by
  cases turn with
  | serve i hasty events p' change => cases change <;> rfl
  | write i pingFirst c o found change =>
    obtain ⟨unread, awake, wrote⟩ := p.wrote_eq w.now o
    rw [wrote]
  | idle | arrive | setSink => rfl

/-- A move leaves a pump alone or is the pump's own. -/
theorem course (found : w.pumps[i]? = some p) (known : (w.hub.connection? p.conn).isSome = true)
    (m : Move) :
    ∃ p', (w.proceed m).pumps[i]? = some p' ∧
      (m.pump? ≠ some i ∧ p' = p ∨ m.pump? = some i ∧ Turn w p m p') := by
  rw [pump_proceed found m]
  by_cases own : m.pump? = some i
  · exact ⟨_, rfl, .inr ⟨own, by rw [if_pos own]; exact turned known own⟩⟩
  · exact ⟨_, rfl, .inl ⟨own, if_neg own⟩⟩

/-- What is seen of a pump in a move, by the states that it comes from and to. -/
def observed {α : Type} (w : World) (m : Move) (i : Nat) (see : Pump → Pump → List α) : List α :=
  match w.pumps[i]?, (w.proceed m).pumps[i]? with
  | some p, some p' => see p p'
  | _, _ => []

theorem observed_eq {α : Type} (found : w.pumps[i]? = some p)
    (next : (w.proceed m).pumps[i]? = some p') (see : Pump → Pump → List α) :
    w.observed m i see = see p p' := by
  simp only [observed, found, next]

/-- No two pumps serve one connection, and what they serve is there. -/
structure Sound (w : World) : Prop where
  known : ∀ p ∈ w.pumps, (w.hub.connection? p.conn).isSome = true
  apart : (w.pumps.map Pump.conn).Nodup

theorem Sound.found (sound : Sound w) (found : w.pumps[i]? = some p) :
    (w.hub.connection? p.conn).isSome = true :=
  sound.known p (List.mem_of_getElem? found)

theorem Sound.index (sound : Sound w) {j : Nat} {q : Pump} (first : w.pumps[i]? = some p)
    (second : w.pumps[j]? = some q) (same : p.conn = q.conn) : i = j := by
  have bound := (List.getElem?_eq_some_iff.mp first).1
  apply (List.getElem?_inj (by simpa using bound) sound.apart).mp
  simp [first, second, same]

theorem doings_serve (w : World) (i : Nat) (hasty : Bool) :
    w.doings (.serve i hasty) =
      (w.pumps[i]?).elim [] fun p => p.serveDoings w.settings w.now hasty w.desk := rfl

theorem doings_write (w : World) (i : Nat) (pingFirst : Bool) :
    w.doings (.write i pingFirst) =
      (w.pumps[i]?).elim [] fun p => p.writeDoings w.settings w.now pingFirst w.desk := rfl

theorem mem_doings_attend {conn : ConnId} {answers : Bool} {e : Desk.Event}
    (member : e ∈ w.doings (.attend conn answers)) :
    e = .direct (.dropReceiver conn) ∧ w.allows (.attend conn answers) = true := by
  rw [doings] at member
  split at member
  · rename_i allowed
    refine ⟨?_, allowed⟩
    split at member
    · exact List.mem_singleton.mp member
    · cases member
  · cases member

theorem desk_attend (w : World) (conn : ConnId) (answers : Bool) :
    (w.attend conn answers).desk = w.desk.play
      (if (Writer.start w.settings w.now).ended then [.direct (.dropReceiver conn)] else []) := by
  unfold attend
  cases ended : (Writer.start w.settings w.now).ended <;>
    simp [ended, Pump.start, setHub, hub, Desk.play, Desk.event, Desk.permits, Desk.act,
      Hub.Step.bypasses, Hub.step]

theorem desk_serveStep (sound : Sound w) (i : Nat) (hasty : Bool) :
    (w.serveStep i hasty).desk = w.desk.play (w.doings (.serve i hasty)) := by
  rw [doings_serve]
  unfold serveStep
  cases found : w.pumps[i]? with
  | none => rfl
  | some p => exact (Pump.serves (sound.found found)).2

theorem desk_writeStep (w : World) (i : Nat) (pingFirst : Bool) :
    (w.writeStep i pingFirst).desk = w.desk.play (w.doings (.write i pingFirst)) := by
  rw [doings_write]
  unfold writeStep
  cases found : w.pumps[i]? with
  | none => rfl
  | some p =>
    cases step : p.write? w.settings w.now pingFirst w.desk with
    | none => simp [Pump.writeDoings, step, Desk.play]
    | some after =>
      obtain ⟨c, o, -, -, -, made, -⟩ := Pump.write_cases step
      simpa [step, setPump] using made

theorem desk_proceed (sound : Sound w) (m : Move) :
    (w.proceed m).desk = w.desk.play (w.doings m) := by
  unfold proceed
  split
  · rename_i allowed
    cases m with
    | desk e => simp [make, doings, allowed, Desk.play]
    | attend conn answers =>
      rw [doings, if_pos allowed]
      exact desk_attend w conn answers
    | serve i hasty => exact desk_serveStep sound i hasty
    | write i pingFirst => exact desk_writeStep w i pingFirst
    | arrive | setSink | wait => simp [make, doings, updatePump, Desk.play]
  · rename_i forbidden
    simp [doings, forbidden, Desk.play]

theorem hub_proceed (sound : Sound w) (m : Move) :
    (w.proceed m).hub = w.hub.run (w.deeds m) := by
  unfold hub
  rw [desk_proceed sound m, Desk.hub_play]
  rfl

theorem serveStep_frame (w : World) (i : Nat) (hasty : Bool) :
    (w.serveStep i hasty).settings = w.settings ∧ (w.serveStep i hasty).now = w.now := by
  unfold serveStep
  split <;> exact ⟨rfl, rfl⟩

theorem writeStep_frame (w : World) (i : Nat) (pingFirst : Bool) :
    (w.writeStep i pingFirst).settings = w.settings ∧ (w.writeStep i pingFirst).now = w.now := by
  unfold writeStep
  split <;> exact ⟨rfl, rfl⟩

/-- How much time a move takes. -/
def Move.time : Move → Nat
  | .wait time => time
  | _ => 0

theorem proceed_frame (w : World) (m : Move) :
    (w.proceed m).settings = w.settings ∧ (w.proceed m).now = w.now + m.time := by
  unfold proceed
  cases m with
  | serve i hasty => exact serveStep_frame w i hasty
  | write i pingFirst => exact writeStep_frame w i pingFirst
  | wait time => exact ⟨rfl, rfl⟩
  | desk | attend | arrive | setSink => split <;> exact ⟨rfl, rfl⟩

@[simp] theorem settings_proceed (w : World) (m : Move) : (w.proceed m).settings = w.settings :=
  (proceed_frame w m).1

theorem now_proceed (w : World) (m : Move) : (w.proceed m).now = w.now + m.time :=
  (proceed_frame w m).2

theorem ages_proceed (sound : Sound w) (m : Move) : Hub.Ages w.hub (w.proceed m).hub := by
  rw [hub_proceed sound]
  exact Hub.ages_run w.hub _

theorem conns_proceed (sound : Sound w) (m : Move) :
    (w.proceed m).pumps.map Pump.conn = w.pumps.map Pump.conn ++ (w.started m).map Pump.conn := by
  rw [pumps_proceed, List.map_append]
  congr 1
  cases own : m.pump? with
  | none => rfl
  | some i =>
    apply List.ext_getElem?
    intro j
    rw [Option.elim_some, List.getElem?_map, List.getElem?_map, List.getElem?_modify]
    by_cases same : i = j
    · subst same
      cases found : w.pumps[i]? with
      | none => rfl
      | some p => simp [(turned (sound.found found) own).conn]
    · simp [same]

theorem conn_started {q : Pump} (member : q ∈ w.started m) :
    (w.hub.connection? q.conn).isSome = true ∧ w.isServed q.conn = false := by
  unfold started at member
  split at member
  · rename_i conn answers
    split at member
    · rename_i allowed
      obtain rfl := List.mem_singleton.mp member
      obtain ⟨read, free⟩ := (Bool.and_eq_true_iff.mp allowed)
      obtain ⟨c, found, -⟩ := (Option.any_eq_true _ _).mp read
      refine ⟨?_, (Bool.not_eq_eq_eq_not ..).mp free⟩
      exact Option.isSome_iff_exists.mpr ⟨c, found⟩
    · simp at member
  · simp at member

theorem length_started (w : World) (m : Move) : (w.started m).length ≤ 1 := by
  unfold started
  split
  · split <;> simp
  · simp

theorem Sound.proceed (sound : Sound w) (m : Move) : Sound (w.proceed m) where
  known := by
    intro q member
    have served : q.conn ∈ w.pumps.map Pump.conn ++ (w.started m).map Pump.conn :=
      conns_proceed sound m ▸ List.mem_map_of_mem member
    have before : (w.hub.connection? q.conn).isSome = true := by
      rcases List.mem_append.mp served with old | new
      · obtain ⟨p, there, same⟩ := List.mem_map.mp old
        exact same ▸ sound.known p there
      · obtain ⟨p, there, same⟩ := List.mem_map.mp new
        exact same ▸ (conn_started there).1
    exact (ages_proceed sound m).known before
  apart := by
    rw [conns_proceed sound, List.nodup_append]
    refine ⟨sound.apart, ?_, ?_⟩
    · have few := length_started w m
      cases new : w.started m with
      | nil => simp
      | cons q rest =>
        rw [new, List.length_cons] at few
        obtain rfl := List.length_eq_zero_iff.mp (by omega : rest.length = 0)
        simp
    · intro conn old other new same
      obtain ⟨p, there, conn_p⟩ := List.mem_map.mp old
      obtain ⟨q, fresh, conn_q⟩ := List.mem_map.mp new
      have free := (conn_started fresh).2
      rw [conn_q, ← same, ← conn_p] at free
      have served : w.isServed p.conn = true := List.any_eq_true.mpr ⟨p, there, by simp⟩
      simp [served] at free

theorem sound_new (settings : Settings) (directory : Directory) (reports : Bool) :
    Sound (World.new settings directory reports) := by
  constructor <;> simp [World.new]

/-- What is done to the hub is done by a command, or by telling it to stop or to close everything, or
without the desk. -/
theorem mem_deeds {s : Hub.Step} {d : Desk} {events : List Desk.Event}
    (member : s ∈ d.along Desk.deeds events) :
    (∃ c : Command, s = c.deed) ∨ s = .halt ∨ s = .closeAll true ∨ .direct s ∈ events := by
  obtain ⟨past, e, rest, rfl, deed⟩ := Desk.mem_along member
  rcases List.mem_append.mp deed with applied | bypass
  · obtain ⟨command, -, same⟩ := List.mem_map.mp applied
    exact .inl ⟨command, same.symm⟩
  · rw [Desk.Event.bypass.eq_def] at bypass
    split at bypass
    · exact .inr (.inl (List.mem_singleton.mp bypass))
    · exact .inr (.inr (.inl (List.mem_singleton.mp bypass)))
    · split at bypass
      · obtain rfl := List.mem_singleton.mp bypass
        exact .inr (.inr (.inr (List.mem_append_right past List.mem_cons_self)))
      · cases bypass
    · cases bypass

/-- Without the desk, the hub is used by whoever uses it directly, by who starts to serve a connection,
and by the two sides of pumps. -/
theorem direct_cases (sound : Sound w) {s : Hub.Step} (member : .direct s ∈ w.doings m) :
    m = .desk (.direct s) ∧ w.allows m = true ∨
    (∃ conn answers, m = .attend conn answers ∧ s = .dropReceiver conn ∧ w.allows m = true) ∨
    ∃ i p, w.pumps[i]? = some p ∧
      ((∃ hasty, m = .serve i hasty ∧ .direct s ∈ p.serveDoings w.settings w.now hasty w.desk ∧
        ((∃ f : Frame, s ∈ f.deeds p.conn) ∨ s = .close p.conn ∨ s = .finish p.conn)) ∨
      ∃ pingFirst, m = .write i pingFirst ∧ (s = .receive p.conn ∨ s = .close p.conn)) := by
  cases m with
  | desk e =>
    rw [doings] at member
    split at member
    · rename_i allowed
      obtain rfl := List.mem_singleton.mp member
      exact .inl ⟨rfl, allowed⟩
    · cases member
  | serve i hasty =>
    rw [doings_serve] at member
    cases found : w.pumps[i]? with
    | none => simp [found] at member
    | some p =>
      rw [found, Option.elim_some] at member
      have how := (Pump.serves (sound.found found)).1.direct member
      exact .inr (.inr ⟨i, p, found, .inl ⟨hasty, rfl, member, how⟩⟩)
  | write i pingFirst =>
    rw [doings_write] at member
    cases found : w.pumps[i]? with
    | none => simp [found] at member
    | some p =>
      rw [found, Option.elim_some] at member
      exact .inr (.inr ⟨i, p, found, .inr ⟨pingFirst, rfl, Pump.mem_writeDoings member⟩⟩)
  | attend conn answers =>
    obtain ⟨same, allowed⟩ := mem_doings_attend member
    exact .inr (.inl ⟨conn, answers, rfl, Desk.Event.direct.inj same, allowed⟩)
  | arrive | setSink | wait => simp [doings] at member

/-- Nobody but its pump reads a queue that is served, or closes what is served for good: the writer
does the one and the serving side the other. -/
theorem reader_deeds (sound : Sound w) (found : w.pumps[i]? = some p) {s : Hub.Step}
    (member : s ∈ w.deeds m) (reads : s.reader? = some p.conn) :
    (∃ pingFirst, m = .write i pingFirst ∧ s = .receive p.conn) ∨
      ∃ hasty, m = .serve i hasty ∧ .direct s ∈ p.serveDoings w.settings w.now hasty w.desk ∧
        s = .finish p.conn := by
  rcases mem_deeds member with ⟨command, rfl⟩ | rfl | rfl | direct
  · cases command <;> cases reads
  · cases reads
  · cases reads
  have mine {j : Nat} {q : Pump} (other : w.pumps[j]? = some q) (same : q.conn = p.conn) :
      j = i ∧ q = p := by
    obtain rfl := sound.index other found same
    exact ⟨rfl, Option.some.inj (other.symm.trans found)⟩
  have served : w.isServed p.conn = true :=
    List.any_eq_true.mpr ⟨p, List.mem_of_getElem? found, by simp⟩
  rcases direct_cases sound direct with ⟨rfl, allowed⟩ | ⟨conn, answers, rfl, rfl, allowed⟩ |
    ⟨j, q, other, ⟨hasty, rfl, done, ⟨f, deed⟩ | rfl | rfl⟩ | ⟨pingFirst, rfl, rfl | rfl⟩⟩
  · simp [allows, reads, served] at allowed
  · obtain rfl := Option.some.inj reads
    simp [allows, served] at allowed
  · rcases f.mem_deeds deed with ⟨raw, rfl⟩ | ⟨o, rfl⟩ <;> cases reads
  · cases reads
  · obtain ⟨rfl, rfl⟩ := mine other (Option.some.inj reads)
    exact .inr ⟨hasty, rfl, done, rfl⟩
  · obtain ⟨rfl, rfl⟩ := mine other (Option.some.inj reads)
    exact .inl ⟨pingFirst, rfl, rfl⟩
  · cases reads

theorem deeds_write (found : w.pumps[i]? = some p) {pingFirst : Bool} {o : Writer.Outcome}
    (done : p.writeDoings w.settings w.now pingFirst w.desk =
      (Writer.deeds p.conn p.writer.stage o.writer.stage).map .direct) :
    w.deeds (.write i pingFirst) = Writer.deeds p.conn p.writer.stage o.writer.stage := by
  rw [deeds, doings_write, found, Option.elim_some, done]
  exact Desk.along_direct w.desk fun _ member => Pump.bypasses_writerDeeds member

theorem Sound.follow (sound : Sound w) (moves : List Move) : Sound (w.follow moves) := by
  induction moves generalizing w with
  | nil => exact sound
  | cons m rest ih => exact ih (sound.proceed m)

@[simp] theorem settings_follow (w : World) (moves : List Move) :
    (w.follow moves).settings = w.settings := by
  induction moves generalizing w with
  | nil => rfl
  | cons m rest ih => exact (ih _).trans (settings_proceed w m)

/-- The desk has come to where it is from a new one. -/
def Played (w : World) : Prop := ∃ reports events, w.desk = (Desk.new reports).play events

theorem Played.proceed (played : Played w) (sound : Sound w) (m : Move) : Played (w.proceed m) := by
  obtain ⟨reports, events, same⟩ := played
  exact ⟨reports, events ++ w.doings m, by rw [desk_proceed sound, same, Desk.play_append]⟩

/-- To the desk, a run of the world is a run of its own. -/
theorem desk_follow (sound : Sound w) (moves : List Move) :
    (w.follow moves).desk = w.desk.play (w.along doings moves) := by
  induction moves generalizing w with
  | nil => rfl
  | cons m rest ih =>
    have later := ih (sound.proceed m)
    rw [desk_proceed sound, ← Desk.play_append] at later
    exact later

/-- To the hub it is one too. -/
theorem hub_follow (sound : Sound w) (moves : List Move) :
    (w.follow moves).hub = w.hub.run (w.along deeds moves) := by
  induction moves generalizing w with
  | nil => rfl
  | cons m rest ih =>
    have later := ih (sound.proceed m)
    rw [hub_proceed sound, ← Hub.run_append] at later
    exact later

/-- The tasks make these moves, and nobody else needs to. -/
def Move.ofTask : Move → Bool
  | .serve .. | .write .. => true
  | .desk (.move .check) | .desk (.move .take) | .desk (.move .apply) | .desk (.move .answer) => true
  | _ => false

theorem step_follow (w : World) (task : Task) :
    ∃ moves, (∀ m ∈ moves, m.ofTask = true) ∧ w.step task = w.follow moves := by
  have one {m : Move} (own : m.ofTask = true) : ∀ n ∈ [m], n.ofTask = true :=
    fun _ member => List.mem_singleton.mp member ▸ own
  cases task with
  | write i => exact ⟨[.write i false], one rfl, rfl⟩
  | serve i => exact ⟨[.serve i false], one rfl, rfl⟩
  | runner =>
    simp only [step, Desk.runnerStep]
    split
    · exact ⟨[.desk (.move .check)], one rfl, rfl⟩
    · exact ⟨[.desk (.move .take)], one rfl, rfl⟩
    · exact ⟨[.desk (.move .apply)], one rfl, rfl⟩
    · exact ⟨[.desk (.move .answer)], one rfl, rfl⟩
    · exact ⟨[], nofun, rfl⟩

/-- Whatever a schedule does is one of these runs, in which the tasks make all moves. -/
theorem runQueue_follow (steps : Nat) (queue : List Task) (w : World) :
    ∃ moves, (∀ m ∈ moves, m.ofTask = true) ∧ runQueue steps queue w = w.follow moves := by
  induction steps generalizing queue w with
  | zero => exact ⟨[], nofun, rfl⟩
  | succ n ih =>
    cases queue with
    | nil => exact ⟨[], nofun, rfl⟩
    | cons task rest =>
      unfold runQueue
      split
      · obtain ⟨first, own, stepped⟩ := w.step_follow task
        obtain ⟨later, theirs, rested⟩ := ih ((w.step task).queueAfter task rest) (w.step task)
        refine ⟨first ++ later, fun m member => ?_, by rw [follow_append, ← stepped, ← rested]⟩
        exact (List.mem_append.mp member).elim (own m) (theirs m)
      · exact ih rest w

theorem ages_follow (sound : Sound w) (moves : List Move) : Hub.Ages w.hub (w.follow moves).hub := by
  rw [hub_follow sound]
  exact Hub.ages_run w.hub _

end World
end SignalHub
