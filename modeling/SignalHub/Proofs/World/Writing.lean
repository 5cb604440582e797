import SignalHub.Proofs.World.Run

/-! A writer hands over, in order, what it takes from the queue (`received_along`), pings in
between, and a close frame when the queue is closed and empty. It hands over one job at a time, and
the next one only when the socket has taken the last (`Progress`). So what it leaves behind when it
ends tells why it has ended (`writer_in_order`). -/
namespace SignalHub

/-- What a job takes out of the queue. -/
def Job.outbound? : Job → Option Outbound
  | .outbound o => some o
  | .ping | .close => none

def Event.written? : Event → Option Written
  | .written w => some w
  | .done => none

/-- What the socket has been seen to do, oldest first. -/
def Pump.written (p : Pump) : List Written := p.events.reverse.filterMap fun e => e.2.written?

/-- The job that a writer hands to its socket when it comes from one stage to another. -/
def Writer.handed : WriterStage → WriterStage → Option Job
  | .idle, .writing job _ => some job
  | _, _ => none

theorem Pump.written_wrote (p : Pump) (now : Nat) (o : Writer.Outcome) :
    (p.wrote now o).written = p.written ++ o.written := by
  obtain ⟨unread, awake, wrote⟩ := p.wrote_eq now o
  have seen : (o.written.map fun w => (now, Event.written w)).filterMap (fun e => e.2.written?) =
      o.written := by
    rw [List.filterMap_map]
    exact List.filterMap_some
  rw [wrote, written, List.reverse_append, List.reverse_reverse, List.filterMap_append, seen]
  rfl

theorem Writer.handed_self (stage : WriterStage) : handed stage stage = none := by
  cases stage <;> rfl

theorem Job.written_ne_closed (job : Job) : job.written ≠ .closed := by
  cases job <;> simp [written]

namespace World

variable {w : World} {m : Move} {i : Nat} {p p' : Pump}

/-- What the writer of a pump hands to its socket in a move, and when. -/
def handed (i : Nat) (w : World) (m : Move) : List (Nat × Job) :=
  w.observed m i fun p p' =>
    ((Writer.handed p.writer.stage p'.writer.stage).map fun job => (w.now, job)).toList

/-- The writer of a pump comes to its end in a move. -/
def ends (i : Nat) (w : World) (m : Move) : Bool :=
  w.pumps[i]?.any (fun p => !p.writer.ended) &&
    (w.proceed m).pumps[i]?.any fun p => p.writer.ended

/-- What a move does to the writing of a pump. -/
inductive Writes (w : World) (i : Nat) (p : Pump) (m : Move) (p' : Pump) : Prop where
  | still (writer : p'.writer = p.writer) (written : p'.written = p.written)
      (silent : .receive p.conn ∉ w.deeds m)
  | step (pingFirst : Bool) (c : Connection) (o : Writer.Outcome) (move : m = .write i pingFirst)
      (found : w.hub.connection? p.conn = some c)
      (change : p.writer.Change w.settings w.now p.sink c o) (writer : p'.writer = o.writer)
      (written : p'.written = p.written ++ o.written)
      (deeds : w.deeds m = Writer.deeds p.conn p.writer.stage o.writer.stage)

theorem silent_of_other (sound : Sound w) (found : w.pumps[i]? = some p)
    (other : ∀ pingFirst, m ≠ .write i pingFirst) : .receive p.conn ∉ w.deeds m := by
  intro member
  rcases reader_deeds sound found member rfl with ⟨pingFirst, same, -⟩ | ⟨_, -, -, impossible⟩
  · exact other pingFirst same
  · contradiction

theorem writes_of_turn (sound : Sound w) (found : w.pumps[i]? = some p) (own : m.pump? = some i)
    (turn : Turn w p m p') : Writes w i p m p' := by
  cases turn with
  | serve j hasty events p' change =>
    have silent := silent_of_other (m := .serve j hasty) sound found (by simp)
    cases change with
    | finish => exact .still rfl (by simp [Pump.written, Event.written?]) silent
    | _ => exact .still rfl rfl silent
  | write j pingFirst c o there change done =>
    obtain rfl : j = i := Option.some.inj own
    obtain ⟨unread, awake, wrote⟩ := p.wrote_eq w.now o
    refine .step pingFirst c o rfl there change ?_ (p.written_wrote w.now o) (deeds_write found done)
    rw [wrote]
  | idle j pingFirst waits =>
    obtain rfl : j = i := Option.some.inj own
    have nothing : w.deeds (.write j pingFirst) = [] := by
      rw [deeds, doings_write, found, Option.elim_some, Pump.writeDoings, waits]
      rfl
    exact .still rfl rfl (by simp [nothing])
  | arrive j f hold => exact .still rfl rfl (silent_of_other sound found (by simp))
  | setSink j sink => exact .still rfl rfl (silent_of_other sound found (by simp))

theorem writes (sound : Sound w) (found : w.pumps[i]? = some p) (m : Move) :
    ∃ p', (w.proceed m).pumps[i]? = some p' ∧ p'.conn = p.conn ∧ Writes w i p m p' := by
  obtain ⟨p', next, ⟨apart, rfl⟩ | ⟨own, turn⟩⟩ := course found (sound.found found) m
  · refine ⟨p', next, rfl, .still rfl rfl (silent_of_other sound found ?_)⟩
    rintro pingFirst rfl
    exact apart rfl
  · exact ⟨p', next, turn.conn, writes_of_turn sound found own turn⟩

theorem handed_eq (found : w.pumps[i]? = some p) (next : (w.proceed m).pumps[i]? = some p') :
    w.handed i m =
      ((Writer.handed p.writer.stage p'.writer.stage).map fun job => (w.now, job)).toList :=
  observed_eq found next _

theorem handed_of_still (found : w.pumps[i]? = some p)
    (next : (w.proceed m).pumps[i]? = some p') (writer : p'.writer = p.writer) :
    w.handed i m = [] := by
  rw [handed_eq found next, writer, Writer.handed_self]
  rfl

/-- What a writer takes out of the queue it hands to its socket at once. -/
theorem received_deeds (sound : Sound w) (found : w.pumps[i]? = some p) (m : Move) :
    w.hub.received p.conn (w.deeds m) = (w.handed i m).filterMap fun j => j.2.outbound? := by
  obtain ⟨p', next, -, ⟨writer, -, silent⟩ | ⟨_, c, o, -, there, change, writer, -, deeds⟩⟩ :=
    writes sound found m
  · rw [handed_of_still found next writer, Hub.received_of_silent silent]
    rfl
  · rw [handed_eq found next, writer, deeds]
    cases change with
    | take item rest idle waiting =>
      have queue : w.hub.queue p.conn = item :: rest := (Hub.queue_of_found there).trans waiting
      simp [idle, Writer.deeds, Writer.handed, Hub.received, Hub.hands_receive, queue,
        Job.outbound?]
    | last idle | ping idle =>
      simp [idle, Writer.deeds, Writer.handed, Hub.received, Job.outbound?]
    | written job deadline writing =>
      simp [writing, Writer.deeds, Writer.handed, Hub.received]
    | farewell deadline writing | broken job deadline writing =>
      simp [writing, Writer.deeds, Writer.handed, Hub.received, Hub.hands_of_other]

theorem received_along (sound : Sound w) (found : w.pumps[i]? = some p) (moves : List Move) :
    w.hub.received p.conn (w.along deeds moves) =
      (w.along (handed i) moves).filterMap fun j => j.2.outbound? := by
  induction moves generalizing w p with
  | nil => rfl
  | cons m rest ih =>
    obtain ⟨p', next, conn, -⟩ := writes sound found m
    have later := ih (sound.proceed m) next
    rw [conn, hub_proceed sound] at later
    rw [along, along, Hub.received_append, List.filterMap_append, received_deeds sound found, later]

/-- The jobs that a writer has handed over, each with its time, and what its socket has been seen to
do: it has taken all of them, but for the one that is being written. -/
structure Progress (w : World) (p : Pump) (jobs : List (Nat × Job)) : Prop where
  more : ∀ j ∈ jobs.dropLast, j.2 ≠ .close
  idle : p.writer.stage = .idle →
    (∀ j ∈ jobs, j.2 ≠ .close) ∧ p.written = jobs.map fun j => j.2.written
  writing : ∀ job deadline, p.writer.stage = .writing job deadline →
    ∃ done time, jobs = done ++ [(time, job)] ∧ deadline = time + w.settings.writeWait ∧
      p.written = done.map (fun j => j.2.written) ∧
      (job = .close → w.hub.isOpen p.conn = false ∧ w.hub.queue p.conn = [])

variable {jobs : List (Nat × Job)}

theorem Progress.still (progress : Progress w p jobs) (sound : Sound w)
    (found : w.pumps[i]? = some p) (conn : p'.conn = p.conn) (writer : p'.writer = p.writer)
    (written : p'.written = p.written) : Progress (w.proceed m) p' jobs where
  more := progress.more
  idle := by
    rw [writer, written]
    exact progress.idle
  writing := by
    intro job deadline stage
    rw [writer] at stage
    obtain ⟨done, time, all, due, seen, last⟩ := progress.writing job deadline stage
    refine ⟨done, time, all, by rw [due, settings_proceed], written.trans seen, fun close => ?_⟩
    obtain ⟨closed, empty⟩ := last close
    obtain ⟨c, there⟩ := Option.isSome_iff_exists.mp (sound.found found)
    rw [conn, hub_proceed sound]
    exact ⟨Hub.closed_of_ages (Hub.ages_run w.hub _) there closed,
      Hub.queue_nil_of_closed there closed empty _⟩

/-- An idle writer takes up a job. -/
theorem Progress.hand (progress : Progress w p jobs) (idle : p.writer.stage = .idle) (job : Job)
    (stage : p'.writer.stage = .writing job (w.now + w.settings.writeWait))
    (written : p'.written = p.written ++ [])
    (last : job = .close →
      (w.proceed m).hub.isOpen p'.conn = false ∧ (w.proceed m).hub.queue p'.conn = []) :
    Progress (w.proceed m) p' (jobs ++ [(w.now, job)]) where
  more := by
    rw [List.dropLast_concat]
    exact (progress.idle idle).1
  idle := fun impossible => by simp [stage] at impossible
  writing := by
    intro job' deadline stage'
    obtain ⟨rfl, rfl⟩ := WriterStage.writing.inj (stage.symm.trans stage')
    refine ⟨jobs, w.now, rfl, by rw [settings_proceed], ?_, last⟩
    rw [written, List.append_nil, (progress.idle idle).2]

theorem Progress.step (progress : Progress w p jobs) (sound : Sound w) {c : Connection}
    {o : Writer.Outcome} (there : w.hub.connection? p.conn = some c)
    (change : p.writer.Change w.settings w.now p.sink c o) (conn : p'.conn = p.conn)
    (writer : p'.writer = o.writer) (written : p'.written = p.written ++ o.written)
    (deeds : w.deeds m = Writer.deeds p.conn p.writer.stage o.writer.stage) :
    Progress (w.proceed m) p' (jobs ++
      ((Writer.handed p.writer.stage p'.writer.stage).map fun job => (w.now, job)).toList) := by
  cases change with
  | take item rest idle waiting =>
    have hand := progress.hand (m := m) idle (.outbound item) (by rw [writer]) written (by simp)
    simpa [writer, idle, Writer.handed] using hand
  | ping idle due =>
    have hand := progress.hand (m := m) idle .ping (by rw [writer]) written (by simp)
    simpa [writer, idle, Writer.handed] using hand
  | last idle empty closed =>
    have hub : (w.proceed m).hub = w.hub := by
      rw [hub_proceed sound, deeds, idle]
      rfl
    have drained : w.hub.isOpen p.conn = false ∧ w.hub.queue p.conn = [] :=
      ⟨by simp [Hub.isOpen, there, closed], (Hub.queue_of_found there).trans empty⟩
    have hand := progress.hand (m := m) idle .close (by rw [writer]) written
      (fun _ => by rwa [hub, conn])
    simpa [writer, idle, Writer.handed] using hand
  | written job deadline writing more =>
    obtain ⟨done, time, all, -, seen, -⟩ := progress.writing job deadline writing
    have ordinary : ∀ j ∈ jobs, j.2 ≠ .close := by
      have before := progress.more
      rw [all, List.dropLast_concat] at before
      simpa [all, or_imp, forall_and, more] using before
    simp only [writer, writing, Writer.handed, Option.map_none, Option.toList_none,
      List.append_nil]
    refine ⟨progress.more, fun _ => ⟨ordinary, ?_⟩, fun _ _ stage => ?_⟩
    · rw [written, seen, all]
      simp
    · simp [writer] at stage
  | farewell deadline writing | broken job deadline writing =>
    simp only [writer, writing, Writer.handed, Option.map_none, Option.toList_none,
      List.append_nil]
    exact ⟨progress.more, fun stage => by simp [writer] at stage,
      fun _ _ stage => by simp [writer] at stage⟩

theorem Progress.proceed (progress : Progress w p jobs) (sound : Sound w)
    (found : w.pumps[i]? = some p) (m : Move) :
    ∃ p', (w.proceed m).pumps[i]? = some p' ∧ p'.conn = p.conn ∧
      Progress (w.proceed m) p' (jobs ++ w.handed i m) := by
  obtain ⟨p', next, conn, ⟨writer, written, -⟩ | ⟨_, c, o, -, there, change, writer, written,
    deeds⟩⟩ := writes sound found m
  · refine ⟨p', next, conn, ?_⟩
    rw [handed_of_still found next writer, List.append_nil]
    exact progress.still sound found conn writer written
  · refine ⟨p', next, conn, ?_⟩
    rw [handed_eq found next]
    exact progress.step sound there change conn writer written deeds

theorem Progress.follow (progress : Progress w p jobs) (sound : Sound w)
    (found : w.pumps[i]? = some p) (moves : List Move) :
    ∃ p', (w.follow moves).pumps[i]? = some p' ∧ p'.conn = p.conn ∧
      Progress (w.follow moves) p' (jobs ++ w.along (handed i) moves) := by
  induction moves generalizing w p jobs with
  | nil =>
    rw [along, List.append_nil]
    exact ⟨p, found, rfl, progress⟩
  | cons m rest ih =>
    obtain ⟨q, next, conn, later⟩ := progress.proceed sound found m
    obtain ⟨p', last, conn', final⟩ := ih later (sound.proceed m) next
    rw [List.append_assoc] at final
    exact ⟨p', last, conn'.trans conn, final⟩

/-- While a writer goes on, its socket has taken all that was handed over, but for one job at most. -/
theorem Progress.held (progress : Progress w p jobs) (going : p.writer.ended = false) :
    ∃ held, held.length ≤ 1 ∧ p.written ++ held = jobs.map fun j => j.2.written := by
  cases stage : p.writer.stage with
  | idle => exact ⟨[], Nat.zero_le 1, by rw [List.append_nil, (progress.idle stage).2]⟩
  | writing job deadline =>
    obtain ⟨done, time, all, -, seen, -⟩ := progress.writing job deadline stage
    exact ⟨[job.written], Nat.le_refl 1, by rw [seen, all, List.map_append]; rfl⟩
  | ended => simp [Writer.ended, stage] at going

/-- A writer that has ended hands over nothing more. -/
theorem follow_of_ended (sound : Sound w) (found : w.pumps[i]? = some p)
    (ended : p.writer.stage = .ended) (moves : List Move) :
    (∃ p', (w.follow moves).pumps[i]? = some p' ∧ p'.written = p.written) ∧
      w.along (handed i) moves = [] := by
  induction moves generalizing w p with
  | nil => exact ⟨⟨p, found, rfl⟩, rfl⟩
  | cons m rest ih =>
    obtain ⟨q, next, -, ⟨writer, written, -⟩ | ⟨_, c, o, -, -, change, -, -, -⟩⟩ :=
      writes sound found m
    · obtain ⟨⟨p', last, seen⟩, nothing⟩ := ih (sound.proceed m) next (by rw [writer, ended])
      refine ⟨⟨p', last, seen.trans written⟩, ?_⟩
      rw [along, handed_of_still found next writer, nothing]
      rfl
    · cases change <;> simp_all

/-- A writer ends when a write comes to nothing or the close frame has been written, and closes the
queue. -/
theorem end_of_ends (sound : Sound w) (ends : w.ends i m = true) :
    ∃ p p' job deadline, w.pumps[i]? = some p ∧ (w.proceed m).pumps[i]? = some p' ∧
      p.writer.stage = .writing job deadline ∧ p'.writer.stage = .ended ∧
      (w.proceed m).hub.isOpen p.conn = false ∧
      (p'.written = p.written ++ [.closed] ∧
          (p.sink.failing = true ∨ p.sink.stalled = true ∧ deadline ≤ w.now) ∨
        p'.written = p.written ++ [.close, .closed] ∧ job = .close) := by
  obtain ⟨before, after⟩ := Bool.and_eq_true_iff.mp ends
  obtain ⟨p, found, going⟩ := (Option.any_eq_true _ _).mp before
  obtain ⟨p', next, -, course⟩ := writes sound found m
  have stopped : p'.writer.ended = true := by simpa [next] using after
  rcases course with ⟨writer, -, -⟩ | ⟨_, c, o, -, there, change, writer, written, deeds⟩
  · rw [writer] at stopped
    simp [stopped] at going
  have closed (job : Job) (deadline : Nat) (writing : p.writer.stage = .writing job deadline)
      (ended : o.writer.stage = .ended) : (w.proceed m).hub.isOpen p.conn = false := by
    rw [hub_proceed sound, deeds, writing, ended]
    exact Hub.closed_of_close there (List.mem_singleton_self _)
  rw [writer] at stopped
  cases change with
  | take | last | ping | written => simp [Writer.ended] at stopped
  | farewell deadline writing =>
    exact ⟨p, p', .close, deadline, found, next, writing, by rw [writer],
      closed _ _ writing rfl, .inr ⟨written, rfl⟩⟩
  | broken job deadline writing refused =>
    exact ⟨p, p', job, deadline, found, next, writing, by rw [writer],
      closed _ _ writing rfl, .inl ⟨written, refused⟩⟩

theorem count_closed (done : List (Nat × Job)) :
    (done.map fun j => j.2.written).count .closed = 0 := by
  apply List.count_eq_zero.mpr
  intro member
  obtain ⟨j, -, same⟩ := List.mem_map.mp member
  exact j.2.written_ne_closed same

/-- What a writer leaves behind when it ends: the last job that it has handed over tells why. -/
theorem Progress.ending (progress : Progress w p jobs) (sound : Sound w)
    (found : w.pumps[i]? = some p) (ends : w.ends i m = true) (back : List Move) :
    let v := w.follow (m :: back)
    w.along (handed i) (m :: back) = [] ∧ v.hub.isOpen p.conn = false ∧
      (∀ a ∈ (w.proceed m).hub.log ((w.proceed m).along deeds back),
        a.conn = p.conn → a.verdict = .closed) ∧
      ∃ q done time job, v.pumps[i]? = some q ∧ jobs = done ++ [(time, job)] ∧
        (job = .close → v.hub.queue p.conn = []) ∧
        (job ≠ .close →
          (p.sink.failing = true ∨
            p.sink.stalled = true ∧ time + w.settings.writeWait ≤ w.now) ∧
          ∀ j ∈ jobs, j.2 ≠ .close) ∧
        (q.written = done.map (fun j => j.2.written) ++ [.closed] ∨
          job = .close ∧ q.written = done.map (fun j => j.2.written) ++ [.close, .closed]) ∧
        q.written.count .closed = 1 := by
  intro v
  obtain ⟨p₁, p₂, job, deadline, found', next, writing, ended, closed, seen⟩ :=
    end_of_ends sound ends
  obtain rfl := Option.some.inj (found.symm.trans found')
  obtain ⟨done, time, all, due, written, final⟩ := progress.writing job deadline writing
  obtain ⟨⟨q, last, same⟩, nothing⟩ := follow_of_ended (sound.proceed m) next ended back
  obtain ⟨c, there⟩ := Option.isSome_iff_exists.mp (sound.found found)
  obtain ⟨c', there', -⟩ := ages_proceed sound m p.conn c there
  have outcome : q.written = done.map (fun j => j.2.written) ++ [.closed] ∧
        (p.sink.failing = true ∨ p.sink.stalled = true ∧ deadline ≤ w.now) ∨
      job = .close ∧ q.written = done.map (fun j => j.2.written) ++ [.close, .closed] := by
    rw [same]
    rcases seen with ⟨broken, refused⟩ | ⟨farewell, close⟩
    · exact .inl ⟨by rw [broken, written], refused⟩
    · exact .inr ⟨close, by rw [farewell, written]⟩
  refine ⟨?_, ?_, ?_, q, done, time, job, last, all, fun close => ?_, fun more => ⟨?_, ?_⟩, ?_, ?_⟩
  · rw [along, handed_eq found next, writing, ended, nothing]
    rfl
  · exact Hub.closed_of_ages (ages_follow (sound.proceed m) back) there' closed
  · exact fun a tried own => Hub.verdict_of_log there' closed tried own
  · obtain ⟨shut, empty⟩ := final close
    rw [hub_follow sound]
    exact Hub.queue_nil_of_closed there shut empty _
  · rcases outcome with ⟨-, refused⟩ | ⟨close, -⟩
    · rwa [due] at refused
    · exact absurd close more
  · have before := progress.more
    rw [all, List.dropLast_concat] at before
    simpa [all, or_imp, forall_and, more] using before
  · exact outcome.imp_left And.left
  · rcases outcome with ⟨broken, -⟩ | ⟨-, farewell⟩
    · simp [broken, count_closed]
    · simp [farewell, count_closed]

theorem progress_attend {conn : ConnId} {answers : Bool}
    (allowed : w.allows (.attend conn answers) = true) :
    ∃ p, (w.proceed (.attend conn answers)).pumps[w.pumps.length]? = some p ∧ p.conn = conn ∧
      Progress (w.proceed (.attend conn answers)) p [] := by
  refine ⟨_, pump_attend allowed, rfl, by simp, fun _ => ⟨by simp, rfl⟩, ?_⟩
  intro job deadline stage
  simp only [Pump.start, Writer.start] at stage
  split at stage <;> contradiction

theorem silent_attend (w : World) (conn : ConnId) (answers : Bool) :
    .receive conn ∉ w.deeds (.attend conn answers) := by
  intro member
  rcases mem_deeds member with ⟨command, same⟩ | same | same | direct
  · cases command <;> cases same
  · cases same
  · cases same
  · have same := (mem_doings_attend direct).1
    cases same

/-- What was taken from a queue before it was served, what its writer has handed over since and what
still waits are together what the queue has accepted. -/
theorem taken_along (sound : Sound w) {conn : ConnId} {answers : Bool}
    (allowed : w.allows (.attend conn answers) = true) (reports : Bool) {earlier : List Hub.Step}
    (hub : w.hub = (Hub.new reports).run earlier) (rest : List Move) :
    let served := w.proceed (.attend conn answers)
    (Hub.new reports).received conn earlier ++
        (served.along (handed w.pumps.length) rest).filterMap (fun j => j.2.outbound?) ++
        (served.follow rest).hub.queue conn =
      Hub.accepted conn
        ((Hub.new reports).log (earlier ++ w.along deeds (.attend conn answers :: rest))) := by
  intro served
  have since : w.hub.received conn (w.along deeds (.attend conn answers :: rest)) =
      (served.along (handed w.pumps.length) rest).filterMap fun j => j.2.outbound? := by
    rw [along, Hub.received_append, Hub.received_of_silent (silent_attend w conn answers),
      ← hub_proceed sound]
    exact received_along (sound.proceed _) (pump_attend allowed) rest
  have last : (served.follow rest).hub =
      (Hub.new reports).run (earlier ++ w.along deeds (.attend conn answers :: rest)) := by
    rw [Hub.run_append, ← hub, ← hub_follow sound]
    rfl
  have whole := Hub.received_run (Hub.new reports) conn
    (earlier ++ w.along deeds (.attend conn answers :: rest))
  rwa [Hub.received_append, ← hub, since, ← last] at whole

/-- Whatever callers, clients, the clock and the socket do, what is handed to the socket is, in order,
what the queue accepted, less what was taken before and what still waits. Only pings come in between,
and a close frame only at the end. When the writer ends it has been handing over the close frame, and
then nothing that was accepted is left; or its last write was refused or took too long, and then it
has handed over no close frame. Either way nothing is handed over any more, the queue is closed and
refuses everything, and the socket is closed once. -/
theorem writer_in_order (settings : Settings) (directory : Directory) (reports : Bool)
    (past rest : List Move) (conn : ConnId) (answers : Bool) :
    let start := World.new settings directory reports
    let w := start.follow past
    let i := w.pumps.length
    let served := w.proceed (.attend conn answers)
    let v := served.follow rest
    let moves := past ++ .attend conn answers :: rest
    let accepts := Hub.accepted conn (start.hub.log (start.along deeds moves))
    let jobs := served.along (handed i) rest
    let taken := start.hub.received conn (start.along deeds past) ++
      jobs.filterMap fun j => j.2.outbound?
    w.allows (.attend conn answers) = true →
      taken ++ v.hub.queue conn = accepts ∧
      (∀ j ∈ jobs.dropLast, j.2 ≠ .close) ∧
      (∃ q, v.pumps[i]? = some q ∧ (q.writer.ended = false →
        ∃ held, held.length ≤ 1 ∧ q.written ++ held = jobs.map fun j => j.2.written)) ∧
      ∀ front m back, rest = front ++ m :: back → (served.follow front).ends i m = true →
        let u := served.follow front
        jobs = served.along (handed i) front ∧ v.hub.isOpen conn = false ∧
          (∀ a ∈ (u.proceed m).hub.log ((u.proceed m).along deeds back),
            a.conn = conn → a.verdict = .closed) ∧
          ∃ p q done time job, u.pumps[i]? = some p ∧ v.pumps[i]? = some q ∧
            jobs = done ++ [(time, job)] ∧
            (job = .close → taken = accepts) ∧
            (job ≠ .close →
              (p.sink.failing = true ∨
                p.sink.stalled = true ∧ time + settings.writeWait ≤ u.now) ∧
              ∀ j ∈ jobs, j.2 ≠ .close) ∧
            (q.written = done.map (fun j => j.2.written) ++ [.closed] ∨
              job = .close ∧ q.written = done.map (fun j => j.2.written) ++ [.close, .closed]) ∧
            q.written.count .closed = 1 := by
  intro start w i served v moves accepts jobs taken allowed
  have sound : Sound w := (sound_new settings directory reports).follow past
  have sound' : Sound served := sound.proceed _
  obtain ⟨p₀, found, own, fresh⟩ := progress_attend allowed
  have whole : taken ++ v.hub.queue conn = accepts := by
    have hub : w.hub = start.hub.run (start.along deeds past) :=
      hub_follow (sound_new settings directory reports) past
    have all := taken_along sound allowed reports hub rest
    change taken ++ v.hub.queue conn = Hub.accepted conn (start.hub.log (start.along deeds moves))
    rw [along_append]
    exact all
  obtain ⟨q, last, -, progress⟩ := fresh.follow sound' found rest
  rw [List.nil_append] at progress
  refine ⟨whole, progress.more, ⟨q, last, progress.held⟩, ?_⟩
  rintro front m back rfl ends u
  obtain ⟨p, here, conn', earlier⟩ := fresh.follow sound' found front
  rw [List.nil_append] at earlier
  obtain ⟨nothing, closed, refused, q, done, time, job, there, all, final, more, seen, once⟩ :=
    earlier.ending (sound'.follow front) here ends back
  have jobs_eq : jobs = served.along (handed i) front := by
    change served.along (handed i) (front ++ m :: back) = _
    rw [along_append, nothing, List.append_nil]
  have wait : u.settings.writeWait = settings.writeWait := by
    rw [settings_follow, settings_proceed, settings_follow]
    rfl
  have v_eq : v = u.follow (m :: back) := follow_append served front (m :: back)
  rw [conn', own, ← v_eq] at closed final
  rw [conn', own] at refused
  rw [wait, ← jobs_eq] at more
  refine ⟨jobs_eq, closed, refused, p, q, done, time, job, here, v_eq ▸ there, jobs_eq.trans all,
    fun close => ?_, more, seen, once⟩
  rw [← whole, final close, List.append_nil]

/-- The queue is closed while the first message is being written; a ping comes before the second. -/
theorem writer_in_order_farewell :
    let settings : Settings := ⟨4, 1000, 100, 90, 64⟩
    let first := Outbound.text "first"
    let second := Outbound.text "second"
    let start := World.new settings ⟨[]⟩ false
    let w := start.follow [.desk (.direct
      (.connect (.repeated 0) (.repeated 1) (.plain (.repeated 1) "phone") 4))]
    let front : List Move := [.desk (.direct (.send 0 first)), .write 0 false,
      .setSink 0 ⟨true, false⟩, .desk (.direct (.send 0 second)), .desk (.direct (.close 0)),
      .wait 95, .setSink 0 ⟨false, false⟩, .write 0 false, .write 0 true, .write 0 false,
      .write 0 false, .write 0 false, .write 0 false]
    let served := w.proceed (.attend 0 false)
    let v := served.follow (front ++ [.write 0 false])
    w.allows (.attend 0 false) = true ∧ (served.follow front).ends 0 (.write 0 false) = true ∧
      served.along (handed 0) (front ++ [.write 0 false]) =
        [(0, .outbound first), (95, .ping), (95, .outbound second), (95, .close)] ∧
      v.hub.isOpen 0 = false ∧ v.hub.queue 0 = [] := by
  intro settings first second start w front served v
  have allowed : w.allows (.attend 0 false) = true := by decide +kernel
  have ends : (served.follow front).ends 0 (.write 0 false) = true := by decide +kernel
  have jobs : served.along (handed 0) (front ++ [.write 0 false]) =
      [(0, .outbound first), (95, .ping), (95, .outbound second), (95, .close)] := by decide +kernel
  obtain ⟨whole, -, -, ending⟩ := writer_in_order settings ⟨[]⟩ false [.desk (.direct
    (.connect (.repeated 0) (.repeated 1) (.plain (.repeated 1) "phone") 4))]
    (front ++ [.write 0 false]) 0 false allowed
  obtain ⟨-, closed, -, p, q, done, time, job, -, -, all, final, -⟩ :=
    ending front (.write 0 false) [] rfl ends
  have close : job = .close := by
    have last := congrArg List.getLast? (jobs.symm.trans all)
    rw [List.getLast?_concat] at last
    exact (congrArg Prod.snd (Option.some.inj last)).symm
  refine ⟨allowed, ends, jobs, closed, ?_⟩
  exact List.append_right_eq_self.mp (whole.trans (final close).symm)

end World
end SignalHub
