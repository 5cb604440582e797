import SignalHub.Proofs.Pump.Timing
import SignalHub.Proofs.World.Run

/-! Time is exact for a pump when the clock stands still while the pump can do something and never
passes the next ping (`punctual`). Then a peer that answers each ping in time is never taken for
dead, whatever else goes on (`Keeping.follow`), and pings are written at the multiples of the period
until the queue is closed (`keepalive_in_time`). -/
namespace SignalHub.World

variable {w : World} {m : Move} {i : Nat} {p p' : Pump} {start : Nat} {heard : List Nat}

/-- The clock waits for what a pump can do, and stops when something falls due for its writer. Each
frame wakes its reader and none ends the reading, and its socket takes what is written. -/
def punctual (i : Nat) (w : World) : Move → Bool
  | .wait time => w.pumps[i]?.all fun p =>
    !p.canServe w.now w.desk && (p.write? w.settings w.now false w.desk).isNone &&
      p.writeDue.all (w.now + time ≤ ·)
  | .arrive j f hold => j != i || (!hold && !f.terminates w.settings)
  | .setSink j sink => j != i || sink.accepts
  | _ => true

/-- Each move of a run is of this kind. -/
def always (kind : World → Move → Bool) : World → List Move → Bool
  | _, [] => true
  | w, m :: rest => kind w m && always kind (w.proceed m) rest

/-- When frames have arrived for a pump. -/
def arrivals (i : Nat) (w : World) (m : Move) : List Nat :=
  w.observed m i fun p p' => if p.unread.length < p'.unread.length then [w.now] else []

theorem always_append {kind : World → Move → Bool} (w : World) (first rest : List Move) :
    w.always kind (first ++ rest) = (w.always kind first && (w.follow first).always kind rest) := by
  induction first generalizing w with
  | nil => rfl
  | cons m first ih =>
    simp only [List.cons_append, always, ih, Bool.and_assoc]
    rfl

theorem arrivals_eq (found : w.pumps[i]? = some p) (next : (w.proceed m).pumps[i]? = some p') :
    w.arrivals i m = if p.unread.length < p'.unread.length then [w.now] else [] :=
  observed_eq found next _

theorem arrivals_of_fewer (found : w.pumps[i]? = some p)
    (next : (w.proceed m).pumps[i]? = some p') (fewer : p'.unread.length ≤ p.unread.length) :
    w.arrivals i m = [] := by
  rw [arrivals_eq found next, if_neg (Nat.not_lt_of_le fewer)]

theorem arrivals_of_more (found : w.pumps[i]? = some p) (next : (w.proceed m).pumps[i]? = some p')
    {f : Frame} (more : p'.unread = p.unread ++ [f]) : w.arrivals i m = [w.now] := by
  rw [arrivals_eq found next, if_pos (by simp [more])]

theorem now_le_follow (w : World) (moves : List Move) : w.now ≤ (w.follow moves).now := by
  induction moves generalizing w with
  | nil => exact Nat.le_refl _
  | cons m rest ih => exact Nat.le_trans (now_proceed w m ▸ Nat.le_add_right _ _) (ih _)

theorem now_le_arrivals (w : World) (moves : List Move) :
    ∀ a ∈ w.along (arrivals i) moves, w.now ≤ a := by
  induction moves generalizing w with
  | nil => simp [along]
  | cons m rest ih =>
    intro a member
    rcases List.mem_append.mp member with first | later
    · simp only [arrivals, observed] at first
      split at first
      · split at first
        · exact Nat.le_of_eq (List.mem_singleton.mp first).symm
        · simp at first
      · simp at first
    · exact Nat.le_trans (now_proceed w m ▸ Nat.le_add_right _ _) (ih _ a later)

theorem Turn.pings (turn : Turn w p m p') : ∃ more, p'.pings = p.pings ++ more := by
  cases turn with
  | serve j hasty events q change =>
    exact ⟨[], change.writing.2.2.trans (List.append_nil _).symm⟩
  | write j pingFirst c o found change => exact ⟨_, p.pings_wrote w.now o⟩
  | idle | arrive | setSink => exact ⟨[], (List.append_nil _).symm⟩

theorem pings_follow (sound : Sound w) (found : w.pumps[i]? = some p) (moves : List Move) :
    ∃ p' more, (w.follow moves).pumps[i]? = some p' ∧ p'.pings = p.pings ++ more := by
  induction moves generalizing w p with
  | nil => exact ⟨p, [], found, (List.append_nil _).symm⟩
  | cons m rest ih =>
    obtain ⟨q, next, grown⟩ : ∃ q, (w.proceed m).pumps[i]? = some q ∧
        ∃ more, q.pings = p.pings ++ more := by
      obtain ⟨q, next, ⟨-, rfl⟩ | ⟨-, turn⟩⟩ := course found (sound.found found) m
      · exact ⟨q, next, [], (List.append_nil _).symm⟩
      · exact ⟨q, next, turn.pings⟩
    obtain ⟨more, first⟩ := grown
    obtain ⟨p', after, last, later⟩ := ih (sound.proceed m) next
    exact ⟨p', more ++ after, last, by rw [later, first, List.append_assoc]⟩

/-- The peer has answered each ping in time, as far as it could. -/
def Responsive (i : Nat) (w : World) (heard : List Nat) : Prop :=
  ∀ p, w.pumps[i]? = some p →
    Answered (w.settings.pongWait - w.settings.pingPeriod) w.now p.pings heard

theorem Responsive.before (sound : Sound w) (found : w.pumps[i]? = some p) {moves : List Move}
    (responsive : Responsive i (w.follow moves) (heard ++ w.along (arrivals i) moves)) :
    Responsive i w heard := by
  intro q same
  obtain rfl := Option.some.inj (found.symm.trans same)
  obtain ⟨p', more, last, pings⟩ := pings_follow sound found moves
  have answered := responsive p' last
  rw [pings, settings_follow] at answered
  exact answered.earlier (now_le_follow w moves) (now_le_arrivals w moves)

/-- Both timers of a pump are kept, and while the queue is open both its sides go on. -/
structure Keeping (w : World) (start : Nat) (p : Pump) (heard : List Nat) : Prop where
  listening : Listening w.settings start w.now p heard
  beating : ∃ count, Beating w.settings start w.now p count
  going : w.hub.isOpen p.conn = true → p.writer.ended = false ∧ ∃ r, p.serving = .reading r

/-- A queue that is open has been open before. -/
theorem isOpen_before (sound : Sound w) (found : w.pumps[i]? = some p)
    (open_ : (w.proceed m).hub.isOpen p.conn = true) : w.hub.isOpen p.conn = true := by
  obtain ⟨c, known⟩ := Option.isSome_iff_exists.mp (sound.found found)
  exact Hub.isOpen_of_ages (ages_proceed sound m) known open_

/-- For a move that takes no time the two sides of a pump can be looked at one by one. -/
theorem keeping_of_instant (sound : Sound w) (found : w.pumps[i]? = some p) (instant : m.time = 0)
    (conn : p'.conn = p.conn) (listening : Listening w.settings start w.now p' heard)
    (beating : ∃ count, Beating w.settings start w.now p' count)
    (going : w.hub.isOpen p.conn = true → (w.proceed m).hub.isOpen p.conn = true →
      p'.writer.ended = false ∧ ∃ r, p'.serving = .reading r) :
    Keeping (w.proceed m) start p' heard := by
  have now : (w.proceed m).now = w.now := by rw [now_proceed, instant, Nat.add_zero]
  refine ⟨?_, ?_, fun open_ => ?_⟩
  · rwa [settings_proceed, now]
  · rwa [settings_proceed, now]
  · rw [conn] at open_
    exact going (isOpen_before sound found open_) open_

theorem Keeping.still (keeping : Keeping w start p heard) (sound : Sound w)
    (found : w.pumps[i]? = some p) (instant : m.time = 0) : Keeping (w.proceed m) start p heard :=
  keeping_of_instant sound found instant rfl keeping.listening keeping.beating
    fun open_ _ => keeping.going open_

/-- What exact time asks of a move that lets time pass. -/
theorem rests_of_punctual {time : Nat} (sound : Sound w) (found : w.pumps[i]? = some p)
    (accepts : p.sink.accepts = true) (timely : w.punctual i (.wait time) = true) :
    p.canServe w.now w.desk = false ∧ p.writeDue.all (w.now + time ≤ ·) = true ∧
      ∃ c, w.hub.connection? p.conn = some c ∧ p.writer.Rests w.now c := by
  obtain ⟨c, known⟩ := Option.isSome_iff_exists.mp (sound.found found)
  simp only [punctual, found, Option.all_some, Bool.and_eq_true, Bool.not_eq_true',
    Option.isNone_iff_eq_none] at timely
  obtain ⟨⟨stays, waits⟩, due⟩ := timely
  exact ⟨stays, due, c, known, Pump.rests accepts known waits⟩

theorem Keeping.wait {time : Nat} (keeping : Keeping w start p heard) (sound : Sound w)
    (found : w.pumps[i]? = some p) (slower : w.settings.pingPeriod < w.settings.pongWait)
    (timely : w.punctual i (.wait time) = true)
    (responsive : Responsive i (w.proceed (.wait time)) heard) :
    Keeping (w.proceed (.wait time)) start p heard := by
  obtain ⟨count, beating⟩ := keeping.beating
  obtain ⟨stays, due, c, known, rests⟩ := rests_of_punctual sound found beating.accepts timely
  have beating' := beating.wait rests (Nat.le_add_right _ _) due
  have answered := responsive p found
  exact ⟨keeping.listening.wait beating' slower (Nat.le_add_right _ _) stays rests answered,
    ⟨count, beating'⟩, keeping.going⟩

/-- A writer that ends has closed the queue. -/
theorem going_of_open {pingFirst : Bool} {c : Connection} {o : Writer.Outcome} (sound : Sound w)
    (there : w.hub.connection? p.conn = some c)
    (change : p.writer.Change w.settings w.now p.sink c o)
    (deeds : w.deeds (.write i pingFirst) = Writer.deeds p.conn p.writer.stage o.writer.stage)
    (open_ : (w.proceed (.write i pingFirst)).hub.isOpen p.conn = true) :
    o.writer.ended = false := by
  cases change with
  | take | last | ping | written => rfl
  | farewell deadline writing | broken job deadline writing =>
    have closes : .close p.conn ∈ w.deeds (.write i pingFirst) := by
      simp [deeds, writing, Writer.deeds]
    rw [hub_proceed sound, Hub.closed_of_close there closes] at open_
    contradiction

theorem Keeping.turn (keeping : Keeping w start p heard) (sound : Sound w)
    (found : w.pumps[i]? = some p) (positive : 0 < w.settings.pongWait)
    (timely : w.punctual i m = true) (own : m.pump? = some i) (turn : Turn w p m p')
    (next : (w.proceed m).pumps[i]? = some p') :
    Keeping (w.proceed m) start p' (heard ++ w.arrivals i m) := by
  obtain ⟨count, beating⟩ := keeping.beating
  have conn := turn.conn
  cases turn with
  | serve j hasty events q change =>
    rw [arrivals_of_fewer found next change.unread, List.append_nil]
    obtain ⟨sink, writer, pings⟩ := change.writing
    refine keeping_of_instant sound found rfl conn ?_ ⟨count, ?_⟩ fun open_ _ => ?_
    · exact (keeping.listening.serve positive change).same rfl rfl rfl
    · exact beating.same (sink ▸ beating.accepts) writer pings
    · obtain ⟨going, reads⟩ := keeping.going open_
      have after := keeping.listening.reads change going reads
      exact after
  | write j pingFirst c o there change done =>
    obtain rfl : j = i := Option.some.inj own
    obtain ⟨count', beating'⟩ := beating.write change
    obtain ⟨unread, awake, wrote⟩ := p.wrote_eq w.now o
    refine keeping_of_instant sound found rfl conn ?_ ⟨count', ?_⟩ fun before open_ => ?_
    · rcases keeping.listening.write o with ⟨fewer, listening⟩ | ⟨more, listening⟩
      · have none := arrivals_of_fewer found next (Nat.le_of_eq (congrArg List.length fewer))
        rw [none, List.append_nil]
        exact listening.same rfl rfl rfl
      · rw [arrivals_of_more found next more]
        exact listening.same rfl rfl rfl
    · exact beating'.same beating'.accepts rfl rfl
    · rw [wrote]
      exact ⟨going_of_open sound there change (deeds_write found done) open_,
        (keeping.going before).2⟩
  | idle j pingFirst =>
    rw [arrivals_of_fewer found next (Nat.le_refl _), List.append_nil]
    exact keeping.still sound found rfl
  | arrive j f hold =>
    obtain rfl : j = i := Option.some.inj own
    obtain ⟨wakes, harmless⟩ : hold = false ∧ f.terminates w.settings = false := by
      simpa [punctual] using timely
    rw [arrivals_of_more found next rfl]
    refine keeping_of_instant sound found rfl conn ?_ ⟨count, ?_⟩ fun open_ _ => keeping.going open_
    · exact keeping.listening.hear harmless rfl rfl (by simp [Pump.arrive, wakes])
    · exact beating.same beating.accepts rfl rfl
  | setSink j sink =>
    obtain rfl : j = i := Option.some.inj own
    have accepts : sink.accepts = true := by simpa [punctual] using timely
    rw [arrivals_of_fewer found next (Nat.le_refl _), List.append_nil]
    refine keeping_of_instant sound found rfl conn ?_ ⟨count, ?_⟩ fun open_ _ => keeping.going open_
    · exact keeping.listening.same rfl rfl rfl
    · exact beating.same accepts rfl rfl

theorem Keeping.proceed (keeping : Keeping w start p heard) (sound : Sound w)
    (found : w.pumps[i]? = some p) (slower : w.settings.pingPeriod < w.settings.pongWait)
    (timely : w.punctual i m = true)
    (responsive : Responsive i (w.proceed m) (heard ++ w.arrivals i m)) :
    ∃ p', (w.proceed m).pumps[i]? = some p' ∧ p'.conn = p.conn ∧
      Keeping (w.proceed m) start p' (heard ++ w.arrivals i m) := by
  obtain ⟨p', next, ⟨apart, rfl⟩ | ⟨own, turn⟩⟩ := course found (sound.found found) m
  · have none : w.arrivals i m = [] := arrivals_of_fewer found next (Nat.le_refl _)
    rw [none, List.append_nil] at responsive ⊢
    refine ⟨p', next, rfl, ?_⟩
    cases m with
    | wait time => exact keeping.wait sound found slower timely responsive
    | _ => exact keeping.still sound found rfl
  · exact ⟨p', next, turn.conn, keeping.turn sound found (by omega) timely own turn next⟩

/-- A peer that has answered in time so far is not taken for dead. -/
theorem Keeping.follow (keeping : Keeping w start p heard) (sound : Sound w)
    (found : w.pumps[i]? = some p) (slower : w.settings.pingPeriod < w.settings.pongWait)
    {moves : List Move} (timely : w.always (punctual i) moves = true)
    (responsive : Responsive i (w.follow moves) (heard ++ w.along (arrivals i) moves)) :
    ∃ p', (w.follow moves).pumps[i]? = some p' ∧ p'.conn = p.conn ∧
      Keeping (w.follow moves) start p' (heard ++ w.along (arrivals i) moves) := by
  induction moves generalizing w p heard with
  | nil =>
    rw [along, List.append_nil]
    exact ⟨p, found, rfl, keeping⟩
  | cons m rest ih =>
    obtain ⟨first, later⟩ := Bool.and_eq_true_iff.mp timely
    rw [along, ← List.append_assoc] at responsive ⊢
    obtain ⟨q, next, -⟩ := course found (sound.found found) m
    have soon := Responsive.before (sound.proceed m) next responsive
    obtain ⟨q, next, conn, kept⟩ := keeping.proceed sound found slower first soon
    obtain ⟨p', last, conn', final⟩ :=
      ih kept (sound.proceed m) next (by rwa [settings_proceed]) later responsive
    exact ⟨p', last, conn'.trans conn, final⟩

theorem keeping_attend {conn : ConnId} {answers : Bool}
    (allowed : w.allows (.attend conn answers) = true) (positive : 0 < w.settings.pingPeriod)
    (slower : w.settings.pingPeriod < w.settings.pongWait) :
    ∃ p, (w.proceed (.attend conn answers)).pumps[w.pumps.length]? = some p ∧ p.conn = conn ∧
      Keeping (w.proceed (.attend conn answers)) w.now p [] := by
  have idle : (Writer.start w.settings w.now).stage = .idle := if_neg (Nat.ne_of_gt positive)
  have now : (w.proceed (.attend conn answers)).now = w.now := now_proceed w _
  refine ⟨_, pump_attend allowed, rfl, ?_, ⟨0, ?_⟩, fun _ => ⟨?_, _, rfl⟩⟩
  · rw [settings_proceed, now]
    exact .reading w.now rfl (Nat.le_refl _) (Nat.le_refl _) (by omega) (by simp [Pump.start])
      (by simp [Pump.start]) (by simp) (by simp)
  · rw [settings_proceed, now]
    refine ⟨rfl, ?_, ?_, fun _ => Nat.le_add_right _ _, by simp [Pump.pings, Pump.start]⟩
    · simp [Pump.pings, Pump.start, idle, WriterStage.pending, multiples]
    · simp [Pump.start, Writer.start]
  · simp [Pump.start, Writer.ended, idle]

/-- Since the queue was closed the clock has stood still or the writer has ended, and no ping has been
written later. -/
structure Silenced (w : World) (closed : Nat) (p : Pump) : Prop where
  accepts : p.sink.accepts = true
  shut : w.hub.isOpen p.conn = false
  settled : p.writer.stage = .ended ∨ w.now = closed
  pings : ∀ t ∈ p.pings, t ≤ closed

variable {closed : Nat}

/-- What is closed stays closed. -/
theorem closed_after (sound : Sound w) (found : w.pumps[i]? = some p)
    (shut : w.hub.isOpen p.conn = false) (m : Move) : (w.proceed m).hub.isOpen p.conn = false :=
  Bool.eq_false_iff.mpr fun open_ => by simp [isOpen_before sound found open_] at shut

theorem Silenced.still (silenced : Silenced w closed p) (sound : Sound w)
    (found : w.pumps[i]? = some p) (instant : m.time = 0) (conn : p'.conn = p.conn)
    (accepts : p'.sink.accepts = true) (writer : p'.writer = p.writer)
    (pings : p'.pings = p.pings) : Silenced (w.proceed m) closed p' where
  accepts := accepts
  shut := by
    rw [conn]
    exact closed_after sound found silenced.shut m
  settled := by
    rw [writer, now_proceed, instant]
    exact silenced.settled
  pings := by
    rw [pings]
    exact silenced.pings

theorem Silenced.turn (silenced : Silenced w closed p) (sound : Sound w)
    (found : w.pumps[i]? = some p) (timely : w.punctual i m = true) (own : m.pump? = some i)
    (turn : Turn w p m p') : Silenced (w.proceed m) closed p' := by
  have accepts := silenced.accepts
  have conn := turn.conn
  cases turn with
  | serve j hasty events q change =>
    obtain ⟨sink, writer, pings⟩ := change.writing
    exact silenced.still sound found rfl conn (sink ▸ accepts) writer pings
  | idle j pingFirst => exact silenced.still sound found rfl conn accepts rfl rfl
  | arrive j f hold => exact silenced.still sound found rfl conn accepts rfl rfl
  | setSink j sink =>
    obtain rfl : j = i := Option.some.inj own
    have accepts' : sink.accepts = true := by simpa [punctual] using timely
    exact silenced.still sound found rfl conn accepts' rfl rfl
  | write j pingFirst c o there change =>
    obtain ⟨unread, awake, wrote⟩ := p.wrote_eq w.now o
    have now : w.now = closed := by
      rcases silenced.settled with ended | now
      · cases change <;> simp_all
      · exact now
    refine ⟨by rwa [wrote], ?_, .inr ((now_proceed w _).trans now), ?_⟩
    · rw [conn]
      exact closed_after sound found silenced.shut _
    · intro t member
      rcases Pump.mem_pings_wrote member with old | new
      · exact silenced.pings t old
      · omega

theorem Silenced.proceed (silenced : Silenced w closed p) (sound : Sound w)
    (found : w.pumps[i]? = some p) (timely : w.punctual i m = true) :
    ∃ p', (w.proceed m).pumps[i]? = some p' ∧ Silenced (w.proceed m) closed p' := by
  obtain ⟨p', next, ⟨apart, rfl⟩ | ⟨own, turn⟩⟩ := course found (sound.found found) m
  · refine ⟨p', next, ?_⟩
    cases m with
    | wait time =>
      obtain ⟨-, -, c, known, rests⟩ := rests_of_punctual sound found silenced.accepts timely
      -- A writer that waits for a ping has an open queue, so this one has ended.
      cases rests with
      | ended stage => exact ⟨silenced.accepts, silenced.shut, .inl stage, silenced.pings⟩
      | waiting stage open_ =>
        have shut := silenced.shut
        simp [Hub.isOpen, known, open_] at shut
    | _ => exact silenced.still sound found rfl rfl silenced.accepts rfl rfl
  · exact ⟨p', next, silenced.turn sound found timely own turn⟩

theorem Silenced.follow (silenced : Silenced w closed p) (sound : Sound w)
    (found : w.pumps[i]? = some p) {moves : List Move}
    (timely : w.always (punctual i) moves = true) :
    ∃ p', (w.follow moves).pumps[i]? = some p' ∧ Silenced (w.follow moves) closed p' := by
  induction moves generalizing w p with
  | nil => exact ⟨p, found, silenced⟩
  | cons m rest ih =>
    obtain ⟨first, later⟩ := Bool.and_eq_true_iff.mp timely
    obtain ⟨q, next, still⟩ := silenced.proceed sound found first
    exact ih still (sound.proceed m) next later

/-- Whatever else goes on, and however long, the deadline of the reader lies ahead as long as the peer
answers each ping in time. A ping is written at each multiple of the period that is past while the queue
is open, and at no other time; none is written after the instant in which the queue is closed. Up to
then both sides go on. -/
theorem keepalive_in_time (capacity writeWait seconds maxMessageBytes : Nat) (settings : Settings)
    (directory : Directory) (reports : Bool) (past rest : List Move) (conn : ConnId)
    (answers : Bool) :
    let w := (World.new settings directory reports).follow past
    let i := w.pumps.length
    let served := w.proceed (.attend conn answers)
    let v := served.follow rest
    Settings.make capacity writeWait (seconds * Settings.second) maxMessageBytes = .ok settings →
      1 ≤ seconds → w.allows (.attend conn answers) = true →
      served.always (punctual i) rest = true → Responsive i v (served.along (arrivals i) rest) →
      ∀ front back, rest = front ++ back →
        let u := served.follow front
        ∃ q, u.pumps[i]? = some q ∧ (∀ deadline, q.readDue = some deadline → u.now < deadline) ∧
          (∃ count, q.pings = multiples w.now settings.pingPeriod count) ∧
          (u.hub.isOpen conn = true →
            q.readDue.isSome = true ∧ q.writer.ended = false ∧
              ∀ j, w.now + (j + 1) * settings.pingPeriod < u.now →
                w.now + (j + 1) * settings.pingPeriod ∈ q.pings) ∧
          (u.hub.isOpen conn = false →
            ∀ q', v.pumps[i]? = some q' → ∀ t ∈ q'.pings, t ≤ u.now) := by
  intro w i served v made long allowed always responsive front back split u
  have sound : Sound w := (sound_new settings directory reports).follow past
  have sound' : Sound served := sound.proceed _
  have same : w.settings = settings := settings_follow _ past
  have second : 0 < seconds * Settings.second := Nat.mul_pos long (by decide)
  have slower := Settings.pingPeriod_lt_pongWait made second
  have positive := Settings.pingPeriod_pos made long
  obtain ⟨p, found, own, kept⟩ := keeping_attend allowed (same ▸ positive) (same ▸ slower)
  have settings_served : served.settings = settings := by rw [settings_proceed, same]
  have v_eq : v = u.follow back := by rw [← follow_append, ← split]
  rw [split, always_append, Bool.and_eq_true_iff] at always
  obtain ⟨before, after⟩ := always
  have soon : Responsive i u (served.along (arrivals i) front) := by
    obtain ⟨q, -, there, -⟩ := pings_follow sound' found front
    have whole : Responsive i (u.follow back)
        (served.along (arrivals i) front ++ u.along (arrivals i) back) := by
      rw [← along_append, ← split, ← v_eq]
      exact responsive
    exact whole.before (sound'.follow front) there
  obtain ⟨q, here, conn', final⟩ :=
    kept.follow sound' found (settings_served ▸ slower) before (by simpa using soon)
  obtain ⟨count, beating⟩ := final.beating
  have settings_u : u.settings = settings := by rw [settings_follow, settings_served]
  rw [← own, ← conn']
  refine ⟨q, here, fun deadline => final.listening.early, ?_, fun open_ => ?_, fun shut => ?_⟩
  · have pings := beating.pings
    rwa [settings_u] at pings
  · obtain ⟨going, reads⟩ := final.going open_
    have complete := beating.complete going
    rw [settings_u] at complete
    exact ⟨final.listening.due reads, going, complete⟩
  · intro q' last
    have quiet : Silenced u u.now q := ⟨beating.accepts, shut, .inr rfl, beating.past⟩
    obtain ⟨q'', last', silenced⟩ := quiet.follow (sound'.follow front) here after
    obtain rfl := Option.some.inj (last.symm.trans (v_eq ▸ last'))
    exact silenced.pings

/-- The first ping is answered after fifty milliseconds; the queue is closed after the second. -/
theorem keepalive_in_time_pong :
    let settings : Settings := ⟨4, 1000, 1000000000, 900000000, 64⟩
    let past : List Move := [.desk (.direct
      (.connect (.repeated 0) (.repeated 1) (.plain (.repeated 1) "phone") 4))]
    let front : List Move := [.wait 900000000, .write 0 false, .write 0 false, .wait 50000000,
      .arrive 0 .pong false, .serve 0 false, .wait 850000000, .write 0 false, .write 0 false,
      .wait 20000000]
    let back : List Move := [.desk (.direct (.close 0)), .write 0 false, .write 0 false,
      .serve 0 false]
    let w := (World.new settings ⟨[]⟩ false).follow past
    let served := w.proceed (.attend 0 false)
    let u := served.follow front
    served.always (punctual 0) (front ++ back) = true ∧
      served.along (arrivals 0) (front ++ back) = [950000000] ∧ u.now = 1820000000 ∧
      ∃ q, u.pumps[0]? = some q ∧ q.writer.ended = false ∧ 900000000 ∈ q.pings ∧
        1800000000 ∈ q.pings ∧ ∀ deadline, q.readDue = some deadline → 1820000000 < deadline := by
  intro settings past front back w served u
  have made : Settings.make 4 1000 (1 * Settings.second) 64 = .ok settings := by rfl
  have allowed : w.allows (.attend 0 false) = true := by decide +kernel
  have always : served.always (punctual 0) (front ++ back) = true := by decide +kernel
  have heard : served.along (arrivals 0) (front ++ back) = [950000000] := by decide +kernel
  have now : u.now = 1820000000 := by decide +kernel
  have open_ : u.hub.isOpen 0 = true := by decide +kernel
  have first : w.now + (0 + 1) * settings.pingPeriod = 900000000 := by decide +kernel
  have second : w.now + (1 + 1) * settings.pingPeriod = 1800000000 := by decide +kernel
  have margin : (served.follow (front ++ back)).settings.pongWait -
      (served.follow (front ++ back)).settings.pingPeriod = 100000000 := by decide +kernel
  have final : (served.follow (front ++ back)).now = 1820000000 := by decide +kernel
  have answered : ((served.follow (front ++ back)).pumps[0]?.all fun p =>
      decide (Answered 100000000 1820000000 p.pings [950000000])) = true := by decide +kernel
  have responsive : Responsive 0 (served.follow (front ++ back))
      (served.along (arrivals 0) (front ++ back)) := by
    intro p found
    rw [found] at answered
    rw [heard, margin, final]
    exact of_decide_eq_true answered
  obtain ⟨q, here, early, -, going, -⟩ := keepalive_in_time 4 1000 1 64 settings ⟨[]⟩ false past
    (front ++ back) 0 false made (Nat.le_refl 1) allowed always responsive front back rfl
  obtain ⟨-, running, sent⟩ := going open_
  have sent₁ := sent 0 (by rw [first]; exact now ▸ by decide)
  have sent₂ := sent 1 (by rw [second]; exact now ▸ by decide)
  rw [first] at sent₁
  rw [second] at sent₂
  rw [now] at early
  exact ⟨always, heard, now, q, here, running, sent₁, sent₂, early⟩

end SignalHub.World
