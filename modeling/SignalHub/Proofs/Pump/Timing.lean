import SignalHub.Proofs.Pump.Steps

/-! The writer keeps a beat: it has begun one ping for each period that has passed, and takes up the
next no later than when it is due (`Beating`). The reader has a deadline that every frame pushes
forward (`Listening`). A ping and the answer to it take less than the time for which the peer may be
silent, so the beat keeps the deadline ahead (`early_of_answered`). -/
namespace SignalHub

namespace Settings

variable {capacity writeWait pongWait maxMessageBytes : Nat} {s : Settings}

theorem waits_of_make (made : make capacity writeWait pongWait maxMessageBytes = .ok s) :
    s.pongWait = pongWait ∧ s.pingPeriod = pongWait * 9 / 10 := by
  unfold make at made
  split at made
  · rw [← Except.ok.inj made]
    exact ⟨rfl, rfl⟩
  · contradiction

/-- Pings come more often than the peer may be silent, by at least one instant. -/
theorem pingPeriod_lt_pongWait (made : make capacity writeWait pongWait maxMessageBytes = .ok s)
    (positive : 0 < pongWait) : s.pingPeriod < s.pongWait := by
  obtain ⟨wait, period⟩ := waits_of_make made
  omega

theorem pingPeriod_pos {seconds : Nat}
    (made : make capacity writeWait (seconds * second) maxMessageBytes = .ok s)
    (positive : 0 < seconds) : 0 < s.pingPeriod := by
  obtain ⟨-, period⟩ := waits_of_make made
  unfold second at period
  omega

end Settings

/-- The first so many multiples of a period, counted from a start. -/
def multiples (start period count : Nat) : List Nat :=
  (List.range count).map fun j => start + (j + 1) * period

theorem multiples_succ (start period count : Nat) :
    multiples start period (count + 1) =
      multiples start period count ++ [start + (count + 1) * period] := by
  simp [multiples, List.range_succ]

theorem mem_multiples {start period count t : Nat} :
    t ∈ multiples start period count ↔ ∃ j < count, start + (j + 1) * period = t := by
  simp [multiples]

/-- Each ping has been answered by something that was heard in less than the margin, unless there is
still time for that. -/
def Answered (margin now : Nat) (pings heard : List Nat) : Prop :=
  ∀ t ∈ pings, t + margin ≤ now → ∃ a ∈ heard, t ≤ a ∧ a < t + margin

instance (margin now : Nat) (pings heard : List Nat) : Decidable (Answered margin now pings heard) :=
  inferInstanceAs (Decidable (∀ t ∈ pings, t + margin ≤ now → ∃ a ∈ heard, t ≤ a ∧ a < t + margin))

/-- What is heard later is no answer to a ping whose time is already over. -/
theorem Answered.earlier {margin now later : Nat} {pings more heard after : List Nat}
    (answered : Answered margin later (pings ++ more) (heard ++ after)) (before : now ≤ later)
    (fresh : ∀ a ∈ after, now ≤ a) : Answered margin now pings heard := by
  intro t sent expired
  obtain ⟨a, answer, since, soon⟩ :=
    answered t (List.mem_append_left more sent) (Nat.le_trans expired before)
  rcases List.mem_append.mp answer with old | new
  · exact ⟨a, old, since, soon⟩
  · have late := fresh a new
    omega

/-- Whoever has answered every ping in time was heard recently enough. The last thing heard is no older
than any ping that has been sent: an older one would have been answered before the deadline. -/
theorem early_of_answered {start period wait now last count : Nat} {heard : List Nat}
    (slower : period < wait) (begun : start ≤ last) (known : ∀ a ∈ heard, a ≤ last)
    (answered : Answered (wait - period) now (multiples start period count) heard)
    (next : now ≤ start + (count + 1) * period) : now < last + wait := by
  apply Nat.lt_of_not_le
  intro late
  have recent : ∀ j ≤ count, start + j * period ≤ last := by
    intro j bound
    induction j with
    | zero => simpa using begun
    | succ j ih =>
      have previous := ih (by omega)
      have beat : (j + 1) * period = j * period + period := Nat.succ_mul j period
      have sent : start + (j + 1) * period ∈ multiples start period count :=
        mem_multiples.mpr ⟨j, bound, rfl⟩
      obtain ⟨a, answer, since, -⟩ := answered _ sent (by omega)
      exact Nat.le_trans since (known a answer)
  have beat : (count + 1) * period = count * period + period := Nat.succ_mul count period
  have newest := recent count (Nat.le_refl count)
  omega

/-- When a ping was written, if that is what was seen. -/
def Event.ping? : Nat × Event → Option Nat
  | (time, .written .ping) => some time
  | _ => none

/-- The times at which pings have been written, oldest first. -/
def Pump.pings (p : Pump) : List Nat := p.events.reverse.filterMap Event.ping?

/-- The ping that is being written. -/
def WriterStage.pending (now : Nat) : WriterStage → List Nat
  | .writing .ping _ => [now]
  | _ => []

theorem Pump.pings_wrote (p : Pump) (now : Nat) (o : Writer.Outcome) :
    (p.wrote now o).pings =
      p.pings ++ o.written.filterMap fun w => Event.ping? (now, .written w) := by
  obtain ⟨unread, awake, wrote⟩ := p.wrote_eq now o
  rw [wrote, pings, List.reverse_append, List.reverse_reverse, List.filterMap_append,
    List.filterMap_map]
  rfl

theorem Pump.mem_pings_wrote {p : Pump} {now t : Nat} {o : Writer.Outcome}
    (member : t ∈ (p.wrote now o).pings) : t ∈ p.pings ∨ t = now := by
  rw [pings_wrote] at member
  rcases List.mem_append.mp member with old | new
  · exact .inl old
  · obtain ⟨w, -, ping⟩ := List.mem_filterMap.mp new
    cases w <;> simp [Event.ping?] at ping
    exact .inr ping.symm

/-- The serving side leaves the writing alone. -/
theorem Pump.Change.writing {s : Settings} {now : Nat} {d : Desk} {p p' : Pump}
    {events : List Desk.Event} (change : Change s now d p events p') :
    p'.sink = p.sink ∧ p'.writer = p.writer ∧ p'.pings = p.pings := by
  cases change with
  | finish => exact ⟨rfl, rfl, by simp [pings, Event.ping?]⟩
  | read | wait | leave | blocked | close | idle => exact ⟨rfl, rfl, rfl⟩

/-- The socket takes what is written, and each ping is begun when it is due. -/
structure Beating (s : Settings) (start now : Nat) (p : Pump) (count : Nat) : Prop where
  accepts : p.sink.accepts = true
  begun : p.pings ++ p.writer.stage.pending now = multiples start s.pingPeriod count
  next : p.writer.nextPing = start + (count + 1) * s.pingPeriod
  ahead : p.writer.ended = false → now ≤ p.writer.nextPing
  past : ∀ t ∈ p.pings, t ≤ now

variable {s : Settings} {start now later count : Nat} {p p' : Pump} {d : Desk} {c : Connection}
  {heard : List Nat}

theorem Beating.same (beating : Beating s start now p count) (sink : p'.sink.accepts = true)
    (writer : p'.writer = p.writer) (pings : p'.pings = p.pings) :
    Beating s start now p' count := by
  refine ⟨sink, ?_, ?_, ?_, ?_⟩
  · rw [writer, pings, beating.begun]
  · rw [writer, beating.next]
  · rw [writer]
    exact beating.ahead
  · rw [pings]
    exact beating.past

theorem Beating.write (beating : Beating s start now p count) {o : Writer.Outcome}
    (change : p.writer.Change s now p.sink c o) :
    ∃ count', Beating s start now (p.wrote now o) count' := by
  obtain ⟨unread, awake, wrote⟩ := p.wrote_eq now o
  have sink : (p.wrote now o).sink.accepts = true := by
    rw [wrote]
    exact beating.accepts
  have writer : (p.wrote now o).writer = o.writer := by rw [wrote]
  have pings := p.pings_wrote now o
  have past : ∀ t ∈ (p.wrote now o).pings, t ≤ now := fun t member =>
    (Pump.mem_pings_wrote member).elim (beating.past t) Nat.le_of_eq
  have begun := beating.begun
  have next := beating.next
  cases change with
  | take item rest idle | last idle =>
    have ahead := beating.ahead (by simp [Writer.ended, idle])
    refine ⟨count, sink, ?_, by rw [writer, next], fun _ => by rwa [writer], past⟩
    simpa [pings, writer, WriterStage.pending, idle] using begun
  | ping idle due =>
    have ahead := beating.ahead (by simp [Writer.ended, idle])
    have beat : (count + 1 + 1) * s.pingPeriod = (count + 1) * s.pingPeriod + s.pingPeriod :=
      Nat.succ_mul _ _
    refine ⟨count + 1, sink, ?_, ?_, ?_, past⟩
    -- A ping is not taken up before it is due, and the clock has not passed that.
    · have instant : now = start + (count + 1) * s.pingPeriod := by omega
      rw [multiples_succ, ← begun, ← instant]
      simp [pings, writer, WriterStage.pending, idle]
    · rw [writer, beat, ← Nat.add_assoc, ← next]
    · rw [writer]
      exact fun _ => Nat.le_trans ahead (Nat.le_add_right _ _)
  | written job deadline writing more =>
    have ahead := beating.ahead (by simp [Writer.ended, writing])
    refine ⟨count, sink, ?_, by rw [writer, next], fun _ => by rwa [writer], past⟩
    rw [← begun, pings, writer]
    cases job <;> simp [writing, WriterStage.pending, Event.ping?, Job.written]
  | farewell deadline writing =>
    have stopped : (p.wrote now _).writer.ended = true := congrArg Writer.ended writer
    refine ⟨count, sink, ?_, by rw [writer, next], fun going => by simp [stopped] at going, past⟩
    rw [← begun, pings, writer]
    simp [writing, WriterStage.pending, Event.ping?]
  | broken job deadline writing refused =>
    have accepts := beating.accepts
    rcases refused with failing | ⟨stalled, -⟩
    · simp [Sink.accepts, failing] at accepts
    · simp [Sink.accepts, stalled] at accepts

/-- The writer can do nothing now: it has ended, or waits for the next ping. -/
inductive Writer.Rests (now : Nat) (c : Connection) (w : Writer) : Prop where
  | ended (stage : w.stage = .ended)
  | waiting (stage : w.stage = .idle) (open_ : c.senderOpen = true) (early : now < w.nextPing)

/-- What stops a writer whose socket takes what is written is not the socket. -/
theorem Pump.rests (accepts : p.sink.accepts = true) (found : d.hub.connection? p.conn = some c)
    (waits : p.write? s now false d = none) : p.writer.Rests now c := by
  have stuck : p.writer.step? s now p.sink false c = none := by
    simpa [write?, found, ← Option.eq_none_iff_forall_ne_some] using waits
  unfold Writer.step? at stuck
  unfold Sink.accepts at accepts
  cases stage : p.writer.stage with
  | ended => exact .ended stage
  | writing job deadline => simp_all
  | idle =>
    simp only [stage, Bool.false_eq_true, ↓reduceIte, Option.or_eq_none_iff, Writer.serveQueue?,
      Writer.ping?] at stuck
    obtain ⟨nothing, early⟩ := stuck
    refine .waiting stage ?_ ?_
    · cases taken : c.take? <;> simp_all
    · apply Nat.lt_of_not_le
      intro due
      simp [due] at early

/-- The beat goes on while the writer waits, up to the next ping. -/
theorem Beating.wait (beating : Beating s start now p count) (rests : p.writer.Rests now c)
    (before : now ≤ later) (due : p.writeDue.all (later ≤ ·) = true) :
    Beating s start later p count := by
  refine ⟨beating.accepts, ?_, beating.next, ?_, ?_⟩
  · rw [← beating.begun]
    cases rests with
    | ended stage | waiting stage => simp [stage, WriterStage.pending]
  · intro going
    cases rests with
    | ended stage => simp [Writer.ended, stage] at going
    | waiting stage => simpa [Pump.writeDue, stage] using due
  · exact fun t member => Nat.le_trans (beating.past t member) before

/-- Pings have been written at multiples of the period only. -/
theorem Beating.pings (beating : Beating s start now p count) :
    ∃ k, p.pings = multiples start s.pingPeriod k := by
  have begun := beating.begun
  cases pending : p.writer.stage.pending now with
  | nil => exact ⟨count, by simpa [pending] using begun⟩
  | cons t rest =>
    obtain rfl : rest = [] := by
      unfold WriterStage.pending at pending
      split at pending
      · exact (List.cons.inj pending).2.symm
      · contradiction
    rw [pending] at begun
    cases count with
    | zero => simp [multiples] at begun
    | succ k =>
      rw [multiples_succ] at begun
      exact ⟨k, (List.append_inj' begun rfl).1⟩

/-- While the writer goes on, a ping has been written at every multiple of the period that is past. -/
theorem Beating.complete (beating : Beating s start now p count) (going : p.writer.ended = false)
    (j : Nat) (past : start + (j + 1) * s.pingPeriod < now) :
    start + (j + 1) * s.pingPeriod ∈ p.pings := by
  have ahead := beating.ahead going
  rw [beating.next] at ahead
  have fewer : j < count := by
    have less : (j + 1) * s.pingPeriod < (count + 1) * s.pingPeriod := by omega
    have := Nat.lt_of_mul_lt_mul_right less
    omega
  have begun : start + (j + 1) * s.pingPeriod ∈ p.pings ++ p.writer.stage.pending now := by
    rw [beating.begun]
    exact mem_multiples.mpr ⟨j, fewer, rfl⟩
  rcases List.mem_append.mp begun with sent | pending
  · exact sent
  · unfold WriterStage.pending at pending
    split at pending
    · have := List.mem_singleton.mp pending
      omega
    · simp at pending

/-- The reader reads until its deadline, which lies ahead; what is unread has woken it, and does not
end the reading. Or it has stopped reading. -/
inductive Listening (s : Settings) (start now : Nat) (p : Pump) (heard : List Nat) : Prop where
  | reading (last : Nat) (serving : p.serving = .reading (.reading (last + s.pongWait)))
      (begun : start ≤ last) (recent : last ≤ now) (early : now < last + s.pongWait)
      (harmless : ∀ f ∈ p.unread, f.terminates s = false)
      (awake : p.unread ≠ [] → p.awake = true) (past : ∀ a ∈ heard, a ≤ now)
      (known : p.unread = [] → ∀ a ∈ heard, a ≤ last)
  | left (gone : ∀ r, p.serving ≠ .reading r)

theorem Listening.early (listening : Listening s start now p heard) {deadline : Nat}
    (due : p.readDue = some deadline) : now < deadline := by
  cases listening with
  | reading last serving _ _ early =>
    simp only [Pump.readDue, serving, Option.some.injEq] at due
    exact due ▸ early
  | left gone =>
    unfold Pump.readDue at due
    split at due
    · rename_i reading
      exact absurd reading (gone _)
    · contradiction

theorem Listening.due (listening : Listening s start now p heard)
    (reads : ∃ r, p.serving = .reading r) : p.readDue.isSome = true := by
  cases listening with
  | reading last serving => simp [Pump.readDue, serving]
  | left gone => exact absurd reads.choose_spec (gone _)

theorem Listening.same (listening : Listening s start now p heard)
    (serving : p'.serving = p.serving) (unread : p'.unread = p.unread)
    (awake : p'.awake = p.awake) : Listening s start now p' heard := by
  cases listening with
  | reading last serving' begun recent early harmless wakes past known =>
    exact .reading last (by rw [serving, serving']) begun recent early (by rwa [unread])
      (by rwa [unread, awake]) past (by rwa [unread])
  | left gone => exact .left (by rwa [serving])

/-- A frame has arrived. -/
theorem Listening.hear (listening : Listening s start now p heard) {f : Frame}
    (harmless : f.terminates s = false) (serving : p'.serving = p.serving)
    (unread : p'.unread = p.unread ++ [f]) (awake : p'.awake = true) :
    Listening s start now p' (heard ++ [now]) := by
  cases listening with
  | reading last serving' begun recent early others wakes past known =>
    refine .reading last (by rw [serving, serving']) begun recent early ?_ (fun _ => awake) ?_ ?_
    · simpa [unread, or_imp, forall_and, harmless] using others
    · simpa [or_imp, forall_and] using past
    · simp [unread]
  | left gone => exact .left (by rwa [serving])

/-- After a step of the writer there may be an answer to what it has written. -/
theorem Listening.write (listening : Listening s start now p heard) (o : Writer.Outcome) :
    (p.wrote now o).unread = p.unread ∧ Listening s start now (p.wrote now o) heard ∨
      (p.wrote now o).unread = p.unread ++ [.pong] ∧
        Listening s start now (p.wrote now o) (heard ++ [now]) := by
  obtain ⟨q, -, serving, unread, awake, none | one⟩ := p.wrote_cases now o
  · rw [none]
    exact .inl ⟨unread, listening.same serving unread awake⟩
  · have more : (q.arrive .pong false).unread = p.unread ++ [.pong] := by
      rw [← unread]
      rfl
    have wakes : (q.arrive .pong false).awake = true := Bool.or_true _
    rw [one]
    exact .inr ⟨more, listening.hear (f := .pong) rfl serving more wakes⟩

theorem Listening.serve {events : List Desk.Event} (listening : Listening s start now p heard)
    (positive : 0 < s.pongWait) (change : Pump.Change s now d p events p') :
    Listening s start now p' heard := by
  cases listening with
  | left gone =>
    cases change with
    | read f rest deadline reading => exact absurd reading (gone _)
    | leave r unread awake reading => exact absurd reading (gone _)
    | wait | blocked | idle => exact .left gone
    | close | finish => exact .left (by simp)
  | reading last serving begun recent early harmless awake past known =>
    cases change with
    | read f rest deadline reading next more =>
      have others : ∀ g ∈ rest, g.terminates s = false := fun g later =>
        harmless g (next ▸ List.mem_cons_of_mem f later)
      exact .reading now rfl (Nat.le_trans begun recent) (Nat.le_refl now) (by omega) others
        (by simp) past fun _ => past
    | wait deadline reading nothing =>
      exact .reading last serving begun recent early harmless (fun some => absurd nothing some) past
        known
    | leave => exact .left (by simp)
    | blocked | idle => exact .reading last serving begun recent early harmless awake past known
    | close | finish => exact .left (by simp)

/-- A reader that listens goes on reading until its writer has ended. -/
theorem Listening.reads {events : List Desk.Event} (listening : Listening s start now p heard)
    (change : Pump.Change s now d p events p') (going : p.writer.ended = false)
    (reads : ∃ r, p.serving = .reading r) :
    p'.writer.ended = false ∧ ∃ r, p'.serving = .reading r := by
  obtain ⟨r, reads⟩ := reads
  cases listening with
  | left gone => exact absurd reads (gone r)
  | reading last serving begun recent early harmless =>
    cases change with
    | read => exact ⟨going, _, rfl⟩
    | wait => exact ⟨going, r, reads⟩
    | leave r' unread awake reading why =>
      obtain rfl := Serving.reading.inj (reading.symm.trans serving)
      rcases why with ended | ⟨f, there, last⟩ | stopped | ⟨deadline, late, same⟩
      · simp [ended] at going
      · simp [harmless f there] at last
      · contradiction
      · obtain rfl := Reader.reading.inj same
        omega
    | blocked call ask unregistering | close call unregistering => simp [unregistering] at reads
    | finish closing => simp [closing] at reads
    | idle settled => rcases settled with done | ⟨closing, -⟩ <;> simp_all

/-- While the pump waits for the next ping the deadline lies ahead, if the pings so far have been
answered. -/
theorem Listening.wait (listening : Listening s start now p heard)
    (beating : Beating s start later p count) (slower : s.pingPeriod < s.pongWait)
    (before : now ≤ later) (stays : p.canServe now d = false)
    (rests : p.writer.Rests now c)
    (answered : Answered (s.pongWait - s.pingPeriod) later p.pings heard) :
    Listening s start later p heard := by
  cases listening with
  | left gone => exact .left gone
  | reading last serving begun recent early harmless awake past known =>
    simp only [Pump.canServe, serving, Bool.or_eq_false_iff, Bool.and_eq_false_iff] at stays
    obtain ⟨⟨unread, -⟩, going⟩ := stays
    have nothing : p.unread = [] := by
      rcases unread with asleep | empty
      · apply Classical.byContradiction
        intro some
        simp [awake some] at asleep
      · simpa using empty
    have pings : p.pings = multiples start s.pingPeriod count := by
      cases rests with
      | ended stage => simp [Writer.ended, stage] at going
      | waiting stage => simpa [stage, WriterStage.pending] using beating.begun
    rw [pings] at answered
    have next := beating.ahead going
    rw [beating.next] at next
    refine .reading last serving begun (by omega) ?_ harmless awake ?_ known
    · exact early_of_answered slower begun (known nothing) answered next
    · exact fun a member => Nat.le_trans (past a member) before

end SignalHub
