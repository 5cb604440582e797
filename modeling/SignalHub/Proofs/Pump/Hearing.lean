import SignalHub.Proofs.Pump.Steps
import SignalHub.Proofs.Text.Utf8

/-! A reader handles frames in order until one of them ends the reading, or until it has heard
nothing for too long (`Reader.hear`). The serving side of a pump does just that, however its steps
fall in an instant, as long as time does not pass while it can make one (`Pump.Heeding`). After that
it does nothing more than close the connection (`Pump.parting`). -/
namespace SignalHub

/-- The frames that a reader handles, and when it stops. -/
structure Hearing where
  handled : List Frame
  stop : Nat
  deriving DecidableEq, Repr

/-- The frames have been handled before. -/
def Hearing.after (before : List Frame) (h : Hearing) : Hearing := ⟨before ++ h.handled, h.stop⟩

/-- What a reader that has last heard something at this time makes of the frames that arrive, each
at its time, if nothing comes after them. -/
def Reader.hear (s : Settings) : Nat → List (Nat × Frame) → Hearing
  | last, [] => ⟨[], last + s.pongWait⟩
  | last, (time, f) :: rest =>
    if last + s.pongWait ≤ time then ⟨[], last + s.pongWait⟩
    else if f.terminates s then ⟨[], time⟩
    else (hear s time rest).after [f]

/-- While the reader reads, no frame comes at the very instant at which its time is over. -/
def Reader.untied (s : Settings) : Nat → List (Nat × Frame) → Bool
  | _, [] => true
  | last, (time, f) :: rest =>
    time != last + s.pongWait &&
      (last + s.pongWait < time || f.terminates s || untied s time rest)

namespace Reader

variable {s : Settings} {last now : Nat}

/-- What comes when the time is over is not heard. -/
theorem hear_late (late : last + s.pongWait ≤ now) {more : List (Nat × Frame)}
    (later : ∀ e ∈ more, now ≤ e.1) : hear s last more = ⟨[], last + s.pongWait⟩ := by
  cases more with
  | nil => rfl
  | cons e rest => exact if_pos (Nat.le_trans late (later e List.mem_cons_self))

theorem hear_last (early : now < last + s.pongWait) {f : Frame} (ends : f.terminates s = true)
    (more : List (Nat × Frame)) : hear s last ((now, f) :: more) = ⟨[], now⟩ := by
  rw [hear, if_neg (Nat.not_le_of_lt early), if_pos ends]

theorem hear_next (early : now < last + s.pongWait) {f : Frame} (goes_on : f.terminates s = false)
    (more : List (Nat × Frame)) :
    hear s last ((now, f) :: more) = (hear s now more).after [f] := by
  rw [hear, if_neg (Nat.not_le_of_lt early), if_neg (by simp [goes_on])]

theorem untied_of_append {first more : List (Nat × Frame)}
    (untied : Reader.untied s last (first ++ more) = true) : Reader.untied s last first = true := by
  induction first generalizing last with
  | nil => rfl
  | cons e rest ih =>
    simp only [List.cons_append, Reader.untied, Bool.and_eq_true, Bool.or_eq_true] at untied ⊢
    exact ⟨untied.1, untied.2.imp_right ih⟩

theorem untied_next (early : now < last + s.pongWait) {f : Frame} (goes_on : f.terminates s = false)
    {more : List (Nat × Frame)} (untied : Reader.untied s last ((now, f) :: more) = true) :
    Reader.untied s now more = true := by
  simpa [Reader.untied, goes_on, Nat.not_lt_of_lt early] using (Bool.and_eq_true_iff.mp untied).2

end Reader

namespace Pump

/-- The serving side reads. -/
def reads (p : Pump) : Bool :=
  match p.serving with
  | .reading _ => true
  | _ => false

/-- What the serving side has done to the hub since it stopped reading. -/
def parting (p : Pump) : List Hub.Step :=
  match p.serving with
  | .closing => [.close p.conn]
  | .done => [.close p.conn, .finish p.conn]
  | _ => []

variable {s : Settings} {start now later deadline : Nat} {hasty : Bool} {d : Desk} {p p' : Pump}
  {events : List Desk.Event} {heard : List (Nat × Frame)} {deeds : List Hub.Step}
  {stops : List (Nat × Bool)}

/-- While its writer goes on, a reader stops for the frame that it reads or for its deadline. -/
theorem why_left (reading : p.serving = .reading (.reading deadline))
    (going : p.writer.ended = false) (left : p.serveDoings s now hasty d = [p.farewell]) :
    (∃ f rest, p.unread = f :: rest ∧ f.terminates s = true) ∨ p.unread = [] ∧ deadline ≤ now := by
  simp only [serveDoings, reading, going, Bool.and_false, Bool.false_eq_true, ↓reduceIte] at left
  cases next : p.unread with
  | nil =>
    simp only [next] at left
    split at left
    · rename_i late
      exact .inr ⟨rfl, late⟩
    · cases left
  | cons f rest =>
    simp only [next] at left
    split at left
    · rename_i ends
      exact .inl ⟨f, rest, rfl, ends⟩
    · have member : p.farewell ∈ (f.deeds p.conn).map Desk.Event.direct := left ▸ List.mem_cons_self
      simp [farewell] at member

/-- A pump that does not read goes on with its parting. -/
theorem parting_serve (gone : p.reads = false) (change : Change s now d p events p') :
    p'.reads = false ∧ p'.parting = p.parting ++ d.along Desk.deeds events := by
  cases change with
  | read f rest deadline reading | wait deadline reading | leave r unread awake reading =>
    simp [reads, reading] at gone
  | blocked call ask unregistering => exact ⟨gone, (List.append_nil _).symm⟩
  | close call unregistering =>
    refine ⟨rfl, ?_⟩
    rw [parting, parting, unregistering]
    rfl
  | finish closing =>
    refine ⟨rfl, ?_⟩
    rw [parting, parting, closing]
    rfl
  | idle => exact ⟨gone, (List.append_nil _).symm⟩

/-- The serving side has heard these frames, each at its time. It reads and has handled the first of
them, so that the reader would hear the unread ones next; or it has returned; or it has abandoned
the reading because the writer had ended. It stops once, which is noted with the time and with
whether the writer had ended. -/
inductive Heeding (s : Settings) (start now : Nat) (p : Pump) (heard : List (Nat × Frame))
    (deeds : List Hub.Step) (stops : List (Nat × Bool)) : Prop where
  | reading (last : Nat) (handled : List Frame)
      (serving : p.serving = .reading (.reading (last + s.pongWait)))
      (recent : last ≤ now) (early : now ≤ last + s.pongWait)
      (wakes : p.unread ≠ [] → p.awake = true ∧ now < last + s.pongWait)
      (course : ∀ more, Reader.hear s start (heard ++ more) =
        (Reader.hear s last (p.unread.map (now, ·) ++ more)).after handled)
      (free : ∀ more, Reader.untied s start (heard ++ more) = true →
        Reader.untied s last (p.unread.map (now, ·) ++ more) = true)
      (done : deeds = handled.flatMap (Frame.deeds p.conn)) (never : stops = [])
  | returned (handled : List Frame) (stop : Nat) (gone : p.reads = false) (past : stop ≤ now)
      (course : ∀ more, (∀ e ∈ more, now ≤ e.1) →
        Reader.hear s start (heard ++ more) = ⟨handled, stop⟩)
      (done : deeds = handled.flatMap (Frame.deeds p.conn) ++ p.parting)
      (once : stops = [(stop, false)])
  | abandoned (handled : List Frame) (time : Nat) (gone : p.reads = false)
      (course : ∀ more, handled <+: (Reader.hear s start (heard ++ more)).handled)
      (done : deeds = handled.flatMap (Frame.deeds p.conn) ++ p.parting)
      (once : stops = [(time, true)])

theorem Heeding.same (heeding : Heeding s start now p heard deeds stops) (conn : p'.conn = p.conn)
    (serving : p'.serving = p.serving) (unread : p'.unread = p.unread)
    (awake : p'.awake = p.awake) : Heeding s start now p' heard deeds stops := by
  have reads : p'.reads = p.reads := by rw [Pump.reads, Pump.reads, serving]
  have parting : p'.parting = p.parting := by rw [Pump.parting, Pump.parting, serving, conn]
  cases heeding with
  | reading last handled serving' recent early wakes course free done never =>
    exact .reading last handled (serving ▸ serving') recent early (by rwa [unread, awake])
      (by rwa [unread]) (by rwa [unread]) (by rwa [conn]) never
  | returned handled stop gone past course done once =>
    exact .returned handled stop (by rwa [reads]) past course (by rwa [conn, parting]) once
  | abandoned handled time gone course done once =>
    exact .abandoned handled time (by rwa [reads]) course (by rwa [conn, parting]) once

/-- A frame has arrived and wakes the reader. -/
theorem Heeding.arrive (heeding : Heeding s start now p heard deeds stops) (f : Frame)
    (untied : Reader.untied s start (heard ++ [(now, f)]) = true) :
    Heeding s start now (p.arrive f false) (heard ++ [(now, f)]) deeds stops := by
  cases heeding with
  | reading last handled serving recent early wakes course free done never =>
    have before : now < last + s.pongWait := by
      by_cases some : p.unread = []
      · have apart := free [(now, f)] untied
        simp only [some, List.map_nil, List.nil_append, Reader.untied, Bool.and_eq_true] at apart
        have := bne_iff_ne.mp apart.1
        omega
      · exact (wakes some).2
    refine .reading last handled serving recent early (fun _ => ⟨Bool.or_true _, before⟩) ?_ ?_
      done never
    · intro more
      simpa [Pump.arrive] using course ((now, f) :: more)
    · intro more untied
      simpa [Pump.arrive] using free ((now, f) :: more) (by simpa using untied)
  | returned handled stop gone past course done once =>
    refine .returned handled stop gone past (fun more later => ?_) done once
    simpa using course ((now, f) :: more) (by simpa using later)
  | abandoned handled time gone course done once =>
    refine .abandoned handled time gone (fun more => ?_) done once
    simpa using course ((now, f) :: more)

theorem Heeding.write (heeding : Heeding s start now p heard deeds stops) (o : Writer.Outcome) :
    ∃ more, (p.wrote now o).unread = p.unread ++ more ∧
      (Reader.untied s start (heard ++ more.map (now, ·)) = true →
        Heeding s start now (p.wrote now o) (heard ++ more.map (now, ·)) deeds stops) := by
  obtain ⟨q, conn, serving, unread, awake, none | one⟩ := p.wrote_cases now o
  · have same := heeding.same conn serving unread awake
    rw [none]
    exact ⟨[], by rw [unread, List.append_nil], fun _ => by simpa using same⟩
  · have same := heeding.same conn serving unread awake
    rw [one]
    exact ⟨[.pong], by rw [← unread]; rfl, same.arrive .pong⟩

/-- A reader that is awake for what is unread and can do nothing now waits for its deadline. -/
theorem idle_of_stays (serving : p.serving = .reading (.reading deadline))
    (wakes : p.unread ≠ [] → p.awake = true ∧ now < deadline) (stays : p.canServe now d = false) :
    p.unread = [] ∧ now < deadline := by
  simp only [canServe, serving, deadlinePassed, Bool.or_eq_false_iff, decide_eq_false_iff_not,
    Nat.not_le] at stays
  obtain ⟨⟨asleep, early⟩, -⟩ := stays
  refine ⟨?_, early⟩
  apply Classical.byContradiction
  intro some
  simp [(wakes some).1, some] at asleep

/-- Time passes while the reader can do nothing, up to its deadline. -/
theorem Heeding.wait (heeding : Heeding s start now p heard deeds stops) (before : now ≤ later)
    (timely : p.readDue.all (fun due => !p.canServe now d && later ≤ due) = true) :
    Heeding s start later p heard deeds stops := by
  cases heeding with
  | reading last handled serving recent early wakes course free done never =>
    obtain ⟨rests, soon⟩ : p.canServe now d = false ∧ later ≤ last + s.pongWait := by
      simpa [readDue, serving] using timely
    have nothing := (idle_of_stays serving wakes rests).1
    refine .reading last handled serving (Nat.le_trans recent before) soon (absurd nothing) ?_ ?_
      done never
    · rw [nothing] at course ⊢
      exact course
    · rw [nothing] at free ⊢
      exact free
  | returned handled stop gone past course done once =>
    exact .returned handled stop gone (Nat.le_trans past before)
      (fun more after => course more fun e member => Nat.le_trans before (after e member)) done once
  | abandoned handled time gone course done once =>
    exact .abandoned handled time gone course done once

/-- The reading stops in a step of the serving side. -/
def stopping (now : Nat) (p p' : Pump) : List (Nat × Bool) :=
  if p.reads && !p'.reads then [(now, p.writer.ended)] else []

theorem stopping_of_reads {now : Nat} (reads : p'.reads = true) : stopping now p p' = [] := by
  simp [stopping, reads]

theorem stopping_of_gone {now : Nat} (gone : p.reads = false) : stopping now p p' = [] := by
  simp [stopping, gone]

/-- A reader leaves when its writer has ended, or for what it hears or does not hear. -/
theorem Heeding.leave (heeding : Heeding s start now p heard deeds stops)
    {unread : List Frame} {awake : Bool} {r : Reader} {call : Nat}
    (reading : p.serving = .reading r)
    (left : p.serveDoings s now hasty d = [p.farewell])
    (after : p' = { p with unread := unread, awake := awake, serving := .unregistering call }) :
    Heeding s start now p' heard deeds (stops ++ [(now, p.writer.ended)]) := by
  have reads : p.reads = true := by simp [Pump.reads, reading]
  cases heeding with
  | returned handled stop gone | abandoned handled time gone => simp [reads] at gone
  | reading last handled serving recent early wakes course free done never =>
    subst after
    have done' : deeds = handled.flatMap (Frame.deeds p.conn) ++ [] := by rw [done, List.append_nil]
    rw [never]
    cases ended : p.writer.ended with
    | true =>
      refine .abandoned handled now rfl (fun more => ?_) done' rfl
      rw [course]
      exact List.prefix_append _ _
    | false =>
      refine .returned handled now rfl (Nat.le_refl now) (fun more after => ?_) done' rfl
      rw [course]
      rcases why_left serving ended left with ⟨f, rest, next, ends⟩ | ⟨nothing, late⟩
      · have soon := (wakes (by simp [next])).2
        rw [next, List.map_cons, List.cons_append, Reader.hear_last soon ends]
        simp [Hearing.after]
      · have instant : last + s.pongWait = now := by omega
        rw [nothing, List.map_nil, List.nil_append, Reader.hear_late late after, instant]
        simp [Hearing.after]

/-- A reader handles the frame that it reads. -/
theorem Heeding.read (heeding : Heeding s start now p heard deeds stops) (reads : p.reads = true)
    {f : Frame} {rest : List Frame} (next : p.unread = f :: rest) (more : f.terminates s = false) :
    Heeding s start now { p with
        unread := rest
        awake := !rest.isEmpty
        serving := .reading (.reading (now + s.pongWait)) }
      heard (deeds ++ f.deeds p.conn) stops := by
  cases heeding with
  | returned handled stop gone | abandoned handled time gone => simp [reads] at gone
  | reading last handled serving recent early wakes course free done never =>
    have soon := (wakes (by simp [next])).2
    refine .reading now (handled ++ [f]) rfl (Nat.le_refl now) (Nat.le_add_right _ _) ?_ ?_ ?_ ?_
      never
    · intro some
      exact ⟨by simpa using some, by omega⟩
    · intro after
      rw [course, next, List.map_cons, List.cons_append, Reader.hear_next soon more]
      simp [Hearing.after]
    · intro after untied
      have whole := free after untied
      rw [next] at whole
      exact Reader.untied_next soon more whole
    · rw [done, List.flatMap_append, List.flatMap_singleton]

theorem Heeding.serve (heeding : Heeding s start now p heard deeds stops)
    (change : Change s now d p events p') (done : p.serveDoings s now hasty d = events) :
    Heeding s start now p' heard (deeds ++ d.along Desk.deeds events)
      (stops ++ stopping now p p') := by
  cases reads : p.reads with
  | false =>
    obtain ⟨gone', parting⟩ := parting_serve reads change
    have conn : p'.conn = p.conn := by cases change <;> rfl
    rw [stopping_of_gone reads, List.append_nil]
    cases heeding with
    | reading last handled serving => simp [Pump.reads, serving] at reads
    | returned handled stop gone past course done once =>
      exact .returned handled stop gone' past course
        (by rw [done, conn, parting, List.append_assoc]) once
    | abandoned handled time gone course done once =>
      exact .abandoned handled time gone' course
        (by rw [done, conn, parting, List.append_assoc]) once
  | true =>
    cases change with
    | leave r unread awake reading =>
      have none : d.along Desk.deeds [p.farewell] = [] := rfl
      have stopped : stopping now p { p with
          unread := unread, awake := awake, serving := .unregistering d.calls.length } =
          [(now, p.writer.ended)] := by
        simp [stopping, Pump.reads, reading]
      rw [none, List.append_nil, stopped]
      exact heeding.leave reading done rfl
    | blocked call ask serving | close call serving => simp [Pump.reads, serving] at reads
    | finish closing => simp [Pump.reads, closing] at reads
    | idle settled => rcases settled with gone | ⟨gone, -⟩ <;> simp [Pump.reads, gone] at reads
    | wait deadline reading nothing =>
      have goes_on : stopping now p { p with awake := false } = [] := stopping_of_reads reads
      rw [goes_on, List.append_nil]
      cases heeding with
      | returned handled stop gone | abandoned handled time gone => simp [reads] at gone
      | reading last handled serving recent early wakes course free done never =>
        exact .reading last handled serving recent early (absurd nothing) course free
          (by rw [done]; exact List.append_nil _) never
    | read f rest deadline reading next more =>
      have goes_on : stopping now p { p with
          unread := rest
          awake := !rest.isEmpty
          serving := .reading (.reading (now + s.pongWait)) } = [] := stopping_of_reads rfl
      rw [goes_on, List.append_nil, Desk.along_direct d fun step member => f.bypasses_deeds member]
      exact heeding.read reads next more

/-- A pump that waits for its deadline waits until the reader would stop. -/
theorem Heeding.due (heeding : Heeding s start now p heard deeds stops) (reads : p.reads = true)
    (stays : p.canServe now d = false) :
    p.readDue = some (Reader.hear s start heard).stop ∧ now < (Reader.hear s start heard).stop := by
  cases heeding with
  | returned handled stop gone | abandoned handled time gone => simp [reads] at gone
  | reading last handled serving recent early wakes course free done never =>
    obtain ⟨nothing, soon⟩ := idle_of_stays serving wakes stays
    have whole := course []
    rw [List.append_nil, nothing] at whole
    have stop : (Reader.hear s start heard).stop = last + s.pongWait := by rw [whole]; rfl
    exact ⟨by simp [readDue, serving, stop], stop ▸ soon⟩

theorem readDue_of_gone (gone : p.reads = false) : p.readDue = none := by
  unfold readDue
  split
  · rename_i serving
    simp [reads, serving] at gone
  · rfl

/-- A reader's step takes a frame, or else there is nothing more for it to do now. -/
theorem rests_or_reads (change : Change s now d p events p')
    (done : p.serveDoings s now false d = events) (reads : p'.reads = true) :
    p.reads = true ∧ ((∃ f, p.unread = f :: p'.unread) ∨
      p'.unread = [] ∧ ∀ d', p'.canServe now d' = false) := by
  cases change with
  | read f rest deadline reading next => exact ⟨by simp [Pump.reads, reading], .inl ⟨f, next⟩⟩
  | wait deadline reading nothing early =>
    have going : p.writer.ended = false := by
      apply Bool.eq_false_iff.mpr
      intro ended
      simp [serveDoings, reading, nothing, ended] at done
    refine ⟨reads, .inr ⟨nothing, fun d' => ?_⟩⟩
    simp [canServe, reading, deadlinePassed, going, early]
  | leave => cases reads
  | blocked call ask serving => simp [Pump.reads, serving] at reads
  | close | finish => cases reads
  | idle settled => rcases settled with gone | ⟨gone, -⟩ <;> simp [Pump.reads, gone] at reads

end Pump
end SignalHub
