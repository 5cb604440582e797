import SignalHub.Proofs.Pump.Hearing
import SignalHub.Proofs.World.Keepalive

/-! When the clock stands still while the serving side of a pump can make a step, and stops for its
deadline (`attentive`), the pump handles just the frames that its reader hears, in order, and stops
when the reader does, whatever else goes on in the world (`Heeding.follow`). Any frames can arrive
so, at any times (`Heeding.brings`). -/
namespace SignalHub.World

variable {w : World} {m : Move} {i : Nat} {p p' : Pump} {start : Nat} {heard : List (Nat × Frame)}
  {effects : List Hub.Step} {stops : List (Nat × Bool)}

/-- The frames that arrive for a pump, each with its time. -/
def hears (i : Nat) (w : World) (m : Move) : List (Nat × Frame) :=
  w.observed m i fun p p' => (p'.unread.drop p.unread.length).map (w.now, ·)

/-- What the serving side of a pump does to the hub. -/
def serves (i : Nat) (w : World) (m : Move) : List Hub.Step :=
  match m with
  | .serve j _ => if j = i then w.deeds m else []
  | _ => []

/-- When a pump stops reading, and whether its writer has ended before. -/
def stopped (i : Nat) (w : World) (m : Move) : List (Nat × Bool) :=
  w.observed m i (Pump.stopping w.now)

/-- While a pump reads, the clock waits for what its serving side can do and stops when its time is
over. Each frame wakes the reader. -/
def attentive (i : Nat) (w : World) : Move → Bool
  | .wait time => w.pumps[i]?.all fun p =>
    p.readDue.all fun due => !p.canServe w.now w.desk && w.now + time ≤ due
  | .arrive j _ hold => j != i || !hold
  | _ => true

theorem hears_eq (found : w.pumps[i]? = some p) (next : (w.proceed m).pumps[i]? = some p')
    {more : List Frame} (grown : p'.unread = p.unread ++ more) :
    w.hears i m = more.map (w.now, ·) := by
  rw [hears, observed_eq found next, grown, List.drop_left]

theorem hears_of_fewer (found : w.pumps[i]? = some p)
    (next : (w.proceed m).pumps[i]? = some p') (fewer : p'.unread.length ≤ p.unread.length) :
    w.hears i m = [] := by
  rw [hears, observed_eq found next, List.drop_eq_nil_of_le fewer, List.map_nil]

theorem serves_of_other (other : ∀ hasty, m ≠ .serve i hasty) : w.serves i m = [] := by
  unfold serves
  split
  · rename_i j hasty
    exact if_neg fun same => other hasty (by rw [same])
  · rfl

theorem stopped_of_same (found : w.pumps[i]? = some p) (next : (w.proceed m).pumps[i]? = some p')
    (serving : p'.serving = p.serving) : w.stopped i m = [] := by
  have reads : p'.reads = p.reads := by rw [Pump.reads, Pump.reads, serving]
  rw [stopped, observed_eq found next, Pump.stopping, reads]
  simp

theorem serves_eq (found : w.pumps[i]? = some p) (hasty : Bool) :
    w.serves i (.serve i hasty) =
      w.desk.along Desk.deeds (p.serveDoings w.settings w.now hasty w.desk) := by
  rw [serves, if_pos rfl, World.deeds, doings_serve, found, Option.elim_some]

/-- How a pump has heeded what it has heard so far. -/
abbrev Heeding (w : World) (start : Nat) (p : Pump) (heard : List (Nat × Frame))
    (effects : List Hub.Step) (stops : List (Nat × Bool)) : Prop :=
  p.Heeding w.settings start w.now heard effects stops

theorem Heeding.after (heeding : p.Heeding w.settings start w.now heard effects stops)
    (instant : m.time = 0) : Heeding (w.proceed m) start p heard effects stops := by
  rwa [Heeding, settings_proceed, now_proceed, instant, Nat.add_zero]

/-- A move that neither brings a frame nor serves the pump. -/
theorem Heeding.quiet (heeding : Heeding w start p heard effects stops)
    (found : w.pumps[i]? = some p) (next : (w.proceed m).pumps[i]? = some p')
    (instant : m.time = 0) (other : ∀ hasty, m ≠ .serve i hasty) (conn : p'.conn = p.conn)
    (serving : p'.serving = p.serving) (unread : p'.unread = p.unread)
    (awake : p'.awake = p.awake) :
    Heeding (w.proceed m) start p' (heard ++ w.hears i m) (effects ++ w.serves i m)
      (stops ++ w.stopped i m) := by
  rw [hears_of_fewer found next (Nat.le_of_eq (congrArg List.length unread)), serves_of_other other,
    stopped_of_same found next serving]
  simp only [List.append_nil]
  exact Heeding.after (heeding.same conn serving unread awake) instant

theorem Heeding.pass {time : Nat} (heeding : Heeding w start p heard effects stops)
    (found : w.pumps[i]? = some p) (next : (w.proceed (.wait time)).pumps[i]? = some p)
    (timely : w.attentive i (.wait time) = true) :
    Heeding (w.proceed (.wait time)) start p (heard ++ w.hears i (.wait time))
      (effects ++ w.serves i (.wait time)) (stops ++ w.stopped i (.wait time)) := by
  rw [hears_of_fewer found next (Nat.le_refl _), serves_of_other (by simp),
    stopped_of_same found next rfl]
  simp only [attentive, found, Option.all_some] at timely
  simp only [List.append_nil]
  rw [Heeding, settings_proceed, now_proceed]
  exact Pump.Heeding.wait heeding (Nat.le_add_right _ _) timely

theorem Heeding.turn (heeding : Heeding w start p heard effects stops)
    (found : w.pumps[i]? = some p) (timely : w.attentive i m = true)
    (untied : Reader.untied w.settings start (heard ++ w.hears i m) = true) (own : m.pump? = some i)
    (turn : Turn w p m p') (next : (w.proceed m).pumps[i]? = some p') :
    Heeding (w.proceed m) start p' (heard ++ w.hears i m) (effects ++ w.serves i m)
      (stops ++ w.stopped i m) := by
  cases turn with
  | serve j hasty events q change done =>
    obtain rfl : j = i := Option.some.inj own
    have step := heeding.serve change done
    rw [hears_of_fewer found next change.unread, List.append_nil, serves_eq found, done, stopped,
      observed_eq found next]
    exact Heeding.after (step.same rfl rfl rfl rfl) rfl
  | write j pingFirst c o there change done =>
    obtain rfl : j = i := Option.some.inj own
    obtain ⟨unread, awake, wrote⟩ := p.wrote_eq w.now o
    have serving : (p.wrote w.now o).serving = p.serving := by rw [wrote]
    obtain ⟨more, grown, heeds⟩ := heeding.write o
    rw [hears_eq found next grown] at untied ⊢
    rw [serves_of_other (by simp), stopped_of_same found next serving]
    simp only [List.append_nil]
    exact Heeding.after ((heeds untied).same rfl rfl rfl rfl) rfl
  | idle j pingFirst => exact heeding.quiet found next rfl (by simp) rfl rfl rfl rfl
  | arrive j f hold =>
    obtain rfl : j = i := Option.some.inj own
    obtain rfl : hold = false := by simpa [attentive] using timely
    rw [hears_eq found next rfl] at untied ⊢
    rw [serves_of_other (by simp), stopped_of_same found next rfl]
    simp only [List.append_nil]
    exact Heeding.after (heeding.arrive f untied) rfl
  | setSink j sink => exact heeding.quiet found next rfl (by simp) rfl rfl rfl rfl

theorem Heeding.proceed (heeding : Heeding w start p heard effects stops) (sound : Sound w)
    (found : w.pumps[i]? = some p) (timely : w.attentive i m = true)
    (untied : Reader.untied w.settings start (heard ++ w.hears i m) = true) :
    ∃ p', (w.proceed m).pumps[i]? = some p' ∧ p'.conn = p.conn ∧
      Heeding (w.proceed m) start p' (heard ++ w.hears i m) (effects ++ w.serves i m)
        (stops ++ w.stopped i m) := by
  obtain ⟨p', next, ⟨apart, rfl⟩ | ⟨own, turn⟩⟩ := course found (sound.found found) m
  · have other : ∀ hasty, m ≠ .serve i hasty := by
      rintro hasty rfl
      exact apart rfl
    refine ⟨p', next, rfl, ?_⟩
    cases m with
    | wait time => exact heeding.pass found next timely
    | _ => exact heeding.quiet found next rfl other rfl rfl rfl rfl
  · exact ⟨p', next, turn.conn, heeding.turn found timely untied own turn next⟩

theorem Heeding.follow (heeding : Heeding w start p heard effects stops) (sound : Sound w)
    (found : w.pumps[i]? = some p) {moves : List Move}
    (timely : w.always (attentive i) moves = true)
    (untied : Reader.untied w.settings start (heard ++ w.along (hears i) moves) = true) :
    ∃ p', (w.follow moves).pumps[i]? = some p' ∧ p'.conn = p.conn ∧
      Heeding (w.follow moves) start p' (heard ++ w.along (hears i) moves)
        (effects ++ w.along (serves i) moves) (stops ++ w.along (stopped i) moves) := by
  induction moves generalizing w p heard effects stops with
  | nil =>
    simp only [along, List.append_nil]
    exact ⟨p, found, rfl, heeding⟩
  | cons m rest ih =>
    obtain ⟨first, later⟩ := Bool.and_eq_true_iff.mp timely
    rw [along, ← List.append_assoc] at untied
    obtain ⟨q, next, conn, heeding'⟩ :=
      heeding.proceed sound found first (Reader.untied_of_append untied)
    obtain ⟨p', last, conn', final⟩ :=
      ih heeding' (sound.proceed m) next later (by rwa [settings_proceed])
    simp only [List.append_assoc] at final
    exact ⟨p', last, conn'.trans conn, final⟩

/-- A reader comes to rest, in no more steps than there are frames to read, and one. -/
theorem rests_after (sound : Sound w) (found : w.pumps[i]? = some p) {count : Nat}
    (enough : p.reads = true → p.unread.length < count) :
    let v := w.follow (List.replicate count (.serve i false))
    ∃ q, v.pumps[i]? = some q ∧ (q.reads = true → q.canServe v.now v.desk = false) := by
  induction count generalizing w p with
  | zero => exact ⟨p, found, fun reads => absurd (enough reads) (Nat.not_lt_zero _)⟩
  | succ count ih =>
    obtain ⟨p', next, ⟨apart, -⟩ | ⟨-, turn⟩⟩ := course found (sound.found found) (.serve i false)
    · exact absurd rfl apart
    cases turn with
    | serve j hasty events q change done =>
      have again := ih (sound.proceed (.serve i false)) next
      cases reads : q.reads with
      | false =>
        have gone : ¬q.reads = true := Bool.eq_false_iff.mp reads
        exact again fun reads' => absurd reads' gone
      | true =>
        obtain ⟨reads', ⟨f, first⟩ | ⟨nothing, rests⟩⟩ := Pump.rests_or_reads change done reads
        · have fewer := enough reads'
          rw [first, List.length_cons] at fewer
          exact again fun _ => Nat.lt_of_succ_lt_succ fewer
        · cases count with
          | zero =>
            have now : (w.proceed (.serve i false)).now = w.now := now_proceed w _
            refine ⟨_, next, fun _ => ?_⟩
            change Pump.canServe (w.proceed (.serve i false)).now _ q = false
            rw [now]
            exact rests _
          | succ count => exact again fun _ => by simp [nothing]

/-- A run that brings these frames to a pump, each at its time, and ends at this time. -/
structure Brings (i : Nat) (w : World) (moves : List Move) (events : List (Nat × Frame))
    (time : Nat) : Prop where
  timely : w.always (attentive i) moves = true
  heard : w.along (hears i) moves = events
  now : (w.follow moves).now = time

theorem Brings.append {first rest : List Move} {before after : List (Nat × Frame)} {time end_ : Nat}
    (brings : Brings i w first before time) (more : Brings i (w.follow first) rest after end_) :
    Brings i w (first ++ rest) (before ++ after) end_ where
  timely := by rw [always_append, brings.timely, more.timely]; rfl
  heard := by rw [along_append, brings.heard, more.heard]
  now := by rw [follow_append, more.now]

theorem brings_serves (sound : Sound w) (found : w.pumps[i]? = some p) (count : Nat) :
    Brings i w (List.replicate count (.serve i false)) [] w.now := by
  induction count generalizing w p with
  | zero => exact ⟨rfl, rfl, rfl⟩
  | succ count ih =>
    obtain ⟨p', next, ⟨apart, -⟩ | ⟨-, turn⟩⟩ := course found (sound.found found) (.serve i false)
    · exact absurd rfl apart
    have fewer : p'.unread.length ≤ p.unread.length := by
      cases turn with
      | serve j hasty events q change => exact change.unread
    obtain ⟨timely, heard, now⟩ := ih (sound.proceed (.serve i false)) next
    refine ⟨timely, ?_, now.trans (now_proceed w _)⟩
    rw [List.replicate_succ, along, hears_of_fewer found next fewer, heard]
    rfl

theorem brings_wait (found : w.pumps[i]? = some p) {time : Nat} (before : w.now ≤ time)
    (timely : p.readDue.all (fun due => !p.canServe w.now w.desk && time ≤ due) = true) :
    Brings i w [.wait (time - w.now)] [] time := by
  have now : w.now + (time - w.now) = time := by omega
  have next : (w.proceed (.wait (time - w.now))).pumps[i]? = some p := found
  refine ⟨?_, ?_, (now_proceed w (.wait (time - w.now))).trans now⟩
  · simpa [always, attentive, found, now] using timely
  · rw [along, hears_of_fewer found next (Nat.le_refl _)]
    rfl

theorem Heeding.follow_quiet (heeding : Heeding w start p heard effects stops) (sound : Sound w)
    (found : w.pumps[i]? = some p) (untied : Reader.untied w.settings start heard = true)
    {moves : List Move} {time : Nat} (brings : Brings i w moves [] time) :
    ∃ p' effects' stops', (w.follow moves).pumps[i]? = some p' ∧
      Heeding (w.follow moves) start p' heard effects' stops' := by
  have quiet : heard ++ w.along (hears i) moves = heard := by rw [brings.heard, List.append_nil]
  obtain ⟨p', last, -, final⟩ := heeding.follow sound found brings.timely (by rwa [quiet])
  rw [quiet] at final
  exact ⟨p', _, _, last, final⟩

/-- The serving side comes to rest at once. -/
theorem Heeding.settles (heeding : Heeding w start p heard effects stops) (sound : Sound w)
    (found : w.pumps[i]? = some p) (untied : Reader.untied w.settings start heard = true) :
    ∃ moves q effects' stops', Brings i w moves [] w.now ∧ (w.follow moves).pumps[i]? = some q ∧
      Heeding (w.follow moves) start q heard effects' stops' ∧
      (q.reads = true → q.canServe (w.follow moves).now (w.follow moves).desk = false) := by
  have steps := brings_serves sound found (p.unread.length + 1)
  obtain ⟨q, _, _, there, heeding'⟩ := heeding.follow_quiet sound found untied steps
  obtain ⟨q', there', rests⟩ := rests_after sound found fun _ => Nat.lt_succ_self _
  obtain rfl := Option.some.inj (there.symm.trans there')
  exact ⟨_, q, _, _, steps, there, heeding', rests⟩

/-- A pump at rest can be left alone until the reader stops. -/
theorem Heeding.waits (heeding : Heeding w start p heard effects stops)
    (found : w.pumps[i]? = some p) (rests : p.reads = true → p.canServe w.now w.desk = false)
    {time : Nat} (before : w.now ≤ time)
    (near : p.reads = true → time ≤ (Reader.hear w.settings start heard).stop) :
    Brings i w [.wait (time - w.now)] [] time := by
  apply brings_wait found before
  cases reads : p.reads with
  | false => simp [Pump.readDue_of_gone reads]
  | true => simp [(heeding.due reads (rests reads)).1, rests reads, near reads]

/-- If nothing arrives a pump at rest can be brought to any later time. When the reader stops before
that, the pump has to be served on the way. -/
theorem Heeding.outlasts (heeding : Heeding w start p heard effects stops) (sound : Sound w)
    (found : w.pumps[i]? = some p) (untied : Reader.untied w.settings start heard = true)
    (rests : p.reads = true → p.canServe w.now w.desk = false) {time : Nat}
    (before : w.now ≤ time) : ∃ moves, Brings i w moves [] time := by
  by_cases near : p.reads = true → time ≤ (Reader.hear w.settings start heard).stop
  · exact ⟨_, heeding.waits found rests before near⟩
  obtain ⟨reads, late⟩ := Classical.not_imp.mp near
  have ahead := (heeding.due reads (rests reads)).2
  have first := heeding.waits found rests (Nat.le_of_lt ahead) fun _ => Nat.le_refl _
  obtain ⟨q, _, _, there, heeding₁⟩ := heeding.follow_quiet sound found untied first
  obtain ⟨second, q', _, _, steps, there', heeding₂, rests'⟩ :=
    heeding₁.settles (sound.follow _) there (by rwa [settings_follow])
  rw [first.now] at steps
  have gone : ¬q'.reads = true := by
    intro reads'
    have soon := (heeding₂.due reads' (rests' reads')).2
    rw [steps.now, settings_follow, settings_follow] at soon
    exact Nat.lt_irrefl _ soon
  have third := heeding₂.waits there' rests' (steps.now ▸ Nat.le_of_not_le late)
    fun reads' => absurd reads' gone
  exact ⟨_, first.append (steps.append third)⟩

theorem brings_arrive (found : w.pumps[i]? = some p) (f : Frame) :
    Brings i w [.arrive i f false] [(w.now, f)] w.now := by
  have next : (w.proceed (.arrive i f false)).pumps[i]? = some (p.arrive f false) := by
    rw [pump_proceed found]
    exact congrArg some (if_pos rfl)
  refine ⟨by simp [always, attentive], ?_, now_proceed w (.arrive i f false)⟩
  rw [along, hears_eq found next rfl]
  rfl

/-- Whatever frames arrive, at whatever times, there is a run that brings them. -/
theorem Heeding.brings (heeding : Heeding w start p heard effects stops) (sound : Sound w)
    (found : w.pumps[i]? = some p) {events : List (Nat × Frame)}
    (ordered : (w.now :: events.map Prod.fst).Pairwise (· ≤ ·))
    (untied : Reader.untied w.settings start (heard ++ events) = true) :
    ∃ moves time, Brings i w moves events time := by
  induction events generalizing w p heard effects stops with
  | nil => exact ⟨[], w.now, rfl, rfl, rfl⟩
  | cons e rest ih =>
    obtain ⟨time, f⟩ := e
    obtain ⟨before, later⟩ := List.pairwise_cons.mp ordered
    have quiet := Reader.untied_of_append untied
    obtain ⟨first, q, _, _, steps, there, heeding₁, rests⟩ := heeding.settles sound found quiet
    have soon : (w.follow first).now ≤ time := steps.now ▸ before time (by simp)
    rw [← settings_follow w first] at quiet
    obtain ⟨second, waits⟩ := heeding₁.outlasts (sound.follow _) there quiet rests soon
    obtain ⟨q', _, _, there', -⟩ := heeding₁.follow_quiet (sound.follow _) there quiet waits
    have arrives := brings_arrive there' f
    rw [waits.now] at arrives
    have both : Brings i w _ [(time, f)] time := steps.append (waits.append arrives)
    have again : heard ++ (time, f) :: rest = heard ++ [(time, f)] ++ rest := by simp
    rw [again] at untied
    obtain ⟨p', last, -, heeding'⟩ := heeding.follow sound found both.timely
      (by rw [both.heard]; exact Reader.untied_of_append untied)
    rw [both.heard] at heeding'
    obtain ⟨third, end_, more⟩ :=
      ih heeding' (sound.follow _) last (by rwa [both.now]) (by rwa [settings_follow])
    exact ⟨_, end_, both.append more⟩

end SignalHub.World
