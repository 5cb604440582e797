import SignalHub.Proofs.Hub.Channel

/-! A connection goes from connecting to closed and never back, and has a sender exactly before it
is closing. Whatever a step does, to one connection it calls `close` or not and then makes one
change of its own (`connection?_arrange`). From this follow the rules of a life (`lifecycle`): only
a frame that comes after the registration activates, and at most one call of `close` finds a sender
to take. -/
namespace SignalHub

def Phase.rank : Phase → Nat
  | .connecting => 0
  | .registered => 1
  | .active => 2
  | .closing => 3
  | .closed => 4

namespace Connection

/-- There is a sender exactly before the connection is closing. -/
def Coupled (c : Connection) : Prop := c.senderOpen = !c.phase.isClosing

/-- The connection has gone on in its life, or nothing has happened to it. -/
structure Onward (c c' : Connection) : Prop where
  coupled : c'.Coupled
  forward : c.phase.rank ≤ c'.phase.rank

variable {c : Connection}

theorem Coupled.refl (coupled : c.Coupled) : c.Onward c := ⟨coupled, Nat.le_refl _⟩

theorem Onward.trans {a b c : Connection} (first : a.Onward b) (second : b.Onward c) : a.Onward c :=
  ⟨second.coupled, Nat.le_trans first.forward second.forward⟩

/-- Neither the queue nor its reader matters to a life. -/
theorem Coupled.of_same (coupled : c.Coupled) {c' : Connection} (phase : c'.phase = c.phase)
    (sender : c'.senderOpen = c.senderOpen) : c.Onward c' :=
  ⟨by rw [Coupled, phase, sender]; exact coupled, Nat.le_of_eq (congrArg Phase.rank phase.symm)⟩

theorem Coupled.early (coupled : c.Coupled) (open_ : c.senderOpen = true) :
    c.phase.isClosing = false := by
  simpa [Coupled, open_] using coupled

/-- A sender is never taken from a connection that is closed. -/
theorem Coupled.close_eq (coupled : c.Coupled) : c.close = { c with
    senderOpen := false, phase := if c.senderOpen then .closing else c.phase } := by
  rw [Connection.close]
  split
  · rename_i open_
    have going : c.phase ≠ .closed := by
      intro closed
      have early := coupled.early open_
      rw [closed] at early
      cases early
    rw [if_neg going]
  · rename_i shut
    rw [← Bool.eq_false_iff.mpr shut]

theorem Coupled.close (coupled : c.Coupled) : c.Onward c.close := by
  rw [coupled.close_eq]
  split
  · rename_i open_
    have early := coupled.early open_
    refine ⟨rfl, ?_⟩
    cases phase : c.phase <;> simp_all [Phase.isClosing, Phase.rank]
  · rename_i shut
    exact coupled.of_same rfl (Bool.eq_false_iff.mpr shut).symm

theorem Coupled.markRegistered (coupled : c.Coupled) : c.Onward c.markRegistered := by
  rw [Connection.markRegistered]
  split
  · rename_i early
    have open_ : c.senderOpen = true := by simpa [Coupled, early, Phase.isClosing] using coupled
    exact ⟨open_, by simp [early, Phase.rank]⟩
  · exact coupled.refl

theorem Coupled.markActive (coupled : c.Coupled) : c.Onward c.markActive := by
  rw [Connection.markActive]
  split
  · rename_i registered
    have open_ : c.senderOpen = true := by
      simpa [Coupled, registered, Phase.isClosing] using coupled
    exact ⟨open_, by simp [registered, Phase.rank]⟩
  · exact coupled.refl

theorem active_of_markRegistered (active : c.markRegistered.phase = .active) :
    c.phase = .active := by
  rw [Connection.markRegistered] at active
  split at active
  · cases active
  · exact active

theorem senderOpen_markRegistered (c : Connection) :
    c.markRegistered.senderOpen = c.senderOpen := by
  rw [Connection.markRegistered]
  split <;> rfl

theorem senderOpen_markActive (c : Connection) : c.markActive.senderOpen = c.senderOpen := by
  rw [Connection.markActive]
  split <;> rfl

theorem onward_markClosed (c : Connection) : c.Onward c.markClosed := by
  refine ⟨rfl, ?_⟩
  cases phase : c.phase <;> simp [markClosed, Phase.rank]

end Connection

namespace Hub

variable {h k : Hub} {id : ConnId} {c : Connection}

/-- Whoever is registered for the device of a connection. -/
def superseded (h : Hub) (id : ConnId) : List ConnId :=
  match h.connection? id with
  | none => []
  | some c => (h.registry.lookup c.user c.device).toList

/-- The connection itself, if it is registered. -/
def withdrawn (h : Hub) (id : ConnId) : List ConnId :=
  match h.connection? id with
  | none => []
  | some c => if h.registry.lookup c.user c.device = some id then [id] else []

/-- The connections that a step closes, in order. -/
def closes (h : Hub) : Step → List ConnId
  | .close id => [id]
  | .register id => h.superseded id
  | .join id => if h.admits then h.superseded id else []
  | .unregister id => h.withdrawn id
  | .leave id => if h.admits then h.withdrawn id else []
  | .closeAll _ => h.registry.connections
  | _ => []

/-- Calls of `close`, one after the other, each with its answer: whether there was a sender to take. -/
def closeEach : Hub → List ConnId → List (ConnId × Bool)
  | _, [] => []
  | h, id :: rest => (id, h.isOpen id) :: closeEach (h.update id Connection.close) rest

def closings (h : Hub) (s : Step) : List (ConnId × Bool) := h.closeEach (h.closes s)

/-- Every call of `close` during a run. -/
def allClosings : Hub → List Step → List (ConnId × Bool)
  | _, [] => []
  | h, s :: rest => h.closings s ++ allClosings (h.step s) rest

/-- What a step makes of one connection by itself, once it has closed what it closes. -/
inductive Touched (h : Hub) (s : Step) (id : ConnId) (c : Connection) : Connection → Prop where
  | registered (enrolls : h.enrolls s = some id) : Touched h s id c c.markRegistered
  | active (raw : String) (framed : s = .text id raw) : Touched h s id c c.markActive
  | finished (ended : s = .finish id) : Touched h s id c c.markClosed
  | aside {c' : Connection} (phase : c'.phase = c.phase) (sender : c'.senderOpen = c.senderOpen)
      (going : s ≠ .finish id) : Touched h s id c c'

theorem touched_register (found : h.connection? id = some c) {target : ConnId} {s : Step}
    (closes : h.closes s = h.superseded target)
    (enrolls : h.enrolls s = if (h.connection? target).isSome then some target else none)
    (going : s ≠ .finish id) :
    ∃ c', (h.arrangeRegister target).connection? id = some c' ∧
      Touched h s id (if id ∈ h.closes s then c.close else c) c' := by
  rw [closes]
  cases there : h.connection? target with
  | none =>
    exact ⟨c, by simp [arrangeRegister, there, found],
      by simpa [superseded, there] using .aside rfl rfl going⟩
  | some newcomer =>
    have effect : (h.arrangeRegister target).connection? id =
        some (let x := if id ∈ h.superseded target then c.close else c
          if target = id then x.markRegistered else x) := by
      simp only [arrangeRegister, superseded, there, connection?_enroll, found, Option.mem_toList]
      by_cases old : h.registry.lookup newcomer.user newcomer.device = some id <;> simp [old]
    refine ⟨_, effect, ?_⟩
    by_cases same : target = id
    · simp only [if_pos same]
      exact .registered (by rw [enrolls, there, same]; rfl)
    · simp only [if_neg same]
      exact .aside rfl rfl going

theorem touched_unregister (found : h.connection? id = some c) {target : ConnId} {s : Step}
    (closes : h.closes s = h.withdrawn target) (going : s ≠ .finish id) :
    ∃ c', (h.arrangeUnregister target).connection? id = some c' ∧
      Touched h s id (if id ∈ h.closes s then c.close else c) c' := by
  rw [closes]
  refine ⟨_, ?_, .aside rfl rfl going⟩
  cases there : h.connection? target with
  | none => simp [arrangeUnregister, withdrawn, there, found]
  | some x =>
    simp only [arrangeUnregister, withdrawn, there]
    by_cases current : h.registry.lookup x.user x.device = some target
    · simp only [current, if_true, connection?_withdraw, found, List.mem_singleton, Option.map_some,
        eq_comm (a := id)]
      split <;> rfl
    · simp [current, found]

/-- A step that closes nothing and changes one connection. -/
theorem touched_update (found : h.connection? id = some c) {target : ConnId}
    {f : Connection → Connection} {s : Step} (nothing : h.closes s = [])
    (own : target = id → Touched h s id c (f c)) (going : target ≠ id → s ≠ .finish id) :
    ∃ c', (h.update target f).connection? id = some c' ∧
      Touched h s id (if id ∈ h.closes s then c.close else c) c' := by
  rw [nothing]
  by_cases same : target = id
  · exact ⟨f c, by simp [connection?_update, same, found], own same⟩
  · exact ⟨c, by simp [connection?_update, same, found], .aside rfl rfl (going same)⟩

/-- Calls of `close` come first, then at most one change. -/
theorem connection?_arrange (found : h.connection? id = some c) (s : Step) :
    ∃ c', (h.arrange s).connection? id = some c' ∧
      Touched h s id (if id ∈ h.closes s then c.close else c) c' := by
  have untouched {k : Hub} (same : k.connection? id = h.connection? id) {s : Step}
      (closes : h.closes s = []) (going : s ≠ .finish id) :
      ∃ c', k.connection? id = some c' ∧
        Touched h s id (if id ∈ h.closes s then c.close else c) c' :=
    ⟨c, same.trans found, by rw [closes]; exact .aside rfl rfl going⟩
  cases s with
  | register target => exact touched_register found rfl rfl (by simp)
  | unregister target => exact touched_unregister found rfl (by simp)
  | join target =>
    cases open_ : h.admits with
    | false => exact untouched (by simp [arrange, open_]) (by simp [closes, open_]) (by simp)
    | true =>
      have arranged : h.arrange (.join target) = h.arrangeRegister target := by
        simp [arrange, open_]
      rw [arranged]
      exact touched_register found (by simp [closes, open_]) (by simp [enrolls, open_]) (by simp)
  | leave target =>
    cases open_ : h.admits with
    | false => exact untouched (by simp [arrange, open_]) (by simp [closes, open_]) (by simp)
    | true =>
      have arranged : h.arrange (.leave target) = h.arrangeUnregister target := by
        simp [arrange, open_]
      rw [arranged]
      exact touched_unregister found (by simp [closes, open_]) (by simp)
  | close target =>
    refine ⟨if id ∈ [target] then c.close else c, ?_, .aside rfl rfl (by simp)⟩
    simp only [arrange, step, connection?_update, found, List.mem_singleton, eq_comm (a := id)]
    split <;> rfl
  | closeAll inside =>
    refine ⟨if id ∈ h.registry.connections then c.close else c, ?_, .aside rfl rfl (by simp)⟩
    simp only [arrange, step, connection?_closeAll, found]
    split <;> rfl
  | text target raw =>
    exact touched_update found rfl (fun same => .active raw (by rw [same])) (by simp)
  | finish target =>
    exact touched_update found rfl (fun same => .finished (by rw [same])) (by simp)
  | receive target | dropReceiver target =>
    exact touched_update found rfl (fun _ => .aside rfl rfl (by simp)) (by simp)
  | connect user device info capacity =>
    have known := (List.getElem?_eq_some_iff.mp found).1
    have other : id ≠ h.connections.length := Nat.ne_of_lt known
    exact untouched ((connection?_add h _ id).trans (if_neg other)) rfl (by simp)
  | forward | broadcast | streamStart | streamEnd | send | halt | release =>
    exact untouched rfl rfl (by simp)

/-- The offers of a step come last and do not matter to a life. -/
theorem connection?_step_life (found : h.connection? id = some c) (s : Step) :
    ∃ x c', Touched h s id (if id ∈ h.closes s then c.close else c) x ∧
      (h.step s).connection? id = some c' ∧ c'.phase = x.phase ∧ c'.senderOpen = x.senderOpen := by
  obtain ⟨x, arranged, touched⟩ := connection?_arrange found s
  refine ⟨x, { x with queue := x.queue ++ accepted id (h.attempts s) }, touched, ?_, rfl, rfl⟩
  rw [connection?_step, connection?_sendAll, arranged]
  rfl

theorem Touched.onward {s : Step} {x x' : Connection} (touched : Touched h s id x x')
    (coupled : x.Coupled) : x.Onward x' := by
  cases touched with
  | registered => exact coupled.markRegistered
  | active => exact coupled.markActive
  | finished => exact x.onward_markClosed
  | aside phase sender => exact coupled.of_same phase sender

theorem onward_step (found : h.connection? id = some c) (coupled : c.Coupled) (s : Step) :
    ∃ c', (h.step s).connection? id = some c' ∧ c.Onward c' := by
  obtain ⟨x, c', touched, found', phase, sender⟩ := connection?_step_life found s
  have closing : c.Onward (if id ∈ h.closes s then c.close else c) := by
    split
    · exact coupled.close
    · exact coupled.refl
  have touching := closing.trans (touched.onward closing.coupled)
  exact ⟨c', found', touching.trans (touching.coupled.of_same phase sender)⟩

theorem phase_of_closing {p : Phase} (early : p.isClosing = false) {called : Prop}
    [Decidable called] (now : (if called then c.close else c).phase = p) : c.phase = p := by
  split at now
  · rw [Connection.close] at now
    split at now
    · rw [← now] at early
      split at early <;> cases early
    · exact now
  · exact now

/-- Nothing becomes active but by a frame, and nothing registered but by a registration. -/
theorem phase_step (found : h.connection? id = some c) {s : Step} {c' : Connection}
    (found' : (h.step s).connection? id = some c') :
    (c'.phase = .active → c.phase = .active ∨ c.phase = .registered ∧ ∃ raw, s = .text id raw) ∧
      (c'.phase = .registered → c.phase = .registered ∨ h.enrolls s = some id) := by
  obtain ⟨x, c'', touched, same, phase, -⟩ := connection?_step_life found s
  obtain rfl : c' = c'' := Option.some.inj (found'.symm.trans same)
  rw [phase]
  cases touched with
  | registered enrolls =>
    exact ⟨fun active => .inl (phase_of_closing rfl (Connection.active_of_markRegistered active)),
      fun _ => .inr enrolls⟩
  | active raw framed =>
    have whole : (if id ∈ h.closes s then c.close else c) = c := by simp [framed, closes]
    rw [whole, Connection.markActive]
    split
    · rename_i registered
      exact ⟨fun _ => .inr ⟨registered, raw, framed⟩, fun _ => .inl registered⟩
    · exact ⟨.inl, .inl⟩
  | finished =>
    exact ⟨fun active => (by cases active), fun registered => (by cases registered)⟩
  | aside same =>
    rw [same]
    exact ⟨fun active => .inl (phase_of_closing rfl active),
      fun registered => .inl (phase_of_closing rfl registered)⟩

/-- The sender goes with a call of `close` or with the end of the writing. -/
theorem sender_step (found : h.connection? id = some c) {s : Step} {c' : Connection}
    (found' : (h.step s).connection? id = some c') :
    c'.senderOpen = true ↔ c.senderOpen = true ∧ id ∉ h.closes s ∧ s ≠ .finish id := by
  obtain ⟨x, c'', touched, same, -, sender⟩ := connection?_step_life found s
  obtain rfl : c' = c'' := Option.some.inj (found'.symm.trans same)
  have closing : (if id ∈ h.closes s then c.close else c).senderOpen = true ↔
      c.senderOpen = true ∧ id ∉ h.closes s := by
    by_cases called : id ∈ h.closes s
    · cases open_ : c.senderOpen <;> simp [called, Connection.close, open_]
    · simp [called]
  rw [sender]
  cases touched with
  | registered enrolls =>
    have going : s ≠ .finish id := by
      rintro rfl
      cases enrolls
    rw [Connection.senderOpen_markRegistered, closing]
    simp [going]
  | active raw framed =>
    rw [Connection.senderOpen_markActive, closing]
    simp [framed]
  | finished ended => simp [Connection.markClosed, ended]
  | aside _ kept going =>
    rw [kept, closing]
    simp [going]

theorem isOpen_update_close (h : Hub) (j id : ConnId) :
    (h.update j Connection.close).isOpen id = (h.isOpen id && j != id) := by
  by_cases same : j = id
  · cases found : h.connection? id <;> simp [isOpen, connection?_update, same, found]
  · simp [isOpen, connection?_update, same]

/-- Of the calls for one connection only the first can find a sender. -/
theorem count_closeEach (h : Hub) (ids : List ConnId) (id : ConnId) :
    (h.closeEach ids).count (id, true) = if id ∈ ids ∧ h.isOpen id = true then 1 else 0 := by
  induction ids generalizing h with
  | nil => simp [closeEach]
  | cons j rest ih =>
    rw [closeEach, List.count_cons, ih, isOpen_update_close]
    by_cases same : j = id
    · subst same
      cases h.isOpen j <;> simp
    · simp [same, Ne.symm same]

/-- A step closes a connection exactly when it takes the sender and is not the end of the writing. -/
theorem mem_closings (found : h.connection? id = some c) {s : Step} {c' : Connection}
    (found' : (h.step s).connection? id = some c') :
    (id, true) ∈ h.closings s ↔
      c.senderOpen = true ∧ c'.senderOpen = false ∧ s ≠ .finish id := by
  have open_ : h.isOpen id = c.senderOpen := by simp [isOpen, found]
  rw [← List.count_pos_iff, closings, count_closeEach, open_, ← Bool.not_eq_true,
    sender_step found found']
  by_cases ended : s = .finish id
  · simp [ended, closes]
  · by_cases called : id ∈ h.closes s <;> cases c.senderOpen <;> simp [called, ended]

theorem answer_close (h : Hub) (id : ConnId) (answer : Bool) :
    h.answer (.close id) = .flag answer ↔ h.closings (.close id) = [(id, answer)] := by
  simp [Hub.answer, closings, closes, closeEach, isOpen]

/-- What is common to all connections at every moment: the phase goes with the sender, and only who
has been registered is past connecting and not closing. -/
structure Living (history : List ConnId) (h : Hub) : Prop where
  coupled : ∀ id c, h.connection? id = some c → c.Coupled
  registered : ∀ id c, h.connection? id = some c →
    c.phase = .registered ∨ c.phase = .active → id ∈ history

theorem living_new (reports : Bool) : Living [] (new reports) :=
  ⟨fun _ _ found => (by cases found), fun _ _ found => (by cases found)⟩

theorem Living.step {history : List ConnId} (living : Living history h) (s : Step) :
    Living (history ++ (h.enrolls s).toList) (h.step s) := by
  have made {c : Connection} (created : c ∈ s.created) : c.Coupled ∧ c.phase = .connecting := by
    cases s with
    | connect =>
      rw [List.mem_singleton.mp created]
      exact ⟨rfl, rfl⟩
    | _ => cases created
  refine ⟨fun id c found => ?_, fun id c found early => ?_⟩
  · rcases connection_of_step found with ⟨x, before, -⟩ | ⟨-, created⟩
    · obtain ⟨c', found', onward⟩ := onward_step before (living.coupled id x before) s
      obtain rfl := Option.some.inj (found.symm.trans found')
      exact onward.coupled
    · exact (made created).1
  · rw [List.mem_append, Option.mem_toList]
    rcases connection_of_step found with ⟨x, before, -⟩ | ⟨-, created⟩
    · obtain ⟨active, registered⟩ := phase_step before found
      have known := living.registered id x before
      rcases early with now | now
      · exact (registered now).imp (fun same => known (.inl same)) fun enrolls => enrolls
      · rcases active now with same | ⟨same, -⟩
        · exact .inl (known (.inr same))
        · exact .inl (known (.inl same))
    · rw [(made created).2] at early
      simp at early

theorem Living.run {history : List ConnId} (living : Living history h) (steps : List Step) :
    Living (history ++ h.registrations steps) (h.run steps) := by
  induction steps generalizing h history with
  | nil =>
    rw [registrations, List.append_nil]
    exact living
  | cons s rest ih =>
    rw [registrations, ← List.append_assoc]
    exact ih (living.step s)

theorem onward_run (found : h.connection? id = some c) (coupled : c.Coupled) (steps : List Step) :
    ∃ c', (h.run steps).connection? id = some c' ∧ c.Onward c' := by
  induction steps generalizing h c with
  | nil => exact ⟨c, found, coupled.refl⟩
  | cons s rest ih =>
    obtain ⟨x, foundX, onward⟩ := onward_step found coupled s
    obtain ⟨c', found', later⟩ := ih foundX onward.coupled
    exact ⟨c', found', onward.trans later⟩

theorem allClosings_of_closed (found : h.connection? id = some c) (closed : c.senderOpen = false)
    (steps : List Step) : (h.allClosings steps).count (id, true) = 0 := by
  induction steps generalizing h c with
  | nil => rfl
  | cons s rest ih =>
    obtain ⟨c', found', aged⟩ := ages_step h s id c found
    have still : c'.senderOpen = false :=
      Bool.eq_false_iff.mpr fun open_ => by simp [aged.senderOpen open_] at closed
    have now : (h.closings s).count (id, true) = 0 := by
      simp [closings, count_closeEach, isOpen, found, closed]
    rw [allClosings, List.count_append, now, ih found' still]

/-- At most one call of `close` finds a sender to take. -/
theorem count_allClosings (h : Hub) (steps : List Step) (id : ConnId) :
    (h.allClosings steps).count (id, true) ≤ 1 := by
  induction steps generalizing h with
  | nil => exact Nat.zero_le 1
  | cons s rest ih =>
    rw [allClosings, List.count_append]
    by_cases closing : (id, true) ∈ h.closings s
    · have few : (h.closings s).count (id, true) ≤ 1 := by
        rw [closings, count_closeEach]
        split <;> omega
      have known : h.isOpen id = true := by
        rw [← List.count_pos_iff, closings, count_closeEach] at closing
        split at closing
        · rename_i both
          exact both.2
        · cases closing
      obtain ⟨c, found, -⟩ := (isOpen_iff h id).mp known
      obtain ⟨c', found', -⟩ := ages_step h s id c found
      rw [allClosings_of_closed found' ((mem_closings found found').mp closing).2.1]
      exact few
    · rw [List.count_eq_zero.mpr closing, Nat.zero_add]
      exact ih (h.step s)

/-- At every moment of a run, a connection has a sender exactly while it is connecting, registered or
active, and at most one call of `close` has found it. The next step takes the connection no way back;
makes it active only by a frame of a registered connection; and closes it exactly if it takes the
sender and is not the end of the writing. However the run goes on, the connection never goes back, and
without a sender it stays so and refuses all that it is offered. -/
theorem lifecycle (reports : Bool) (past : List Step) (id : ConnId) (c : Connection) :
    let h := (new reports).run past
    h.connection? id = some c →
      (c.senderOpen = true ↔
        c.phase = .connecting ∨ c.phase = .registered ∨ c.phase = .active) ∧
      ((new reports).allClosings past).count (id, true) ≤ 1 ∧
      (∀ s, ∃ c', (h.step s).connection? id = some c' ∧ c.phase.rank ≤ c'.phase.rank ∧
        (c.phase ≠ .active → c'.phase = .active →
          c.phase = .registered ∧ id ∈ (new reports).registrations past ∧
            ∃ raw, s = .text id raw) ∧
        ((id, true) ∈ h.closings s ↔
          c.senderOpen = true ∧ c'.senderOpen = false ∧ s ≠ .finish id)) ∧
      ∀ more, ∃ c', (h.run more).connection? id = some c' ∧ c.phase.rank ≤ c'.phase.rank ∧
        (c.senderOpen = false → c'.senderOpen = false ∧ (h.run more).verdict id = .closed ∧
          ∀ a ∈ h.log more, a.conn = id → a.verdict = .closed) := by
  intro h found
  have living : Living ((new reports).registrations past) h := (living_new reports).run past
  have coupled := living.coupled id c found
  refine ⟨?_, count_allClosings _ past id, fun s => ?_, fun more => ?_⟩
  · rw [coupled]
    cases c.phase <;> simp [Phase.isClosing]
  · obtain ⟨c', found', onward⟩ := onward_step found coupled s
    refine ⟨c', found', onward.forward, fun before active => ?_, mem_closings found found'⟩
    obtain ⟨registered, framed⟩ := ((phase_step found found').1 active).resolve_left before
    exact ⟨registered, living.registered id c found (.inl registered), framed⟩
  · obtain ⟨c', found', onward⟩ := onward_run found coupled more
    refine ⟨c', found', onward.forward, fun gone => ?_⟩
    have closed : h.isOpen id = false := by simp [isOpen, found, gone]
    have still := closed_of_ages (ages_run h more) found closed
    exact ⟨by simpa [isOpen, found'] using still, verdict_of_closed still,
      fun a tried own => verdict_of_log found closed tried own⟩

/-- A connection that is superseded in the middle of its life: the call that takes its sender is the
one of the registration, later ones find nothing, and a frame or another registration brings nothing
back. -/
theorem lifecycle_superseded :
    let phone := Step.connect (.repeated 0) (.repeated 1) (.plain (.repeated 1) "phone") 4
    let past : List Step := [phone, phone, .register 0, .text 0 "ping", .register 1, .close 0]
    let more : List Step := [.text 0 "ping", .register 0, .closeAll false, .finish 0]
    let h := (new false).run past
    ∃ c, h.connection? 0 = some c ∧ c.phase = .closing ∧
      (new false).allClosings past = [(0, true), (0, false)] ∧
      ((new false).allClosings past).count (0, true) ≤ 1 ∧
      (h.run more).verdict 0 = .closed := by
  intro phone past more h
  have life : (h.connection? 0).map (fun c => (c.phase, c.senderOpen)) = some (.closing, false) := by
    decide +kernel
  obtain ⟨c, found, same⟩ := Option.map_eq_some_iff.mp life
  obtain ⟨phase, sender⟩ := Prod.mk.inj same
  obtain ⟨-, once, -, later⟩ := lifecycle false past 0 c found
  obtain ⟨c', -, -, gone⟩ := later more
  exact ⟨c, found, phase, by decide +kernel, once, (gone sender).2.1⟩

end Hub
end SignalHub
