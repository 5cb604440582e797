import SignalHub.Proofs.Hub.Live
import SignalHub.Proofs.Hub.Queue

/-! A queue is a bounded channel. As long as somebody reads it, what was received from it and what
still waits in it are together what it accepted, in order. It never holds more than it has room for,
which is what decides whether an offer is refused, and once closed it takes nothing more but gives
away all that it holds (`queue_discipline`). -/
namespace SignalHub

namespace Connection

/-- The queue is within its bounds. -/
def Fits (c : Connection) : Prop := c.queue.length ≤ c.capacity

variable {c : Connection}

theorem Fits.offer (fits : c.Fits) (o : Outbound) : (c.offer o).Fits := by
  unfold Connection.offer
  split
  · rename_i queued
    have room : c.queue.length < c.capacity := by
      unfold verdict at queued
      split at queued
      · simp at queued
      split at queued
      · assumption
      · simp at queued
    simp only [Fits, List.length_append, List.length_singleton]
    omega
  · exact fits

theorem verdict_eq_full_iff (fits : c.Fits) (read : c.receiverOpen = true) :
    c.verdict = .full ↔ c.senderOpen = true ∧ c.queue.length = c.capacity := by
  have bound : c.queue.length ≤ c.capacity := fits
  cases sender : c.senderOpen with
  | false => simp [verdict, sender]
  | true =>
    by_cases room : c.queue.length < c.capacity
    · simp [verdict, sender, read, room, Nat.ne_of_lt room]
    · have full : c.queue.length = c.capacity := by omega
      simp [verdict, sender, read, full]

theorem verdict_eq_closed_iff (read : c.receiverOpen = true) :
    c.verdict = .closed ↔ c.senderOpen = false := by
  cases sender : c.senderOpen with
  | false => simp [verdict, sender]
  | true =>
    by_cases room : c.queue.length < c.capacity <;> simp [verdict, sender, read, room]

end Connection

namespace Hub

variable {h k : Hub} {id : ConnId}

/-- Somebody reads the queue. -/
def isRead (h : Hub) (id : ConnId) : Bool := (h.connection? id).any Connection.receiverOpen

/-- What a step hands to the reader of a queue. -/
def hands (h : Hub) (id : ConnId) (s : Step) : List Outbound :=
  match s, h.answer s with
  | .receive target, .received o _ => if target = id then o.toList else []
  | _, _ => []

/-- What the reader of a queue received during a run, in order. -/
def received (id : ConnId) : Hub → List Step → List Outbound
  | _, [] => []
  | h, s :: rest => h.hands id s ++ received id (h.step s) rest

/-- Nobody has stopped reading the queue, which need not be there yet. -/
def Unabandoned (h : Hub) (id : ConnId) : Prop :=
  ∀ c, h.connection? id = some c → c.receiverOpen = true

theorem Unabandoned.before (read : Unabandoned k id) (aged : Ages h k) : Unabandoned h id := by
  intro c found
  obtain ⟨c', found', later⟩ := aged id c found
  exact later.receiverOpen (read c' found')

theorem unabandoned_of_isRead (read : h.isRead id = true) : Unabandoned h id := by
  intro c found
  simpa [isRead, found] using read

theorem queue_of_found {c : Connection} (found : h.connection? id = some c) :
    h.queue id = c.queue := by
  simp [queue, found]

theorem hands_receive (h : Hub) (id : ConnId) : h.hands id (.receive id) = (h.queue id).take 1 := by
  unfold hands
  cases found : h.connection? id with
  | none => simp [answer, queue, found]
  | some c => cases waiting : c.queue <;> simp [answer, queue, found, waiting]

theorem hands_of_other {s : Step} (other : s ≠ .receive id) : h.hands id s = [] := by
  cases s with
  | receive target =>
    have apart : target ≠ id := fun same => other (by rw [same])
    simp [hands, answer, apart]
  | _ => rfl

/-- What a step leaves of a queue is what it does not hand to the reader. -/
theorem hands_leaves (h : Hub) (id : ConnId) (s : Step) :
    h.hands id s ++ s.leaves id (h.queue id) = h.queue id := by
  by_cases own : s = .receive id
  · rw [own, hands_receive, Step.leaves, if_pos rfl, ← List.drop_one, List.take_append_drop]
  · rw [hands_of_other own, List.nil_append]
    unfold Step.leaves
    split
    · rename_i target
      exact if_neg fun same => own (by rw [same])
    · rfl

theorem queue_of_unknown (unknown : h.connection? id = none) : h.queue id = [] := by
  simp [queue, unknown]

theorem received_step (h : Hub) (id : ConnId) (s : Step) :
    h.hands id s ++ (h.step s).queue id = h.queue id ++ accepted id (h.attempts s) := by
  rw [queue_step, ← List.append_assoc, hands_leaves]

/-- Nothing that a queue accepts is lost, doubled or put out of order on the way to its reader. -/
theorem received_run (h : Hub) (id : ConnId) (steps : List Step) :
    h.received id steps ++ (h.run steps).queue id = h.queue id ++ accepted id (h.log steps) := by
  induction steps generalizing h with
  | nil => simp [received, log, accepted, run]
  | cons s rest ih =>
    calc h.received id (s :: rest) ++ (h.run (s :: rest)).queue id
        = h.hands id s ++ ((h.step s).received id rest ++ ((h.step s).run rest).queue id) :=
          List.append_assoc ..
      _ = (h.hands id s ++ (h.step s).queue id) ++ accepted id ((h.step s).log rest) := by
          rw [ih, List.append_assoc]
      _ = h.queue id ++ accepted id (h.log (s :: rest)) := by
          rw [received_step, log, accepted_append, List.append_assoc]

theorem received_of_silent {steps : List Step} (silent : .receive id ∉ steps) :
    h.received id steps = [] := by
  induction steps generalizing h with
  | nil => rfl
  | cons s rest ih =>
    rw [List.mem_cons, not_or] at silent
    rw [received, hands_of_other (Ne.symm silent.1), ih silent.2]
    rfl

theorem received_append (h : Hub) (id : ConnId) (first rest : List Step) :
    h.received id (first ++ rest) = h.received id first ++ (h.run first).received id rest := by
  induction first generalizing h with
  | nil => rfl
  | cons s first ih => simp only [List.cons_append, received, ih, List.append_assoc]; rfl

/-- An offer whose turn has come. -/
structure Occasion where
  hub : Hub
  conn : ConnId
  item : Outbound

def Occasion.verdict (o : Occasion) : Offer := o.hub.verdict o.conn

/-- The hub when the offer has been made. -/
def Occasion.after (o : Occasion) : Hub := o.hub.send o.conn o.item

def turns : Hub → Offers → List Occasion
  | _, [] => []
  | h, p :: rest => ⟨h, p.1, p.2⟩ :: turns (h.send p.1 p.2) rest

/-- The offers of a run, each with the hub as it was when its turn came. -/
def occasions : Hub → List Step → List Occasion
  | _, [] => []
  | h, s :: rest => (h.arrange s).turns (h.offers s) ++ occasions (h.step s) rest

theorem trials_eq_map (h : Hub) (offers : Offers) :
    h.trials offers = (h.turns offers).map fun o => ⟨o.conn, o.item, o.verdict⟩ := by
  induction offers generalizing h with
  | nil => rfl
  | cons p rest ih => rw [trials, turns, List.map_cons, ih]; rfl

theorem log_eq_map (h : Hub) (steps : List Step) :
    h.log steps = (h.occasions steps).map fun o => ⟨o.conn, o.item, o.verdict⟩ := by
  induction steps generalizing h with
  | nil => rfl
  | cons s rest ih => rw [log, occasions, List.map_append, ← ih, ← trials_eq_map]; rfl

/-- The queue of a connection is within its bounds, if the connection is there. -/
def Fits (h : Hub) (id : ConnId) : Prop := ∀ c, h.connection? id = some c → c.Fits

theorem Fits.send (fits : Fits h id) (j : ConnId) (o : Outbound) : Fits (h.send j o) id := by
  intro c found
  rw [connection?_send] at found
  split at found
  · obtain ⟨x, foundX, rfl⟩ := Option.map_eq_some_iff.mp found
    exact (fits x foundX).offer o
  · exact fits c found

theorem length_leaves (s : Step) (id : ConnId) (queue : List Outbound) :
    (s.leaves id queue).length ≤ queue.length := by
  unfold Step.leaves
  split
  · split <;> simp
  · exact Nat.le_refl _

theorem Fits.arrange (fits : Fits h id) (s : Step) : Fits (h.arrange s) id := by
  intro c found
  have queue := queue_arrange h s id
  rw [queue_of_found found] at queue
  cases before : h.connection? id with
  | none =>
    have empty : c.queue = [] := by
      rw [queue, queue_of_unknown before, ← List.length_eq_zero_iff]
      have bound := length_leaves s id []
      simpa using bound
    simp [Connection.Fits, empty]
  | some x =>
    obtain ⟨c', found', aged⟩ := ages_arrange h s id x before
    obtain rfl := Option.some.inj (found.symm.trans found')
    rw [queue_of_found before] at queue
    calc c.queue.length
        ≤ x.queue.length := by rw [queue]; exact length_leaves s id x.queue
      _ ≤ x.capacity := fits x before
      _ = c.capacity := aged.capacity.symm

theorem Fits.turn (fits : Fits h id) {offers : Offers} {o : Occasion} (turn : o ∈ h.turns offers) :
    Fits o.hub id := by
  induction offers generalizing h with
  | nil => simp [turns] at turn
  | cons p rest ih =>
    rcases List.mem_cons.mp turn with rfl | later
    · exact fits
    · exact ih (fits.send p.1 p.2) later

theorem Fits.step (fits : Fits h id) (s : Step) : Fits (h.step s) id := by
  have sent (offers : Offers) (k : Hub) (bounded : Fits k id) : Fits (k.sendAll offers) id := by
    induction offers generalizing k with
    | nil => exact bounded
    | cons p rest ih => exact ih _ (bounded.send p.1 p.2)
  intro c found
  rw [connection?_step] at found
  exact sent _ _ (fits.arrange s) c found

theorem Fits.run (fits : Fits h id) (steps : List Step) : Fits (h.run steps) id := by
  induction steps generalizing h with
  | nil => exact fits
  | cons s rest ih => exact ih (fits.step s)

theorem Fits.occasion (fits : Fits h id) {steps : List Step} {o : Occasion}
    (occasion : o ∈ h.occasions steps) : Fits o.hub id := by
  induction steps generalizing h with
  | nil => simp [occasions] at occasion
  | cons s rest ih =>
    rcases List.mem_append.mp occasion with now | later
    · exact (fits.arrange s).turn now
    · exact ih (fits.step s) later

theorem ages_turn {offers : Offers} {o : Occasion} (turn : o ∈ h.turns offers) :
    Ages h o.hub ∧ Ages o.hub (h.sendAll offers) := by
  induction offers generalizing h with
  | nil => simp [turns] at turn
  | cons p rest ih =>
    rcases List.mem_cons.mp turn with rfl | later
    · exact ⟨.refl h, ages_sendAll h (p :: rest)⟩
    · obtain ⟨before, after⟩ := ih later
      exact ⟨(ages_sendAll h [p]).trans before, after⟩

/-- When an offer's turn comes the hub is on its way through the run. -/
theorem ages_occasion {steps : List Step} {o : Occasion} (occasion : o ∈ h.occasions steps) :
    Ages h o.hub ∧ Ages o.hub (h.run steps) := by
  induction steps generalizing h with
  | nil => simp [occasions] at occasion
  | cons s rest ih =>
    rcases List.mem_append.mp occasion with now | later
    · obtain ⟨before, after⟩ := ages_turn now
      have made : Ages ((h.arrange s).sendAll (h.offers s)) (h.step s) :=
        fun j c found => ⟨c, (connection?_step h s j).trans found, .refl c⟩
      exact ⟨(ages_arrange h s).trans before, (after.trans made).trans (ages_run (h.step s) rest)⟩
    · obtain ⟨before, after⟩ := ih later
      exact ⟨(ages_step h s).trans before, after⟩

theorem closed_of_ages (aged : Ages h k) {c : Connection} (found : h.connection? id = some c)
    (closed : h.isOpen id = false) : k.isOpen id = false := by
  apply Bool.eq_false_iff.mpr
  intro open_
  simp [isOpen_of_ages aged found open_] at closed

theorem verdict_of_closed (closed : h.isOpen id = false) : h.verdict id = .closed := by
  unfold verdict
  cases found : h.connection? id with
  | none => rfl
  | some c =>
    have sender : c.senderOpen = false := by simpa [isOpen, found] using closed
    simp [Connection.verdict, sender]

/-- A queue that is closed takes nothing ever again. -/
theorem verdict_of_log {c : Connection} (found : h.connection? id = some c)
    (closed : h.isOpen id = false) {steps : List Step} {a : Attempt} (tried : a ∈ h.log steps)
    (own : a.conn = id) : a.verdict = .closed := by
  rw [log_eq_map] at tried
  obtain ⟨o, occasion, rfl⟩ := List.mem_map.mp tried
  subst own
  exact verdict_of_closed (closed_of_ages (ages_occasion occasion).1 found closed)

/-- Whatever is closed during a run is closed at its end. -/
theorem closed_of_close {c : Connection} (found : h.connection? id = some c) {steps : List Step}
    (closes : .close id ∈ steps) : (h.run steps).isOpen id = false := by
  obtain ⟨front, back, rfl⟩ := List.append_of_mem closes
  obtain ⟨x, foundX, -⟩ := ages_run h front id c found
  have gone : ((h.run front).step (.close id)).connection? id = some x.close := by
    simp [step, connection?_update, foundX]
  rw [run_append]
  exact closed_of_ages (ages_run ((h.run front).step (.close id)) back) gone (by simp [isOpen, gone])

theorem accepted_of_closed {c : Connection} (found : h.connection? id = some c)
    (closed : h.isOpen id = false) (steps : List Step) : accepted id (h.log steps) = [] := by
  rw [accepted, List.map_eq_nil_iff, List.filter_eq_nil_iff]
  intro a tried
  by_cases own : a.conn = id
  · simp [verdict_of_log found closed tried own]
  · simp [own]

theorem queue_nil_of_closed {c : Connection} (found : h.connection? id = some c)
    (closed : h.isOpen id = false) (empty : h.queue id = []) (steps : List Step) :
    (h.run steps).queue id = [] := by
  induction steps generalizing h c with
  | nil => exact empty
  | cons s rest ih =>
    obtain ⟨c', found', -⟩ := ages_step h s id c found
    have nothing := accepted_of_closed found closed [s]
    rw [log, log, List.append_nil] at nothing
    have still : (h.step s).queue id = [] := by
      have few := length_leaves s id []
      rw [queue_step, nothing, empty, List.append_nil]
      exact List.length_eq_zero_iff.mp (Nat.le_zero.mp few)
    exact ih found' (closed_of_ages (ages_step h s) found closed) still

/-- What becomes of an offer, and what it changes, by the state of the queue when its turn comes. -/
structure Occasion.Ruled (bound : Nat) (o : Occasion) : Prop where
  full : o.verdict = .full ↔ o.hub.isOpen o.conn = true ∧ (o.hub.queue o.conn).length = bound
  closed : o.verdict = .closed ↔ o.hub.isOpen o.conn = false
  queued : o.verdict = .queued → o.after.queue o.conn = o.hub.queue o.conn ++ [o.item]
  refused : o.verdict ≠ .queued → o.after.connections = o.hub.connections

theorem ruled_of_found {o : Occasion} {c : Connection} (found : o.hub.connection? o.conn = some c)
    (fits : c.Fits) (read : c.receiverOpen = true) : o.Ruled c.capacity := by
  have verdict : o.verdict = c.verdict := by simp [Occasion.verdict, Hub.verdict, found]
  have open_ : o.hub.isOpen o.conn = c.senderOpen := by simp [isOpen, found]
  refine ⟨?_, ?_, ?_, ?_⟩
  · rw [verdict, open_, queue_of_found found]
    exact c.verdict_eq_full_iff fits read
  · rw [verdict, open_]
    exact c.verdict_eq_closed_iff read
  · intro queued
    have taken : o.after.connection? o.conn = some (c.offer o.item) := by
      simp [Occasion.after, connection?_send, found]
    rw [verdict] at queued
    rw [queue_of_found taken, queue_of_found found, Connection.offer, queued]
  · exact send_of_refused o.hub o.conn o.item

theorem connection?_connect (h : Hub) (user device : Uuid) (info : Device.Info) (capacity : Nat) :
    (h.step (.connect user device info capacity)).connection? h.connections.length =
      some (.new user device info capacity) := by
  rw [step, connection?_add, if_pos rfl]

/-- However offers, deliveries, replies, receptions and the end of the sending come in between each
other: what was received and what still waits are what the queue accepted, in order. It never holds
more than it has room for. An offer is refused as full exactly when the queue is open and holds that
much, as closed exactly when it is closed, and then changes nothing. Once closed, the queue stays so,
refuses everything as closed, still gives away what it holds, and tells its reader of the end only
when nothing is left. -/
theorem queue_discipline (reports : Bool) (past : List Step) (user device : Uuid)
    (info : Device.Info) (capacity : Nat) (steps : List Step) :
    let before := (new reports).run past
    let id := before.connections.length
    let start := before.step (.connect user device info capacity)
    let h := start.run steps
    let accepts := accepted id (start.log steps)
    let received := start.received id steps
    h.isRead id = true →
      received ++ h.queue id = accepts ∧
      (h.queue id).length ≤ max capacity 1 ∧
      (∀ o ∈ start.occasions steps, o.conn = id → o.Ruled (max capacity 1)) ∧
      h.answer (.receive id) =
        .received accepts[received.length]? (decide (received = accepts) && !h.isOpen id) ∧
      (.close id ∈ steps → h.isOpen id = false) ∧
      (h.isOpen id = false → ∀ more,
        (∀ a ∈ h.log more, a.conn = id → a.verdict = .closed) ∧
        ((h.run more).isRead id = true →
          h.received id more ++ (h.run more).queue id = h.queue id)) := by
  intro before id start h accepts received read
  have made : start.connection? id = some (.new user device info capacity) :=
    connection?_connect before user device info capacity
  have fits : Fits start id := by
    intro c found
    obtain rfl := Option.some.inj (made.symm.trans found)
    exact Nat.zero_le _
  obtain ⟨c, found, aged⟩ : ∃ c, h.connection? id = some c ∧ _ := ages_run start steps id _ made
  have size : c.capacity = max capacity 1 := aged.capacity
  have unabandoned := unabandoned_of_isRead read
  have order : received ++ h.queue id = accepts := by
    have empty : start.queue id = [] := queue_of_found made
    have whole := received_run start id steps
    rwa [empty, List.nil_append] at whole
  refine ⟨order, ?_, ?_, ?_, closed_of_close made, fun closed more => ⟨?_, fun _ => ?_⟩⟩
  · rw [queue_of_found found, ← size]
    exact fits.run steps c found
  · intro o occasion own
    obtain ⟨earlier, later⟩ := ages_occasion occasion
    obtain ⟨x, foundX, agedX⟩ := earlier id _ made
    have bounded := fits.occasion occasion x foundX
    have readX := unabandoned.before later x foundX
    rw [← own] at foundX
    have ruled := ruled_of_found foundX bounded readX
    rwa [agedX.capacity] at ruled
  · have next : c.queue.head? = accepts[received.length]? := by
      rw [← order, List.getElem?_append_right (Nat.le_refl _), Nat.sub_self,
        ← List.head?_eq_getElem?, queue_of_found found]
    have drained : decide (received = accepts) = c.queue.isEmpty := by
      rw [← order, queue_of_found found]
      cases c.queue <;> simp
    simp [answer, next, drained, isOpen, found]
  · exact fun a tried own => verdict_of_log found closed tried own
  · rw [received_run, accepted_of_closed found closed, List.append_nil]

/-- Asked for no room, a queue has room for one. -/
theorem queue_discipline_full :
    let first := Outbound.text "first"
    let second := Outbound.text "second"
    let steps : List Step := [.send 0 first, .send 0 (.text "refused"), .receive 0, .send 0 second,
      .close 0, .send 0 (.text "late")]
    let start := (new false).step
      (.connect (.repeated 0) (.repeated 1) (.plain (.repeated 1) "phone") 0)
    let h := start.run steps
    h.isRead 0 = true ∧ start.received 0 steps = [first] ∧ h.queue 0 = [second] ∧
      accepted 0 (start.log steps) = [first, second] ∧
      h.answer (.receive 0) = .received (some second) false ∧
      ∀ more, (h.run more).isRead 0 = true →
        h.received 0 more ++ (h.run more).queue 0 = [second] := by
  intro first second steps start h
  have read : h.isRead 0 = true := by decide +kernel
  have received : start.received 0 steps = [first] := by decide +kernel
  have waiting : h.queue 0 = [second] := by decide +kernel
  obtain ⟨order, -, -, next, closed, rest⟩ := queue_discipline false [] (.repeated 0) (.repeated 1)
    (.plain (.repeated 1) "phone") 0 steps read
  have accepts : accepted 0 (start.log steps) = [first, second] := by
    rw [← waiting, ← List.singleton_append, ← received]
    exact order.symm
  refine ⟨read, received, waiting, accepts, next.trans ?_, fun more stillRead => ?_⟩
  · change Answer.received (accepted 0 (start.log steps))[(start.received 0 steps).length]?
      (decide (start.received 0 steps = accepted 0 (start.log steps)) && !h.isOpen 0) = _
    rw [accepts, received]
    rfl
  · exact ((rest (closed (by decide)) more).2 stillRead).trans waiting

end Hub
end SignalHub
