import SignalHub.Proofs.Hub.Effect

/-! A step leaves of a queue what its reader has not taken, and adds to it what the queue accepts of
the step's offers (`queue_step`). Nothing else gets into a queue or out of it. -/
namespace SignalHub

theorem Connection.queue_markActive (c : Connection) : c.markActive.queue = c.queue := by
  unfold markActive
  split <;> rfl

namespace Hub

variable {h k : Hub} {id : ConnId}

/-- What waits to be written to a connection; nothing where there is no connection. -/
def queue (h : Hub) (id : ConnId) : List Outbound := (h.connection? id).elim [] Connection.queue

/-- What a step leaves of a queue before it offers anything. -/
def Step.leaves (id : ConnId) (queue : List Outbound) : Step → List Outbound
  | .receive target => if target = id then queue.tail else queue
  | _ => queue

theorem queue_of_map (f : Connection → Connection)
    (effect : k.connection? id = (h.connection? id).map f) (keeps : ∀ c, (f c).queue = c.queue) :
    k.queue id = h.queue id := by
  unfold queue
  rw [effect]
  cases h.connection? id with
  | none => rfl
  | some c => exact keeps c

theorem queue_of_ite (p : Prop) [Decidable p] (f : Connection → Connection)
    (effect : k.connection? id = if p then (h.connection? id).map f else h.connection? id)
    (keeps : ∀ c, (f c).queue = c.queue) : k.queue id = h.queue id := by
  apply queue_of_map fun c => if p then f c else c
  · rw [effect]
    split <;> simp
  · intro c
    split
    · exact keeps c
    · rfl

theorem queue_update_of_keeps (h : Hub) (target id : ConnId) {f : Connection → Connection}
    (keeps : ∀ c, (f c).queue = c.queue) : (h.update target f).queue id = h.queue id :=
  queue_of_ite (target = id) f (connection?_update h target id f) keeps

theorem queue_enroll (h : Hub) (target id : ConnId) (c : Connection) :
    (h.enroll target c).queue id = h.queue id := by
  have superseded : (h.supersede c.user c.device).queue id = h.queue id :=
    queue_of_ite _ Connection.close (connection?_supersede h c.user c.device id)
      Connection.queue_close
  have marked := queue_update_of_keeps (h.supersede c.user c.device) target id
    Connection.queue_markRegistered
  exact marked.trans superseded

theorem queue_add (h : Hub) (c : Connection) (empty : c.queue = []) (id : ConnId) :
    (h.add c).1.queue id = h.queue id := by
  unfold queue
  rw [connection?_add]
  split
  · rename_i new
    have unknown : h.connection? id = none := by simp [connection?, new]
    rw [unknown]
    exact empty
  · rfl

theorem queue_arrange (h : Hub) (s : Step) (id : ConnId) :
    (h.arrange s).queue id = s.leaves id (h.queue id) := by
  have registered (target) : (h.arrangeRegister target).queue id = h.queue id := by
    unfold arrangeRegister
    split
    · rfl
    · exact queue_enroll h target id _
  have unregistered (target) : (h.arrangeUnregister target).queue id = h.queue id := by
    unfold arrangeUnregister
    split
    · rfl
    split
    · exact queue_update_of_keeps h target id Connection.queue_close
    · rfl
  cases s with
  | register target => exact registered target
  | unregister target => exact unregistered target
  | join target =>
    simp only [arrange]
    split
    · exact registered target
    · rfl
  | leave target =>
    simp only [arrange]
    split
    · exact unregistered target
    · rfl
  | text target => exact queue_update_of_keeps h target id Connection.queue_markActive
  | close target => exact queue_update_of_keeps h target id Connection.queue_close
  | finish target | dropReceiver target => exact queue_update_of_keeps h target id fun _ => rfl
  | closeAll inside =>
    exact queue_of_ite _ Connection.close (connection?_closeAll h inside id) Connection.queue_close
  | connect user device info capacity => exact queue_add h _ rfl id
  | receive target =>
    simp only [arrange, step, queue, connection?_update, Step.leaves]
    by_cases same : target = id
    · cases h.connection? id <;> simp [same, Connection.dropFirst]
    · simp [same]
  | forward | broadcast | streamStart | streamEnd | send | halt | release => rfl

/-- A queue that does not exist takes nothing. -/
theorem accepted_of_unknown {offers : Offers} (unknown : h.connection? id = none) :
    accepted id (h.trials offers) = [] := by
  induction offers generalizing h with
  | nil => rfl
  | cons p rest ih =>
    obtain ⟨target, o⟩ := p
    have later : (h.send target o).connection? id = none := by simp [connection?_send, unknown]
    have tail := ih later
    unfold accepted at *
    by_cases same : target = id
    · subst same
      simp [trials, verdict, unknown, tail]
    · simp [trials, same, tail]

/-- A queue keeps what its reader leaves in it, and takes what it accepts of a step's offers. -/
theorem queue_step (h : Hub) (s : Step) (id : ConnId) :
    (h.step s).queue id = s.leaves id (h.queue id) ++ accepted id (h.attempts s) := by
  rw [← queue_arrange]
  unfold queue attempts
  rw [connection?_step, connection?_sendAll]
  cases found : (h.arrange s).connection? id with
  | none => simp [accepted_of_unknown found]
  | some c => rfl

end Hub
end SignalHub
