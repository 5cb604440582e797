import SignalHub.Proofs.Hub.Arrival
import SignalHub.Proofs.Hub.Reaction

/-! A message that is offered once to each of some connections ends up in the queues that are open
and have room, and one drop is counted for each queue that is full; nothing else happens, and it
does not matter who is asked first (`deliverAll_of_nodup`). The devices of a user have different
connections, so this is what a broadcast does, and a message that is forwarded goes to one
connection or to none (`delivery_exact`). -/
namespace SignalHub

namespace Connection

variable {c : Connection}

theorem verdict_eq_queued_iff (c : Connection) :
    c.verdict = .queued ↔
      c.senderOpen = true ∧ c.receiverOpen = true ∧ c.queue.length < c.capacity := by
  obtain ⟨_, _, _, _, sender, receiver, capacity, queue⟩ := c
  cases sender <;> cases receiver <;> by_cases room : queue.length < capacity <;>
    simp [verdict, room]

theorem verdict_eq_full_iff_no_room (c : Connection) :
    c.verdict = .full ↔
      c.senderOpen = true ∧ c.receiverOpen = true ∧ c.capacity ≤ c.queue.length := by
  obtain ⟨_, _, _, _, sender, receiver, capacity, queue⟩ := c
  cases sender <;> cases receiver <;> by_cases room : queue.length < capacity <;>
    simp [verdict, room, ← Nat.not_lt]

theorem offer_of_refused (refused : c.verdict ≠ .queued) (o : Outbound) : c.offer o = c := by
  unfold offer
  split
  · contradiction
  · rfl

end Connection

namespace Hub

variable {h : Hub} {id j : ConnId} {ids : List ConnId} {user target : Uuid} {exclude : Option Uuid}

/-- The hub when each of these connections has been offered the message once. -/
def told (h : Hub) (ids : List ConnId) (m : Message) : Hub :=
  { h with
    connections := h.connections.mapIdx fun id c => if id ∈ ids then c.offer (.message m) else c
    counters := { h.counters with
      dropped := h.counters.dropped + .ofNat (ids.countP fun id => h.verdict id == .full) } }

theorem connection?_told (h : Hub) (ids : List ConnId) (m : Message) (j : ConnId) :
    (h.told ids m).connection? j =
      (h.connection? j).map fun c => if j ∈ ids then c.offer (.message m) else c := by
  simp [told, connection?]

theorem told_nil (h : Hub) (m : Message) : h.told [] m = h := by
  have same : (h.connections.mapIdx fun _ c => c) = h.connections := by
    rw [List.mapIdx_eq_iff]
    simp
  simp [told, same]

/-- Neither the order of the connections nor anything else about the list matters. -/
theorem told_of_perm {ids' : List ConnId} (same : ids.Perm ids') (h : Hub) (m : Message) :
    h.told ids m = h.told ids' m := by
  simp only [told, same.mem_iff, same.countP_eq]

theorem connections_told_singleton (h : Hub) (id : ConnId) (m : Message) :
    (h.told [id] m).connections = (h.send id (.message m)).connections := by
  apply List.ext_getElem?
  intro j
  change (h.told [id] m).connection? j = (h.send id (.message m)).connection? j
  rw [connection?_told, connection?_send]
  by_cases own : j = id
  · simp [own]
  · simp [own, Ne.symm own]

theorem deliver_eq (h : Hub) (id : ConnId) (m : Message) :
    h.deliver id m = (h.told [id] m, h.verdict id == .queued) := by
  have told : h.told [id] m = { h with
      connections := (h.send id (.message m)).connections
      counters := { h.counters with
        dropped := h.counters.dropped + .ofNat ([id].countP fun id => h.verdict id == .full) } } := by
    rw [← connections_told_singleton]
    rfl
  rw [told]
  unfold deliver
  cases verdict : h.verdict id with
  | queued => simp [verdict, send, update]
  | full => simp [send_of_refused, verdict, countDrop]
  | closed => simp [send_of_refused, verdict]

theorem verdict_told_of_not_mem (h : Hub) (m : Message) (apart : j ∉ ids) :
    (h.told ids m).verdict j = h.verdict j := by
  unfold verdict
  rw [connection?_told]
  cases h.connection? j <;> simp [apart]

/-- Two parts of a list that share nothing may be told one after the other. -/
theorem told_told {rest : List ConnId} (apart : ids.Disjoint rest) (h : Hub) (m : Message) :
    (h.told ids m).told rest m = h.told (ids ++ rest) m := by
  have counted : rest.countP (fun id => (h.told ids m).verdict id == .full) =
      rest.countP fun id => h.verdict id == .full := by
    apply List.countP_congr
    intro j later
    rw [verdict_told_of_not_mem h m fun earlier => apart earlier later]
  unfold told at counted ⊢
  simp only [counted, List.mapIdx_mapIdx, List.countP_append, UInt64.ofNat_add, UInt64.add_assoc]
  congr 1
  apply List.mapIdx_eq_mapIdx_iff.mpr
  intro j bound
  by_cases earlier : j ∈ ids
  · have later : j ∉ rest := fun later => apart earlier later
    simp [earlier, later]
  · simp [earlier]

/-- Whoever is offered a message is offered it as if nobody else were. -/
theorem deliverAll_of_nodup (distinct : ids.Nodup) (h : Hub) (m : Message) :
    h.deliverAll ids m = (h.told ids m, ids.countP fun id => h.verdict id == .queued) := by
  induction ids generalizing h with
  | nil => rw [told_nil]; rfl
  | cons id rest ih =>
    obtain ⟨new, distinct⟩ := List.nodup_cons.mp distinct
    have apart : [id].Disjoint rest := by simpa using new
    have taken : rest.countP (fun j => (h.told [id] m).verdict j == .queued) =
        rest.countP fun j => h.verdict j == .queued := by
      apply List.countP_congr
      intro j later
      rw [verdict_told_of_not_mem h m fun own => apart own later]
    rw [deliverAll, deliver_eq]
    dsimp only
    rw [ih distinct, taken, told_told apart, List.countP_cons, Nat.add_comm]
    rfl

/-- The connections to which a broadcast goes if the devices of the user are gone through in this
order. -/
def audienceOf (t : Table Uuid ConnId) (exclude : Option Uuid) : List ConnId :=
  (t.filter fun p => exclude != some p.1).map Prod.snd

/-- Those that a broadcast finds with this verdict. -/
def met (h : Hub) (user : Uuid) (exclude : Option Uuid) (v : Offer) : List ConnId :=
  (h.audience user exclude).filter fun id => h.verdict id == v

theorem Consistent.nodup_met (valid : Consistent h) (user : Uuid) (exclude : Option Uuid)
    (v : Offer) : (h.met user exclude v).Nodup :=
  (valid.nodup_audience user exclude).filter _

theorem Consistent.mem_met_iff (valid : Consistent h) (user : Uuid) (exclude : Option Uuid)
    (v : Offer) (j : ConnId) :
    j ∈ h.met user exclude v ↔ ∃ device c, exclude ≠ some device ∧
      h.registry.lookup user device = some j ∧ h.connection? j = some c ∧ c.verdict = v := by
  rw [met, List.mem_filter, valid.mem_audience_iff, beq_iff_eq]
  constructor
  · rintro ⟨⟨device, apart, stored⟩, verdict⟩
    obtain ⟨c, found, -, -⟩ := valid.keyed _ _ _ stored
    rw [verdict_of_found found] at verdict
    exact ⟨device, c, apart, stored, found, verdict⟩
  · rintro ⟨device, c, apart, stored, found, verdict⟩
    exact ⟨⟨device, apart, stored⟩, (verdict_of_found found).trans verdict⟩

theorem Consistent.broadcast_eq (valid : Consistent h) (user : Uuid) (exclude : Option Uuid)
    (m : Message) :
    h.broadcast user exclude m =
      (h.told (h.audience user exclude) m, (h.met user exclude .queued).length) := by
  rw [broadcast, deliverAll_of_nodup (valid.nodup_audience user exclude), met,
    List.countP_eq_length_filter]

/-- It does not matter in which order the devices are gone through. -/
theorem Consistent.broadcast_of_perm (valid : Consistent h) {t : Table Uuid ConnId}
    (same : t.Perm (h.registry.devices user)) (exclude : Option Uuid) (m : Message) :
    h.deliverAll (audienceOf t exclude) m = h.broadcast user exclude m := by
  have reordered : (audienceOf t exclude).Perm (h.audience user exclude) :=
    (same.filter _).map _
  have distinct := reordered.nodup_iff.mpr (valid.nodup_audience user exclude)
  rw [deliverAll_of_nodup distinct, broadcast,
    deliverAll_of_nodup (valid.nodup_audience user exclude), told_of_perm reordered,
    reordered.countP_eq]

/-- A broadcast adds its message to the queues that take it. -/
theorem connection?_told_audience (h : Hub) (user : Uuid) (exclude : Option Uuid) (m : Message)
    (j : ConnId) :
    (h.told (h.audience user exclude) m).connection? j = (h.connection? j).map fun c =>
      { c with queue := c.queue ++ if j ∈ h.met user exclude .queued then [.message m] else [] } := by
  rw [connection?_told]
  cases found : h.connection? j with
  | none => rfl
  | some c =>
    have verdict : h.verdict j = c.verdict := verdict_of_found found
    by_cases asked : j ∈ h.audience user exclude
    · by_cases queued : c.verdict = .queued
      · simp [met, asked, verdict, queued, Connection.offer_of_queued queued]
      · simp [met, asked, verdict, queued, Connection.offer_of_refused queued]
    · simp [met, asked]

theorem forward_of_missing (missing : h.registry.lookup user target = none) (m : Message) :
    h.forward user target m = (h.countMiss, false) := by
  rw [forward, missing]

theorem forward_of_stored (stored : h.registry.lookup user target = some j) (m : Message) :
    h.forward user target m =
      if h.verdict j = .queued then ((h.send j (.message m)).countForward, true)
      else if h.verdict j = .full then (h.countDrop, false)
      else (h, false) := by
  rw [forward, stored]
  dsimp only
  unfold deliver
  cases h.verdict j <;> rfl

/-- A message that finds its device in the registry, with an open queue that has room. -/
def Reaches (h : Hub) (user target : Uuid) (j : ConnId) (c : Connection) : Prop :=
  h.registry.lookup user target = some j ∧ h.connection? j = some c ∧ c.verdict = .queued

/-- The message is added to one queue, and counted. -/
theorem forward_of_reaches {c : Connection} (reached : h.Reaches user target j c) (m : Message) :
    h.forward user target m = ((h.send j (.message m)).countForward, true) ∧
      ∀ i, (h.send j (.message m)).connection? i =
        if i = j then some { c with queue := c.queue ++ [.message m] } else h.connection? i := by
  obtain ⟨stored, found, open_⟩ := reached
  refine ⟨?_, fun i => ?_⟩
  · rw [forward_of_stored stored, if_pos ((verdict_of_found found).trans open_)]
  · rw [connection?_send]
    by_cases own : i = j
    · subst own
      simp [found, Connection.offer_of_queued open_]
    · simp [own, Ne.symm own]

/-- A message that reaches no queue is counted as a miss, as dropped or not at all. -/
theorem Consistent.forward_of_unreached (valid : Consistent h)
    (unreached : ∀ j c, ¬ h.Reaches user target j c) (m : Message) :
    h.forward user target m = (h.countMiss, false) ∨ h.forward user target m = (h.countDrop, false) ∨
      h.forward user target m = (h, false) := by
  cases stored : h.registry.lookup user target with
  | none => exact .inl (forward_of_missing stored m)
  | some j =>
    obtain ⟨c, found, -, -⟩ := valid.keyed _ _ _ stored
    have refused : h.verdict j ≠ .queued := fun open_ =>
      unreached j c ⟨stored, found, (verdict_of_found found).symm.trans open_⟩
    rw [forward_of_stored stored, if_neg refused]
    split
    · exact .inr (.inl rfl)
    · exact .inr (.inr rfl)

theorem Consistent.forward_snd_iff (valid : Consistent h) (user target : Uuid) (m : Message) :
    (h.forward user target m).2 = true ↔ ∃ j c, h.Reaches user target j c := by
  constructor
  · intro queued
    apply Classical.byContradiction
    intro none
    have unreached (j : ConnId) (c : Connection) : ¬ h.Reaches user target j c :=
      fun reached => none ⟨j, c, reached⟩
    rcases valid.forward_of_unreached unreached m with made | made | made <;>
      simp [made] at queued
  · rintro ⟨j, c, reached⟩
    rw [(forward_of_reaches reached m).1]

/-- A broadcast adds its message once to the queue of each of the user's devices, but for an excluded
one, that is open, read and has room. It tells how many these are, counts a drop for each full queue,
and does nothing else, in whatever order the devices are gone through. A message that is forwarded is
added once to the queue of the one device or to none: which it is, is told to the caller, and only the
counters tell why. -/
theorem delivery_exact (reports : Bool) (steps : List Step) (user : Uuid) (m : Message) :
    let h := (new reports).run steps
    (∀ exclude : Option Uuid,
      let k := (h.broadcast user exclude m).1
      let takers := h.met user exclude .queued
      let crowded := h.met user exclude .full
      (takers.Nodup ∧ ∀ j, j ∈ takers ↔ ∃ device c, exclude ≠ some device ∧
        h.registry.lookup user device = some j ∧ h.connection? j = some c ∧
        c.senderOpen = true ∧ c.receiverOpen = true ∧ c.queue.length < c.capacity) ∧
      (crowded.Nodup ∧ ∀ j, j ∈ crowded ↔ ∃ device c, exclude ≠ some device ∧
        h.registry.lookup user device = some j ∧ h.connection? j = some c ∧
        c.senderOpen = true ∧ c.receiverOpen = true ∧ c.capacity ≤ c.queue.length) ∧
      (h.broadcast user exclude m).2 = takers.length ∧
      (∀ j, k.connection? j = (h.connection? j).map fun c =>
        { c with queue := c.queue ++ if j ∈ takers then [.message m] else [] }) ∧
      k = { h with
        connections := k.connections
        counters := { h.counters with
          dropped := h.counters.dropped + .ofNat crowded.length } } ∧
      ∀ t : Table Uuid ConnId, t.Perm (h.registry.devices user) →
        h.deliverAll (audienceOf t exclude) m = h.broadcast user exclude m) ∧
    ∀ target,
      let k := (h.forward user target m).1
      let queued := (h.forward user target m).2
      (queued = true ↔ ∃ j c, h.registry.lookup user target = some j ∧
        h.connection? j = some c ∧
        k.connection? j = some { c with queue := c.queue ++ [.message m] }) ∧
      (queued = true →
        (∀ i, h.registry.lookup user target ≠ some i → k.connection? i = h.connection? i) ∧
        k = { h with
          connections := k.connections
          counters := { h.counters with forwarded := h.counters.forwarded + 1 } }) ∧
      (queued = false → k = { h with
        counters := h.counters.afterCall ((h.registry.lookup user target).map h.verdict) }) := by
  intro h
  have valid : Consistent h := consistent_run reports steps
  refine ⟨fun exclude => ?_, fun target => ?_⟩
  · intro k takers crowded
    have made := valid.broadcast_eq user exclude m
    have after : k = h.told (h.audience user exclude) m := congrArg Prod.fst made
    refine ⟨⟨valid.nodup_met _ _ _, fun j => ?_⟩, ⟨valid.nodup_met _ _ _, fun j => ?_⟩,
      congrArg Prod.snd made, fun j => ?_, ?_, fun t same => valid.broadcast_of_perm same exclude m⟩
    · simp only [takers, valid.mem_met_iff, Connection.verdict_eq_queued_iff]
    · simp only [crowded, valid.mem_met_iff, Connection.verdict_eq_full_iff_no_room]
    · rw [after]
      exact connection?_told_audience h user exclude m j
    · rw [after, told]
      simp only [crowded, met, List.countP_eq_length_filter]
  · intro k queued
    have reaches : queued = true ↔ ∃ j c, h.Reaches user target j c :=
      valid.forward_snd_iff user target m
    refine ⟨?_, fun yes => ?_, fun no => ?_⟩
    · rw [reaches]
      constructor
      · rintro ⟨j, c, reached⟩
        obtain ⟨made, queues⟩ := forward_of_reaches reached m
        refine ⟨j, c, reached.1, reached.2.1, ?_⟩
        have after : k = (h.send j (.message m)).countForward := congrArg Prod.fst made
        rw [after]
        exact (queues j).trans (if_pos rfl)
      · rintro ⟨j, c, stored, found, added⟩
        -- a message that reaches nobody is added to no queue
        apply Classical.byContradiction
        intro none
        have kept : k.connection? j = h.connection? j := by
          rcases valid.forward_of_unreached (fun j c reached => none ⟨j, c, reached⟩) m with
            made | made | made <;> simp only [k, made] <;> rfl
        rw [kept, found] at added
        simpa using congrArg Connection.queue (Option.some.inj added)
    · obtain ⟨j, c, reached⟩ := reaches.mp yes
      obtain ⟨made, queues⟩ := forward_of_reaches reached m
      have after : k = (h.send j (.message m)).countForward := congrArg Prod.fst made
      rw [after]
      refine ⟨fun i other => (queues i).trans (if_neg ?_), rfl⟩
      rintro rfl
      exact other reached.1
    · have unreached (j : ConnId) (c : Connection) : ¬ h.Reaches user target j c :=
        fun reached => by simp [reaches.mpr ⟨j, c, reached⟩] at no
      have counted : k.counters = _ := counters_forward h user target m
      rw [← counted]
      rcases valid.forward_of_unreached unreached m with made | made | made <;>
        simp only [k, made] <;> rfl

/-- A phone takes a message; the queue of the laptop is full, and that of the tablet is closed. -/
theorem delivery_exact_three :
    let user := Uuid.repeated 0
    let connect (digit : Fin 16) := Step.connect user (.repeated digit) (.plain (.repeated digit) "")
    let h := (new false).run [connect 1 4, connect 2 1, connect 3 4, .register 0, .register 1,
      .register 2, .close 2]
    let m := Message.streamEnd user
    (h.broadcast user none m).2 = 1 ∧
      (h.broadcast user none m).1.counters = { h.counters with dropped := 2 } ∧
      ((h.broadcast user none m).1.connection? 0).map (fun c => c.queue.drop 3) =
        some [.message m] ∧
      h.deliverAll [2, 0, 1] m = h.broadcast user none m ∧
      (h.forward user (.repeated 1) m).1.counters = { h.counters with forwarded := 1 } ∧
      (h.forward user (.repeated 2) m).1.counters = { h.counters with dropped := 2 } := by
  intro user connect h m
  obtain ⟨every, one⟩ := delivery_exact false
    [connect 1 4, connect 2 1, connect 3 4, .register 0, .register 1, .register 2, .close 2] user m
  obtain ⟨-, -, count, queues, frame, order⟩ := every none
  obtain ⟨-, sent, -⟩ := one (.repeated 1)
  obtain ⟨-, -, missed⟩ := one (.repeated 2)
  refine ⟨count.trans (by decide +kernel), ?_, ?_,
    order [(.repeated 3, 2), (.repeated 1, 0), (.repeated 2, 1)] (by decide +kernel), ?_, ?_⟩
  · have after : (h.broadcast user none m).1 = _ := frame
    rw [after]
    decide +kernel
  · have taken := congrArg (Option.map fun c => c.queue.drop 3) (queues 0)
    refine taken.trans ?_
    decide +kernel
  · have after : (h.forward user (.repeated 1) m).1 = _ := (sent (by decide +kernel)).2
    rw [after]
    decide +kernel
  · have after : (h.forward user (.repeated 2) m).1 = _ := missed (by decide +kernel)
    rw [after]
    decide +kernel

end Hub
end SignalHub
