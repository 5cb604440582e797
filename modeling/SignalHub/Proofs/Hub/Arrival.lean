import SignalHub.Proofs.Hub.Counting
import SignalHub.Proofs.Hub.News
import SignalHub.Proofs.Hub.Views

/-! A connection that registers for the first time takes the place of the one that was registered
for its device, and that one is closed. It is told once who is online now, every sibling is told
once about it, and nothing else changes of any connection (`register_exact`). -/
namespace SignalHub

namespace Table

variable {κ α : Type} [DecidableEq κ] {key : κ} {others : κ × α → Bool}

/-- What is put under a key leaves everything under other keys as it was. -/
theorem filter_put (value : α) (apart : ∀ p, others p = true ↔ p.1 ≠ key) (t : Table κ α) :
    (put key value t).filter others = t.filter others := by
  have mine (a : α) : others (key, a) = false := by simpa using (apart (key, a)).not.mpr (by simp)
  induction t with
  | nil => simp [put, mine]
  | cons p rest ih =>
    obtain ⟨k, a⟩ := p
    by_cases same : k = key
    · subst same
      simp [put, mine]
    · rw [put, if_neg same, List.filter_cons, List.filter_cons, ih]

theorem put_perm (value : α) (apart : ∀ p, others p = true ↔ p.1 ≠ key) {t : Table κ α}
    (distinct : (t.map Prod.fst).Nodup) :
    (put key value t).Perm ((key, value) :: t.filter others) := by
  induction t with
  | nil => exact .refl _
  | cons p rest ih =>
    obtain ⟨k, a⟩ := p
    obtain ⟨new, distinct⟩ := List.nodup_cons.mp distinct
    by_cases same : k = key
    · subst same
      have mine : others (k, a) = false := by simpa using (apart (k, a)).not.mpr (by simp)
      have all : rest.filter others = rest := by
        apply List.filter_eq_self.mpr
        intro q member
        exact (apart q).mpr fun same => new (List.mem_map.mpr ⟨q, member, same⟩)
      simp [put, mine, all]
    · have other : others (k, a) = true := (apart (k, a)).mpr same
      rw [put, if_neg same, List.filter_cons_of_pos other]
      exact ((ih distinct).cons (k, a)).trans (.swap _ _ _)

end Table

theorem Counters.eq_of_get {a b : Counters} (same : ∀ e, a.get e = b.get e) : a = b := by
  obtain ⟨_, _, _, _, _, _⟩ := a
  obtain ⟨_, _, _, _, _, _⟩ := b
  simp only [Counters.mk.injEq]
  exact ⟨same .registered, same .superseded, same .unregistered, same .forwarded, same .misses,
    same .dropped⟩

namespace Connection

variable {c : Connection}

theorem offer_eq (c : Connection) (o : Outbound) :
    c.offer o = { c with queue := c.queue ++
      if c.senderOpen ∧ c.receiverOpen ∧ c.queue.length < c.capacity then [o] else [] } := by
  obtain ⟨_, _, _, _, sender, receiver, capacity, queue⟩ := c
  cases sender <;> cases receiver <;> by_cases room : queue.length < capacity <;>
    simp [offer, verdict, room]

theorem offer_of_queued (open_ : c.verdict = .queued) (o : Outbound) :
    c.offer o = { c with queue := c.queue ++ [o] } := by
  simp [offer, open_]

theorem markRegistered_of_connecting (early : c.phase = .connecting) :
    c.markRegistered = { c with phase := .registered } := by
  simp [markRegistered, early]

end Connection

namespace Hub

open Device (Info)

variable {h : Hub} {id j : ConnId} {c : Connection}

theorem verdict_send_of_other (h : Hub) {id j : ConnId} (apart : id ≠ j) (o : Outbound) :
    (h.send id o).verdict j = h.verdict j := by
  rw [verdict, connection?_send, if_neg apart, verdict]

/-- Offers that go to different connections do not come in each other's way. -/
theorem trials_of_nodup (h : Hub) {offers : Offers} (distinct : (offers.map Prod.fst).Nodup) :
    h.trials offers = offers.map fun p => ⟨p.1, p.2, h.verdict p.1⟩ := by
  induction offers generalizing h with
  | nil => rfl
  | cons p rest ih =>
    obtain ⟨new, distinct⟩ := List.nodup_cons.mp distinct
    rw [trials, ih _ distinct, List.map_cons]
    congr 1
    apply List.map_congr_left
    intro q member
    have apart : p.1 ≠ q.1 := fun same => new (List.mem_map.mpr ⟨q, member, same.symm⟩)
    rw [verdict_send_of_other h apart]

theorem connection?_sendAll_of_not_mem (h : Hub) {offers : Offers}
    (untouched : j ∉ offers.map Prod.fst) : (h.sendAll offers).connection? j = h.connection? j := by
  rw [connection?_sendAll, accepted_of_not_mem h offers j untouched]
  simp

theorem connection?_sendAll_of_mem (h : Hub) {offers : Offers} {o : Outbound}
    (distinct : (offers.map Prod.fst).Nodup) (member : (j, o) ∈ offers) :
    (h.sendAll offers).connection? j = (h.connection? j).map (·.offer o) := by
  induction offers generalizing h with
  | nil => simp at member
  | cons p rest ih =>
    obtain ⟨new, distinct⟩ := List.nodup_cons.mp distinct
    change ((h.send p.1 p.2).sendAll rest).connection? j = _
    rcases List.mem_cons.mp member with rfl | later
    · rw [connection?_sendAll_of_not_mem _ new, connection?_send, if_pos rfl]
    · have apart : p.1 ≠ j := fun same => new (List.mem_map.mpr ⟨_, later, same.symm⟩)
      rw [ih _ distinct later, connection?_send, if_neg apart]

/-- There is room for one message at least in every queue. -/
def Roomy (h : Hub) : Prop := ∀ id c, h.connection? id = some c → 1 ≤ c.capacity

theorem Roomy.step (room : Roomy h) (s : Step) : Roomy (h.step s) := by
  intro id c found
  rcases connection_of_step found with ⟨x, before, aged⟩ | ⟨-, created⟩
  · exact aged.capacity ▸ room id x before
  · cases s with
    | connect =>
      rw [List.mem_singleton.mp created]
      exact Nat.le_max_right _ _
    | _ => cases created

theorem roomy_run (reports : Bool) (steps : List Step) : Roomy ((new reports).run steps) := by
  have all (h : Hub) (room : Roomy h) : Roomy (h.run steps) := by
    induction steps generalizing h with
    | nil => exact room
    | cons s rest ih => exact ih (h.step s) (room.step s)
  exact all (new reports) fun _ _ found => by cases found

theorem Held.absent {history : List ConnId} (held : Held history h) (valid : Consistent h)
    (unregistered : id ∉ history) : id ∉ h.registry.connections := by
  intro member
  obtain ⟨c, -, stored⟩ := (valid.mem_connections_iff id).mp member
  have newest := List.mem_of_getLast? (held.newest _ _ _ stored)
  exact unregistered (List.mem_filter.mp newest).1

/-- An open connection that was never registered is still connecting. -/
theorem Living.connecting {history : List ConnId} (living : Living history h)
    (found : h.connection? id = some c) (sender : c.senderOpen = true)
    (unregistered : id ∉ history) : c.phase = .connecting := by
  have coupled : c.senderOpen = !c.phase.isClosing := living.coupled id c found
  have early := living.registered id c found
  cases phase : c.phase <;> simp_all [Phase.isClosing]

theorem enroll_frame (h : Hub) (id : ConnId) (c : Connection) :
    (h.enroll id c).stopping = h.stopping ∧ (h.enroll id c).alive = h.alive := by
  unfold enroll supersede
  split <;> exact ⟨rfl, rfl⟩

theorem audience_enroll (h : Hub) (id : ConnId) (c : Connection) :
    (h.enroll id c).audience c.user (some c.device) = h.audience c.user (some c.device) := by
  unfold audience
  rw [registry_enroll, Registry.devices_enroll, if_pos rfl, Table.filter_put]
  intro p
  simpa using ne_comm

theorem apart_of_absent (absent : id ∉ h.registry.connections) {user device : Uuid}
    (stored : h.registry.lookup user device = some j) : j ≠ id := by
  rintro rfl
  exact absent (Registry.mem_connections_of_lookup stored)

/-- A sibling is neither the newcomer nor the connection that it replaces. -/
theorem Consistent.of_sibling (valid : Consistent h) (absent : id ∉ h.registry.connections)
    (sibling : j ∈ h.audience c.user (some c.device)) :
    j ≠ id ∧ h.registry.lookup c.user c.device ≠ some j ∧ ∃ x, h.connection? j = some x := by
  obtain ⟨device, other, stored⟩ := (valid.mem_audience_iff _ _ _).mp sibling
  obtain ⟨x, found, -, rfl⟩ := valid.keyed _ _ _ stored
  refine ⟨apart_of_absent absent stored, fun replaced => other ?_, x, found⟩
  obtain ⟨y, foundY, -, device⟩ := valid.keyed _ _ _ replaced
  obtain rfl := Option.some.inj (found.symm.trans foundY)
  rw [device]

theorem connection?_enroll_of_absent (absent : id ∉ h.registry.connections)
    (found : h.connection? id = some c) :
    (h.enroll id c).connection? id = some c.markRegistered := by
  have fresh : h.registry.lookup c.user c.device ≠ some id :=
    fun stored => apart_of_absent absent stored rfl
  rw [connection?_enroll, if_neg fresh, found, Option.map_some, if_pos rfl]

theorem connection?_enroll_of_other (c : Connection) (other : j ≠ id) :
    (h.enroll id c).connection? j =
      if h.registry.lookup c.user c.device = some j then (h.connection? j).map Connection.close
      else h.connection? j := by
  simp [connection?_enroll, Ne.symm other]

/-- What is offered when a connection registers: a list to itself, and news to its siblings. -/
def arrivalOffers (h : Hub) (id : ConnId) (c : Connection) : Offers :=
  (id, .message (.deviceList ((h.register id).onlineDevices c.user))) ::
    Offers.ofMessage (h.audience c.user (some c.device)) (.deviceOnline c.info)

theorem fst_arrivalOffers (h : Hub) (id : ConnId) (c : Connection) :
    (h.arrivalOffers id c).map Prod.fst = id :: h.audience c.user (some c.device) := by
  simp [arrivalOffers, Offers.ofMessage, Function.comp_def]

theorem Consistent.offers_register (valid : Consistent h) (found : h.connection? id = some c) :
    h.offers (.register id) = h.arrivalOffers id c := by
  rw [offers, valid.registerOffers_eq found, audience_enroll, arrivalOffers]

theorem Consistent.nodup_arrivalOffers (valid : Consistent h)
    (absent : id ∉ h.registry.connections) :
    ((h.arrivalOffers id c).map Prod.fst).Nodup := by
  rw [fst_arrivalOffers]
  refine List.nodup_cons.mpr ⟨fun member => ?_, valid.nodup_audience _ _⟩
  exact (valid.of_sibling absent member).1 rfl

theorem Consistent.connection?_register (valid : Consistent h) (found : h.connection? id = some c)
    (j : ConnId) : (h.register id).connection? j =
      ((h.enroll id c).sendAll (h.arrivalOffers id c)).connection? j := by
  have after := connection?_step h (.register id) j
  rw [valid.offers_register found] at after
  simpa [Hub.step, Hub.arrange, arrangeRegister, found] using after

/-- The newcomer, if its queue is empty, is left with the list in it. -/
theorem Consistent.newcomer_register (valid : Consistent h) (absent : id ∉ h.registry.connections)
    (found : h.connection? id = some c) (early : c.phase = .connecting) (empty : c.queue = [])
    (open_ : c.verdict = .queued) :
    (h.register id).connection? id = some { c with
      phase := .registered
      queue := [.message (.deviceList ((h.register id).onlineDevices c.user))] } := by
  rw [valid.connection?_register found, connection?_sendAll_of_mem _
      (valid.nodup_arrivalOffers absent) List.mem_cons_self,
    connection?_enroll_of_absent absent found, Option.map_some, Connection.offer_of_queued (by simpa using open_),
    Connection.markRegistered_of_connecting early, empty]
  rfl

theorem Consistent.sibling_register (valid : Consistent h) (absent : id ∉ h.registry.connections)
    (found : h.connection? id = some c) (sibling : j ∈ h.audience c.user (some c.device)) :
    (h.register id).connection? j =
      (h.connection? j).map (·.offer (.message (.deviceOnline c.info))) := by
  obtain ⟨other, kept, -⟩ := valid.of_sibling absent sibling
  have offered : (j, Outbound.message (.deviceOnline c.info)) ∈ h.arrivalOffers id c :=
    List.mem_cons_of_mem _ (mem_ofMessage.mpr ⟨sibling, rfl⟩)
  rw [valid.connection?_register found, connection?_sendAll_of_mem _
    (valid.nodup_arrivalOffers absent) offered, connection?_enroll_of_other c other, if_neg kept]

/-- Whoever is neither the newcomer nor a sibling is offered nothing. -/
theorem Consistent.other_register (valid : Consistent h) (found : h.connection? id = some c)
    (other : j ≠ id) (stranger : j ∉ h.audience c.user (some c.device)) :
    (h.register id).connection? j =
      if h.registry.lookup c.user c.device = some j then (h.connection? j).map Connection.close
      else h.connection? j := by
  have untouched : j ∉ (h.arrivalOffers id c).map Prod.fst := by
    rw [fst_arrivalOffers]
    exact List.not_mem_cons_of_ne_of_not_mem other stranger
  rw [valid.connection?_register found, connection?_sendAll_of_not_mem _ untouched,
    connection?_enroll_of_other c other]

/-- The newcomer gets one offer, and so does each sibling, which is as open as it was before. -/
theorem Consistent.attempts_register (valid : Consistent h) (absent : id ∉ h.registry.connections)
    (found : h.connection? id = some c) :
    h.attempts (.register id) =
      ⟨id, .message (.deviceList ((h.register id).onlineDevices c.user)), c.verdict⟩ ::
        (h.audience c.user (some c.device)).map fun j =>
          ⟨j, .message (.deviceOnline c.info), h.verdict j⟩ := by
  have arranged : h.arrange (.register id) = h.enroll id c := by
    simp [Hub.arrange, arrangeRegister, found]
  have own : (h.enroll id c).verdict id = c.verdict := by
    rw [Hub.verdict, connection?_enroll_of_absent absent found]
    exact c.verdict_markRegistered
  rw [Hub.attempts, arranged, valid.offers_register found,
    trials_of_nodup _ (valid.nodup_arrivalOffers absent), arrivalOffers, List.map_cons, own,
    Offers.ofMessage, List.map_map]
  congr 1
  apply List.map_congr_left
  intro j sibling
  obtain ⟨other, kept, -⟩ := valid.of_sibling absent sibling
  have same : (h.enroll id c).verdict j = h.verdict j := by
    rw [Hub.verdict, connection?_enroll_of_other c other, if_neg kept, Hub.verdict]
  rw [Function.comp_apply, same]

/-- The list is of the newcomer and its siblings, and not of the connection that was replaced. -/
theorem Consistent.online_register (valid : Consistent h) (absent : id ∉ h.registry.connections)
    (found : h.connection? id = some c) :
    ((h.register id).onlineDevices c.user).Perm
      (c.info :: (h.audience c.user (some c.device)).filterMap fun j =>
        (h.connection? j).map Connection.info) := by
  have devices : (h.enroll id c).registry.devices c.user =
      (h.registry.devices c.user).put c.device id := by
    rw [registry_enroll, Registry.devices_enroll, if_pos rfl]
  have put : ((h.registry.devices c.user).put c.device id).Perm ((c.device, id) ::
      (h.registry.devices c.user).filter fun p => some c.device != some p.1) :=
    Table.put_perm id (fun p => by simpa using ne_comm) (valid.devices c.user)
  have newcomer : (h.enroll id c).connection? id = some c.markRegistered :=
    connection?_enroll_of_absent absent found
  rw [valid.onlineDevices_register found, onlineDevices_eq, devices]
  refine (Info.listed_perm _).trans ((put.filterMap _).trans (.of_eq ?_))
  have info : c.markRegistered.info = c.info := c.ages_markRegistered.info
  rw [List.filterMap_cons_some (by rw [newcomer, Option.map_some, info]), audience,
    List.filterMap_map]
  congr 1
  apply List.filterMap_congr
  intro p entry
  have sibling : p.2 ∈ h.audience c.user (some c.device) := List.mem_map.mpr ⟨p, entry, rfl⟩
  obtain ⟨other, kept, -⟩ := valid.of_sibling absent sibling
  rw [connection?_enroll_of_other c other, if_neg kept, Function.comp_apply]

theorem Consistent.counters_register (valid : Consistent h) (absent : id ∉ h.registry.connections)
    (found : h.connection? id = some c) (open_ : c.verdict = .queued) :
    (h.register id).counters = { h.counters with
      registered := h.counters.registered + 1
      superseded := h.counters.superseded +
        if (h.registry.lookup c.user c.device).isSome then 1 else 0
      dropped := h.counters.dropped +
        .ofNat ((h.audience c.user (some c.device)).countP fun j => h.verdict j == .full) } := by
  have counted : Counted h (h.register id) (h.tally (.register id)) := counted_register h id
  have full : refusals (h.attempts (.register id)) =
      (h.audience c.user (some c.device)).countP fun j => h.verdict j == .full := by
    rw [valid.attempts_register absent found, open_, refusals, List.countP_cons, List.countP_map]
    rfl
  apply Counters.eq_of_get
  intro e
  rw [counted e]
  cases e with
  | superseded =>
    cases stored : h.registry.lookup c.user c.device <;>
      simp [tally, enrolls, found, superseded, stored, Counters.get]
  | dropped =>
    rw [tally, attemptsOf, if_pos (by rfl), full]
    rfl
  | registered | unregistered | forwarded | misses =>
    simp [tally, enrolls, found, withdraws, errands, Counters.get]

/-- A connection that was never registered, that is open and read, and whose queue is empty, becomes
the registered one of its device. Its queue then holds one list, of all that are registered of its
user now: itself and its siblings, as they describe themselves. Each sibling is offered news of it
once, and takes them if it is open and has room. Whoever was registered for the device is closed, and
keeps what is in its queue. Nothing else changes of any connection and of who is registered; the
counters tell of the newcomer, of the one that it replaced, and of each sibling that had no room. -/
theorem register_exact (reports : Bool) (steps : List Step) (id : ConnId) (c : Connection)
    (found : ((new reports).run steps).connection? id = some c) (sender : c.senderOpen = true)
    (receiver : c.receiverOpen = true) (empty : c.queue = [])
    (unregistered : id ∉ (new reports).registrations steps) :
    let h := (new reports).run steps
    let k := h.register id
    let old := h.registry.lookup c.user c.device
    let siblings := h.audience c.user (some c.device)
    let list := Outbound.message (.deviceList (k.onlineDevices c.user))
    let news := Outbound.message (.deviceOnline c.info)
    (∀ user device, k.registry.lookup user device =
      if user = c.user ∧ device = c.device then some id else h.registry.lookup user device) ∧
    (siblings.Nodup ∧ ∀ j, j ∈ siblings ↔
      ∃ device, device ≠ c.device ∧ h.registry.lookup c.user device = some j) ∧
    (k.onlineDevices c.user).Perm
      (c.info :: siblings.filterMap fun j => (h.connection? j).map Connection.info) ∧
    h.attempts (.register id) =
      ⟨id, list, .queued⟩ :: siblings.map (fun j => ⟨j, news, h.verdict j⟩) ∧
    k.connection? id = some { c with phase := .registered, queue := [list] } ∧
    (∀ j ∈ siblings, ∃ x, h.connection? j = some x ∧ k.connection? j = some { x with
      queue := x.queue ++
        if x.senderOpen ∧ x.receiverOpen ∧ x.queue.length < x.capacity then [news] else [] }) ∧
    (∀ j, old = some j → ∃ x, h.connection? j = some x ∧ k.connection? j = some { x with
      senderOpen := false, phase := if x.senderOpen then .closing else x.phase }) ∧
    (∀ j, j ≠ id → j ∉ siblings → old ≠ some j → k.connection? j = h.connection? j) ∧
    k.counters = { h.counters with
      registered := h.counters.registered + 1
      superseded := h.counters.superseded + if old.isSome then 1 else 0
      dropped := h.counters.dropped + .ofNat (siblings.countP fun j => h.verdict j == .full) } ∧
    k.reports = h.reports ∧ k.stopping = h.stopping ∧ k.alive = h.alive ∧
      k.pending = h.pending ++ if h.reports then [⟨c.device, true⟩] else [] := by
  intro h k old siblings list news
  have valid : Consistent h := consistent_run reports steps
  have held : Held ((new reports).registrations steps) h := held_run reports steps
  have living : Living ((new reports).registrations steps) h :=
    (living_new reports).run steps
  have absent : id ∉ h.registry.connections := held.absent valid unregistered
  have early : c.phase = .connecting := living.connecting found sender unregistered
  have open_ : c.verdict = .queued := by
    have room : 1 ≤ c.capacity := roomy_run reports steps id c found
    simp [Connection.verdict, sender, receiver, empty]
    omega
  have tried := valid.attempts_register absent found
  rw [open_] at tried
  refine ⟨?_, ⟨valid.nodup_audience _ _, fun j => ?_⟩, valid.online_register absent found, tried,
    valid.newcomer_register absent found early empty open_, fun j sibling => ?_,
    fun j replaced => ?_, fun j other stranger kept => ?_,
    valid.counters_register absent found open_, ?_⟩
  · intro user device
    have registry : k.registry = h.registry.enroll c.user c.device id := by
      rw [← registry_enroll]
      exact (registry_step h (.register id)).trans (by simp [arrange, arrangeRegister, found, h])
    rw [registry, Registry.lookup_enroll]
  · rw [valid.mem_audience_iff]
    simp [eq_comm]
  · obtain ⟨-, -, x, foundX⟩ := valid.of_sibling absent sibling
    refine ⟨x, foundX, (valid.sibling_register absent found sibling).trans ?_⟩
    rw [foundX, Option.map_some, Connection.offer_eq]
  · obtain ⟨x, foundX, -, -⟩ := valid.keyed _ _ _ replaced
    have stranger : j ∉ siblings := fun sibling => (valid.of_sibling absent sibling).2.1 replaced
    refine ⟨x, foundX,
      (valid.other_register found (apart_of_absent absent replaced) stranger).trans ?_⟩
    rw [if_pos replaced, foundX, Option.map_some, (living.coupled j x foundX).close_eq]
  · exact (valid.other_register found other stranger).trans (if_neg kept)
  · have same := register_alike h id
    rw [show h.arrangeRegister id = h.enroll id c by simp [arrangeRegister, found, h]] at same
    have reported := reported_register h id
    rw [registerNews, show h.connection? id = some c from found, Option.elim_some] at reported
    obtain ⟨stopping, alive⟩ := enroll_frame h id c
    exact ⟨reported.reports, (same.stopping.trans (stopping_sendAll _ _)).trans stopping,
      (same.alive.trans (alive_sendAll _ _)).trans alive, reported.pending⟩

/-- A phone comes back on a second connection, while the queue of the laptop is still full. -/
theorem register_exact_full :
    let user := Uuid.repeated 0
    let phone := Info.plain (.repeated 1) "phone"
    let laptop := Info.plain (.repeated 2) "laptop"
    let connect (info : Info) := Step.connect user info.id info
    let h := (new false).run
      [connect phone 4, connect phone 4, connect laptop 1, .register 0, .register 2]
    let k := h.register 1
    (∃ devices, (k.connection? 1).map Connection.queue = some [.message (.deviceList devices)] ∧
      devices.Perm [phone, laptop]) ∧
      (∃ x, h.connection? 0 = some x ∧ k.connection? 0 =
        some { x with senderOpen := false, phase := .closing }) ∧
      k.counters = ⟨3, 1, 0, 0, 0, 1⟩ := by
  intro user phone laptop connect h k
  have fresh : (h.connection? 1).map (fun c => (c, c.senderOpen, c.receiverOpen, c.queue)) =
      some (.new user phone.id phone 4, true, true, []) := by decide +kernel
  obtain ⟨c, found, same⟩ := Option.map_eq_some_iff.mp fresh
  obtain ⟨rfl, same⟩ := Prod.mk.inj same
  obtain ⟨-, -, online, -, newcomer, -, replaced, -, counters, -⟩ :=
    register_exact false _ 1 _ found rfl rfl rfl (by decide +kernel)
  obtain ⟨x, foundX, closed⟩ := replaced 0 (by decide +kernel)
  have open_ : x.senderOpen = true := by
    have was : (h.connection? 0).map Connection.senderOpen = some true := by decide +kernel
    rw [show h.connection? 0 = some x from foundX] at was
    exact Option.some.inj was
  refine ⟨⟨_, congrArg (Option.map Connection.queue) newcomer, online.trans (.of_eq ?_)⟩,
    ⟨x, foundX, ?_⟩, ?_⟩
  · decide +kernel
  · exact closed.trans (by rw [open_]; rfl)
  · exact counters.trans (by decide +kernel)

end Hub
end SignalHub
