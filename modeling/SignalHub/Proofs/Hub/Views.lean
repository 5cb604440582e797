import Mathlib.Algebra.BigOperators.Group.Finset.Basic
import SignalHub.Proofs.Device.Listing
import SignalHub.Proofs.Hub.Registry

/-! All questions that can be asked about who is online have the same answer behind them: the table
of a user's devices. The views read it in different ways and agree in every state that a run can
reach. -/
namespace SignalHub.Hub

open Device (Info)

variable {h k : Hub}

/-- Each registered connection describes the device that it is registered for. -/
def Named (h : Hub) : Prop :=
  ∀ id ∈ h.registry.connections, ∀ c, h.connection? id = some c → c.info.id = c.device

/-- What the connections of a table say of their devices, in the order of the table. -/
def infosOf (h : Hub) (t : Table Uuid ConnId) : List Info :=
  t.filterMap fun p => (h.connection? p.2).map Connection.info

theorem onlineDevices_eq (h : Hub) (user : Uuid) :
    h.onlineDevices user = Info.listed (h.infosOf (h.registry.devices user)) := rfl

theorem Consistent.info_of_mem (valid : Consistent h) {user : Uuid} {p : Uuid × ConnId}
    (entry : p ∈ h.registry.devices user) :
    ∃ c, h.connection? p.2 = some c ∧ c.user = user ∧ c.device = p.1 ∧
      p.2 ∈ h.registry.connections := by
  have stored := (valid.lookup_iff user p).mp entry
  obtain ⟨c, found, own, device⟩ := valid.keyed _ _ _ stored
  exact ⟨c, found, own, device, Registry.mem_connections_of_lookup stored⟩

theorem infosOf_map {t : Table Uuid ConnId} {α : Type} (f : Info → α) (g : Uuid × ConnId → α)
    (agree : ∀ p ∈ t, ∃ c, h.connection? p.2 = some c ∧ f c.info = g p) :
    (h.infosOf t).map f = t.map g := by
  induction t with
  | nil => rfl
  | cons p rest ih =>
    obtain ⟨c, found, same⟩ := agree p List.mem_cons_self
    have tail := ih fun q member => agree q (List.mem_cons_of_mem p member)
    unfold infosOf at *
    simp [found, same, tail]

theorem Consistent.ids_infosOf (valid : Consistent h) (named : Named h) (user : Uuid) :
    (h.infosOf (h.registry.devices user)).map Info.id = (h.registry.devices user).map Prod.fst := by
  apply infosOf_map
  intro p entry
  obtain ⟨c, found, -, device, registered⟩ := valid.info_of_mem entry
  exact ⟨c, found, (named p.2 registered c found).trans device⟩

theorem Consistent.nodup_ids_infosOf (valid : Consistent h) (named : Named h) (user : Uuid) :
    ((h.infosOf (h.registry.devices user)).map Info.id).Nodup := by
  rw [valid.ids_infosOf named]
  exact valid.devices user

theorem Consistent.length_onlineDevices (valid : Consistent h) (user : Uuid) :
    (h.onlineDevices user).length = (h.registry.devices user).length := by
  have counted : (h.infosOf (h.registry.devices user)).map (fun _ => ()) =
      (h.registry.devices user).map fun _ => () := by
    apply infosOf_map
    intro p entry
    obtain ⟨c, found, -⟩ := valid.info_of_mem entry
    exact ⟨c, found, rfl⟩
  rw [onlineDevices_eq, (Info.listed_perm _).length_eq]
  simpa using congrArg List.length counted

theorem Consistent.ids_online_perm (valid : Consistent h) (named : Named h) (user : Uuid) :
    ((h.onlineDevices user).map Info.id).Perm ((h.registry.devices user).map Prod.fst) := by
  rw [← valid.ids_infosOf named user, onlineDevices_eq]
  exact (Info.listed_perm _).map Info.id

theorem isOnline_iff (h : Hub) (user device : Uuid) :
    h.isOnline user device = true ↔ device ∈ (h.registry.devices user).map Prod.fst := by
  have absent := Table.get?_eq_none_iff device (h.registry.devices user)
  rw [isOnline, Registry.lookup, Option.isSome_iff_ne_none, ne_eq, absent, not_not]

theorem Consistent.hasIdentity_iff (valid : Consistent h) (user : Uuid) :
    h.hasIdentity user = true ↔ h.registry.devices user ≠ [] := by
  have inhabited := valid.inhabited user
  unfold hasIdentity Registry.devices
  cases found : h.registry.get? user with
  | none => simp
  | some t =>
    rw [found] at inhabited
    simpa using fun empty => inhabited (congrArg some empty)

theorem Consistent.online_ne_nil_iff (valid : Consistent h) (user : Uuid) :
    h.onlineDevices user ≠ [] ↔ h.registry.devices user ≠ [] := by
  rw [← List.length_pos_iff, ← List.length_pos_iff, valid.length_onlineDevices]

theorem devices_ne_nil_iff (h : Hub) (user : Uuid) :
    h.registry.devices user ≠ [] ↔ ∃ device, h.isOnline user device = true := by
  simp only [isOnline_iff]
  constructor
  · intro some
    obtain ⟨p, entry⟩ := List.exists_mem_of_ne_nil _ some
    exact ⟨p.1, List.mem_map.mpr ⟨p, entry, rfl⟩⟩
  · rintro ⟨device, member⟩ none
    simp [none] at member

theorem Consistent.nodup_ids_online (valid : Consistent h) (named : Named h) (user : Uuid) :
    ((h.onlineDevices user).map Info.id).Nodup :=
  (valid.ids_online_perm named user).nodup_iff.mpr (valid.devices user)

theorem Consistent.ordered_online (valid : Consistent h) (named : Named h) (user : Uuid) :
    (h.onlineDevices user).Pairwise fun a b => a.before b = true := by
  rw [onlineDevices_eq]
  exact Info.listed_ordered (valid.nodup_ids_infosOf named user)

/-- The listing does not show in which order the table holds the devices. -/
theorem Consistent.listed_of_perm (valid : Consistent h) (named : Named h) {user : Uuid}
    {t : Table Uuid ConnId} (same : t.Perm (h.registry.devices user)) :
    Info.listed (h.infosOf t) = h.onlineDevices user := by
  rw [onlineDevices_eq]
  exact (Info.listed_eq_of_perm (same.symm.filterMap _) (valid.nodup_ids_infosOf named user)).symm

theorem Consistent.connectionCount_eq_sum (valid : Consistent h) (users : Finset Uuid)
    (all : ∀ user, h.hasIdentity user = true → user ∈ users) :
    h.connectionCount = ∑ user ∈ users, (h.onlineDevices user).length := by
  have known : (h.registry.map Prod.fst).toFinset ⊆ users := by
    intro user member
    obtain ⟨⟨u, t⟩, stored, rfl⟩ := List.mem_map.mp (List.mem_toFinset.mp member)
    apply all
    simp [hasIdentity, Table.get?_of_mem valid.users stored]
  have strangers (user : Uuid) (_ : user ∈ users)
      (absent : user ∉ (h.registry.map Prod.fst).toFinset) : (h.onlineDevices user).length = 0 := by
    rw [List.mem_toFinset, ← Table.get?_eq_none_iff] at absent
    simp [valid.length_onlineDevices, Registry.devices, absent]
  calc h.connectionCount
      = (h.registry.map fun p => p.2.length).sum := by simp [connectionCount, List.length_flatMap]
    _ = ((h.registry.map Prod.fst).map fun user => (h.onlineDevices user).length).sum := by
        rw [List.map_map]
        congr 1
        apply List.map_congr_left
        rintro ⟨user, t⟩ stored
        simp [valid.length_onlineDevices, valid.devices_eq stored]
    _ = ∑ user ∈ (h.registry.map Prod.fst).toFinset, (h.onlineDevices user).length :=
        (List.sum_toFinset _ valid.users).symm
    _ = ∑ user ∈ users, (h.onlineDevices user).length := Finset.sum_subset known strangers

/-- A user's entry in the registry, in its order: each device, and what its connection says of it. -/
def entry (h : Hub) (user : Uuid) : Table Uuid (Option Info) :=
  (h.registry.devices user).map fun p => (p.1, (h.connection? p.2).map Connection.info)

theorem filterMap_entry (h : Hub) (user : Uuid) :
    (h.entry user).filterMap Prod.snd = h.infosOf (h.registry.devices user) := by
  rw [entry, List.filterMap_map]
  rfl

theorem onlineDevices_eq_listed (h : Hub) (user : Uuid) :
    h.onlineDevices user = Info.listed ((h.entry user).filterMap Prod.snd) := by
  rw [filterMap_entry, onlineDevices_eq]

theorem isOnline_iff_mem_entry (h : Hub) (user device : Uuid) :
    h.isOnline user device = true ↔ device ∈ (h.entry user).map Prod.fst := by
  rw [isOnline_iff, entry, List.map_map]
  rfl

theorem isOnline_of_perm {user : Uuid} (same : (h.entry user).Perm (k.entry user)) (device : Uuid) :
    h.isOnline user device = k.isOnline user device := by
  rw [Bool.eq_iff_iff, isOnline_iff_mem_entry, isOnline_iff_mem_entry, (same.map Prod.fst).mem_iff]

theorem Consistent.onlineDevices_of_perm (valid : Consistent h) (named : Named h) {user : Uuid}
    (same : (h.entry user).Perm (k.entry user)) : h.onlineDevices user = k.onlineDevices user := by
  have distinct := valid.nodup_ids_infosOf named user
  rw [← filterMap_entry] at distinct
  rw [onlineDevices_eq_listed, onlineDevices_eq_listed]
  exact Info.listed_eq_of_perm (same.filterMap Prod.snd) distinct

theorem Consistent.infosOf_of_ages (valid : Consistent h) (aged : Ages h k) (user : Uuid) :
    k.infosOf (h.registry.devices user) = h.infosOf (h.registry.devices user) := by
  apply List.filterMap_congr
  intro p entry
  obtain ⟨c, found, -⟩ := valid.info_of_mem entry
  obtain ⟨c', found', later⟩ := aged p.2 c found
  simp [found, found', later.info]

theorem Consistent.onlineDevices_step (valid : Consistent h) (s : Step) (user : Uuid) :
    (h.step s).onlineDevices user = (h.arrange s).onlineDevices user := by
  rw [onlineDevices_eq, onlineDevices_eq, registry_step,
    (valid.arrange s).infosOf_of_ages (ages_arrange_step h s)]

theorem Consistent.onlineDevices_register (valid : Consistent h) {id : ConnId} {c : Connection}
    (found : h.connection? id = some c) (user : Uuid) :
    (h.register id).onlineDevices user = (h.enroll id c).onlineDevices user := by
  have after := valid.onlineDevices_step (.register id) user
  simpa [Hub.step, Hub.arrange, arrangeRegister, found] using after

/-- What a registration offers is one list, to the newcomer, and news of the newcomer to others. -/
theorem Consistent.registerOffers_eq (valid : Consistent h) {id : ConnId} {c : Connection}
    (found : h.connection? id = some c) :
    h.registerOffers id = (id, .message (.deviceList ((h.register id).onlineDevices c.user))) ::
      Offers.ofMessage ((h.enroll id c).audience c.user (some c.device))
        (.deviceOnline c.info) := by
  rw [valid.onlineDevices_register found]
  simp [registerOffers, found, broadcastOffers]

theorem Consistent.newcomer_not_mem_audience (valid : Consistent h) {id : ConnId} {c : Connection}
    (found : h.connection? id = some c) :
    id ∉ (h.enroll id c).audience c.user (some c.device) := by
  intro member
  have after := valid.enroll found
  obtain ⟨device, apart, stored⟩ := (after.mem_audience_iff _ _ _).mp member
  obtain ⟨x, foundX, -, rfl⟩ := after.keyed _ _ _ stored
  obtain ⟨y, foundY, aged⟩ := ages_enroll h id c id c found
  obtain rfl := Option.some.inj (foundX.symm.trans foundY)
  exact apart (congrArg some aged.device.symm)

/-- The newcomer takes offers as before, unless it was itself the registered connection, whose queue
is closed first. -/
theorem newcomer_enroll {id : ConnId} {c : Connection} (found : h.connection? id = some c) :
    ∃ x, (h.enroll id c).connection? id = some x ∧ x.queue = c.queue ∧
      x.verdict = if h.registry.lookup c.user c.device = some id then .closed else c.verdict := by
  have arranged := connection?_enroll h id id c
  rw [found] at arranged
  by_cases current : h.registry.lookup c.user c.device = some id
  · exact ⟨c.close.markRegistered, by simpa [current] using arranged, by simp, by simp [current]⟩
  · exact ⟨c.markRegistered, by simpa [current] using arranged, by simp, by simp [current]⟩

/-- The newcomer's queue takes the list if it is open and has room. -/
theorem Consistent.queue_register (valid : Consistent h) {id : ConnId} {c : Connection}
    (found : h.connection? id = some c) :
    ∃ c', (h.register id).connection? id = some c' ∧ c'.queue = c.queue ++
      if h.registry.lookup c.user c.device ≠ some id ∧ c.verdict = .queued then
        [.message (.deviceList ((h.register id).onlineDevices c.user))] else [] := by
  obtain ⟨x, foundX, queue, verdict⟩ := newcomer_enroll found
  have others (k : Hub) : accepted id (k.trials (Offers.ofMessage
      ((h.enroll id c).audience c.user (some c.device)) (.deviceOnline c.info))) = [] := by
    apply accepted_of_not_mem
    simpa [Offers.ofMessage, Function.comp_def] using valid.newcomer_not_mem_audience found
  have after := connection?_step h (.register id) id
  simp only [Hub.step, Hub.arrange, arrangeRegister, Hub.offers, found,
    valid.registerOffers_eq found] at after
  rw [connection?_sendAll, foundX, Option.map_some, trials, Hub.verdict, foundX] at after
  refine ⟨_, after, ?_⟩
  dsimp only
  rw [queue, verdict]
  congr 1
  simp only [accepted] at others
  by_cases current : h.registry.lookup c.user c.device = some id
  · simp [accepted, current, others]
  · cases taken : c.verdict <;> simp [accepted, current, others]

/-- Nobody else is offered a list. -/
theorem Consistent.list_offered (valid : Consistent h) {id : ConnId} {c : Connection}
    (found : h.connection? id = some c) {a : Attempt} (attempted : a ∈ h.attempts (.register id))
    {devices : List Info} (list : a.item = .message (.deviceList devices)) :
    a.conn = id ∧ devices = (h.register id).onlineDevices c.user := by
  have offered := mem_trials attempted
  rw [list, Hub.offers, valid.registerOffers_eq found] at offered
  rcases List.mem_cons.mp offered with mine | other
  · simpa using mine
  · obtain ⟨j, -, told⟩ := List.mem_map.mp other
    simp at told

/-- Every connection is stored under its own user and device, and no user without devices. So all
questions about who is online agree with each other, as long as the devices are described under
their own identifiers, and a newcomer is sent what they answer. -/
theorem views_agree (reports : Bool) (steps : List Step) :
    let h := (new reports).run steps
    ((h.registry.map Prod.fst).Nodup ∧ ∀ user t, (user, t) ∈ h.registry →
      t ≠ [] ∧ (t.map Prod.fst).Nodup ∧ ∀ device id, (device, id) ∈ t →
        ∃ c, h.connection? id = some c ∧ c.user = user ∧ c.device = device) ∧
    (Named h → ∀ user,
      (h.hasIdentity user = true ↔ h.onlineDevices user ≠ []) ∧
      (h.onlineDevices user ≠ [] ↔ ∃ device, h.isOnline user device = true) ∧
      (∀ device, device ∈ (h.onlineDevices user).map Info.id ↔ h.isOnline user device = true) ∧
      ((h.onlineDevices user).map Info.id).Nodup ∧
      (h.onlineDevices user).Pairwise (fun a b => a.before b = true) ∧
      ∀ t : Table Uuid ConnId, t.Perm (h.registry.devices user) →
        Info.listed (h.infosOf t) = h.onlineDevices user) ∧
    (∀ users : Finset Uuid, (∀ user, h.hasIdentity user = true → user ∈ users) →
      h.connectionCount = ∑ user ∈ users, (h.onlineDevices user).length) ∧
    ∀ id c, h.connection? id = some c →
      (∃ c', (h.register id).connection? id = some c' ∧ c'.queue = c.queue ++
        if h.registry.lookup c.user c.device ≠ some id ∧ c.verdict = .queued then
          [.message (.deviceList ((h.register id).onlineDevices c.user))] else []) ∧
      ∀ a ∈ h.attempts (.register id), ∀ devices, a.item = .message (.deviceList devices) →
        a.conn = id ∧ devices = (h.register id).onlineDevices c.user := by
  intro h
  have valid : Consistent h := consistent_run reports steps
  refine ⟨⟨valid.users, ?_⟩, ?_, valid.connectionCount_eq_sum, ?_⟩
  · intro user t member
    have devices := valid.devices_eq member
    refine ⟨?_, devices ▸ valid.devices user, ?_⟩
    · rintro rfl
      exact valid.inhabited user (Table.get?_of_mem valid.users member)
    · intro device id entry
      exact valid.keyed user device id (valid.lookup_of_mem member entry)
  · intro named user
    refine ⟨?_, ?_, ?_, valid.nodup_ids_online named user, valid.ordered_online named user, ?_⟩
    · rw [valid.hasIdentity_iff, valid.online_ne_nil_iff]
    · rw [valid.online_ne_nil_iff, devices_ne_nil_iff]
    · intro device
      rw [isOnline_iff, (valid.ids_online_perm named user).mem_iff]
    · intro t same
      exact valid.listed_of_perm named same
  · intro id c found
    refine ⟨valid.queue_register found, ?_⟩
    intro a attempted devices list
    exact valid.list_offered found attempted list

/-- Two devices with one name are listed by their identifiers, whichever came first. -/
theorem views_agree_two_devices :
    let user := Uuid.repeated 0
    let first := Info.plain (.repeated 1) "phone"
    let second := Info.plain (.repeated 2) "phone"
    let h := (new false).run [.connect user second.id second 4, .connect user first.id first 4,
      .register 0, .register 1]
    Named h ∧ h.hasIdentity user = true ∧ (h.onlineDevices user ≠ [] ∧
      Info.listed (h.infosOf [(first.id, 1), (second.id, 0)]) = h.onlineDevices user) := by
  intro user first second h
  have agree := views_agree false [.connect user second.id second 4,
    .connect user first.id first 4, .register 0, .register 1]
  have named : Named h := by
    have all : ∀ id ∈ h.registry.connections,
        (h.connection? id).all (fun c => c.info.id == c.device) = true := by decide +kernel
    intro id member c found
    simpa [found] using all id member
  have identity : h.hasIdentity user = true := by decide +kernel
  obtain ⟨nonempty, -, -, -, -, anyOrder⟩ := agree.2.1 named user
  refine ⟨named, identity, nonempty.mp identity, anyOrder _ ?_⟩
  have table : h.registry.devices user = [(second.id, 0), (first.id, 1)] := by decide +kernel
  rw [table]
  exact List.Perm.swap _ _ []

end SignalHub.Hub
