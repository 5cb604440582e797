import SignalHub.Proofs.Hub.Registry

/-! A connection that was ever registered and still has an open queue is the one that the registry
holds for its user and device. The invariant ties the registry to the whole history of
registrations: what is stored is what was registered last, and what is open was registered once. -/
namespace SignalHub.Hub

variable {h k : Hub} {history : List ConnId}

/-- The connection belongs to this device of this user. -/
def hasKey (h : Hub) (user device : Uuid) (id : ConnId) : Bool :=
  (h.connection? id).any fun c => c.user == user && c.device == device

def isOpen (h : Hub) (id : ConnId) : Bool := (h.connection? id).any Connection.senderOpen

structure Held (history : List ConnId) (h : Hub) : Prop where
  known : ∀ id ∈ history, ∃ c, h.connection? id = some c
  registered : ∀ id ∈ history, ∀ c, h.connection? id = some c → c.senderOpen = true →
    h.registry.lookup c.user c.device = some id
  once : ∀ id c, h.connection? id = some c → c.senderOpen = true → history.count id ≤ 1
  newest : ∀ user device id, h.registry.lookup user device = some id →
    (history.filter (h.hasKey user device)).getLast? = some id

theorem hasKey_iff {id : ConnId} {c : Connection} (found : h.connection? id = some c)
    (user device : Uuid) : h.hasKey user device id = true ↔ c.user = user ∧ c.device = device := by
  simp [hasKey, found]

theorem hasKey_of_ages (aged : Ages h k) {id : ConnId} {c : Connection}
    (found : h.connection? id = some c) (user device : Uuid) :
    k.hasKey user device id = h.hasKey user device id := by
  obtain ⟨c', found', later⟩ := aged id c found
  simp [hasKey, found, found', later.user, later.device]

theorem Held.filter_hasKey (held : Held history h) (aged : Ages h k) (user device : Uuid) :
    history.filter (k.hasKey user device) = history.filter (h.hasKey user device) := by
  apply List.filter_congr
  intro id member
  obtain ⟨c, found⟩ := held.known id member
  exact hasKey_of_ages aged found user device

/-- What was open before and is known from before, by the state that it is in now. -/
theorem Held.before (held : Held history h) (aged : Ages h k) {id : ConnId}
    (member : id ∈ history) {c : Connection} (found : k.connection? id = some c)
    (sender : c.senderOpen = true) :
    ∃ x, h.connection? id = some x ∧ x.senderOpen = true ∧ x.user = c.user ∧
      x.device = c.device := by
  obtain ⟨x, foundX⟩ := held.known id member
  obtain ⟨c', found', later⟩ := aged id x foundX
  obtain rfl := Option.some.inj (found.symm.trans found')
  exact ⟨x, foundX, later.senderOpen sender, later.user.symm, later.device.symm⟩

theorem Held.known_of_ages (held : Held history h) (aged : Ages h k) :
    ∀ id ∈ history, ∃ c, k.connection? id = some c := by
  intro id member
  obtain ⟨c, found⟩ := held.known id member
  obtain ⟨c', found', -⟩ := aged id c found
  exact ⟨c', found'⟩

theorem Held.once_of_ages (held : Held history h) (aged : Ages h k) :
    ∀ id c, k.connection? id = some c → c.senderOpen = true → history.count id ≤ 1 := by
  intro id c found sender
  by_cases member : id ∈ history
  · obtain ⟨x, foundX, open_, -, -⟩ := held.before aged member found sender
    exact held.once id x foundX open_
  · simp [List.count_eq_zero.mpr member]

theorem Held.of_ages (held : Held history h) (aged : Ages h k) (same : k.registry = h.registry) :
    Held history k where
  known := held.known_of_ages aged
  registered id member c found sender := by
    obtain ⟨x, foundX, open_, user, device⟩ := held.before aged member found sender
    rw [same, ← user, ← device]
    exact held.registered id member x foundX open_
  once := held.once_of_ages aged
  newest user device id stored := by
    rw [same] at stored
    rw [held.filter_hasKey aged]
    exact held.newest user device id stored

/-- Whatever the registry held for the device is closed, the newcomer itself included. -/
theorem closed_of_superseded {id j : ConnId} {c x : Connection}
    (current : h.registry.lookup c.user c.device = some j)
    (found : (h.enroll id c).connection? j = some x) : x.senderOpen = false := by
  rw [connection?_enroll, if_pos current] at found
  cases before : h.connection? j with
  | none => simp [before] at found
  | some y =>
    rw [before, Option.map_some, Option.map_some] at found
    obtain rfl := Option.some.inj found
    have marked := y.close.ages_markRegistered
    split
    · exact Bool.eq_false_iff.mpr fun open_ => by simpa using marked.senderOpen open_
    · simp

/-- A newcomer that is open after it registered was never registered before. -/
theorem Held.fresh (held : Held history h) {id : ConnId} {c x : Connection}
    (found : h.connection? id = some c) (foundX : (h.enroll id c).connection? id = some x)
    (sender : x.senderOpen = true) : id ∉ history := by
  intro member
  obtain ⟨y, foundY, open_, -, -⟩ := held.before (ages_enroll h id c) member foundX sender
  obtain rfl := Option.some.inj (found.symm.trans foundY)
  have current := held.registered id member c found open_
  simp [closed_of_superseded current foundX] at sender

theorem Held.enroll (held : Held history h) {id : ConnId} {c : Connection}
    (found : h.connection? id = some c) : Held (history ++ [id]) (h.enroll id c) := by
  have aged := ages_enroll h id c
  obtain ⟨e, foundE, later⟩ := aged id c found
  refine ⟨?_, ?_, ?_, ?_⟩
  · intro j member
    rcases List.mem_append.mp member with old | new
    · exact held.known_of_ages aged j old
    · rw [List.mem_singleton.mp new]
      exact ⟨e, foundE⟩
  · intro j member x foundX sender
    rw [registry_enroll, Registry.lookup_enroll]
    rcases List.mem_append.mp member with old | new
    · obtain ⟨y, foundY, open_, user, device⟩ := held.before aged old foundX sender
      have current := held.registered j old y foundY open_
      rw [user, device] at current
      split
      · rename_i key
        rw [key.1, key.2] at current
        simp [closed_of_superseded current foundX] at sender
      · exact current
    · obtain rfl := List.mem_singleton.mp new
      obtain rfl := Option.some.inj (foundE.symm.trans foundX)
      rw [if_pos ⟨later.user, later.device⟩]
  · intro j x foundX sender
    rw [List.count_append]
    by_cases same : j = id
    · subst same
      simp [List.count_eq_zero.mpr (held.fresh found foundX sender)]
    · rw [List.count_singleton, if_neg (by simpa using Ne.symm same), Nat.add_zero]
      exact held.once_of_ages aged j x foundX sender
  · intro user device j stored
    rw [registry_enroll, Registry.lookup_enroll] at stored
    rw [List.filter_append, held.filter_hasKey aged]
    have key := hasKey_iff foundE user device
    rw [later.user, later.device] at key
    split at stored
    · rename_i same
      obtain rfl := Option.some.inj stored
      have mine := key.mpr ⟨same.1.symm, same.2.symm⟩
      simp [mine]
    · rename_i other
      have notMine : (h.enroll id c).hasKey user device id = false :=
        Bool.eq_false_iff.mpr fun yes => other ⟨(key.mp yes).1.symm, (key.mp yes).2.symm⟩
      simpa [notMine] using held.newest user device j stored

theorem Held.withdraw (held : Held history h) {id : ConnId} {c : Connection}
    (current : h.registry.lookup c.user c.device = some id) : Held history (h.withdraw id c) := by
  have aged := ages_withdraw h id c
  refine ⟨held.known_of_ages aged, ?_, held.once_of_ages aged, ?_⟩
  · intro j member x foundX sender
    obtain ⟨y, foundY, open_, user, device⟩ := held.before aged member foundX sender
    have stored := held.registered j member y foundY open_
    rw [user, device] at stored
    rw [registry_withdraw, Registry.lookup_expel]
    split
    · rename_i key
      rw [key.1, key.2, current] at stored
      obtain rfl := Option.some.inj stored
      rw [connection?_withdraw, if_pos rfl, foundY] at foundX
      obtain rfl := Option.some.inj foundX
      simp at sender
    · exact stored
  · intro user device j stored
    rw [registry_withdraw, Registry.lookup_expel] at stored
    split at stored
    · contradiction
    · rw [held.filter_hasKey aged]
      exact held.newest user device j stored

theorem Held.clear (held : Held history h) (inside : Bool) :
    Held history (h.closeAll inside).1 := by
  have aged : Ages h (h.closeAll inside).1 := ages_step h (.closeAll inside)
  refine ⟨held.known_of_ages aged, ?_, held.once_of_ages aged, ?_⟩
  · intro j member x foundX sender
    obtain ⟨y, foundY, open_, -, -⟩ := held.before aged member foundX sender
    have stored := Registry.mem_connections_of_lookup (held.registered j member y foundY open_)
    rw [connection?_closeAll, if_pos stored, foundY] at foundX
    obtain rfl := Option.some.inj foundX
    simp at sender
  · intro user device j stored
    rw [registry_closeAll] at stored
    simp [Registry.lookup, Registry.devices, Table.get?] at stored

theorem Held.step (held : Held history h) (s : Step) :
    Held (history ++ (h.enrolls s).toList) (h.step s) := by
  have arranged : Held (history ++ (h.enrolls s).toList) (h.arrange s) := by
    rcases change h s with ⟨registry, nobody, -⟩ | ⟨id, c, found, enrolls, arranged, -⟩ |
      ⟨id, c, -, current, nobody, arranged, -⟩ | ⟨inside, rfl⟩
    · rw [nobody, Option.toList_none, List.append_nil]
      exact held.of_ages (ages_arrange h s) registry
    · rw [enrolls, arranged]
      exact held.enroll found
    · rw [nobody, arranged, Option.toList_none, List.append_nil]
      exact held.withdraw current
    · have nobody : h.enrolls (.closeAll inside) = none := rfl
      rw [nobody, Option.toList_none, List.append_nil]
      exact held.clear inside
  exact arranged.of_ages (ages_arrange_step h s) (registry_step h s)

theorem Held.run (held : Held history h) (steps : List Step) :
    Held (history ++ h.registrations steps) (h.run steps) := by
  induction steps generalizing h history with
  | nil => simpa [registrations, Hub.run] using held
  | cons s rest ih =>
    have later := ih (held.step s)
    rwa [List.append_assoc] at later

theorem held_run (reports : Bool) (steps : List Step) :
    Held ((new reports).registrations steps) ((new reports).run steps) := by
  have nothing : Held [] (new reports) := by
    constructor <;> simp [new, Registry.lookup, Registry.devices, Table.get?]
  simpa using nothing.run steps

theorem run_append (h : Hub) (first rest : List Step) :
    h.run (first ++ rest) = (h.run first).run rest := List.foldl_append

theorem registrations_append (h : Hub) (first rest : List Step) :
    h.registrations (first ++ rest) =
      h.registrations first ++ (h.run first).registrations rest := by
  induction first generalizing h with
  | nil => rfl
  | cons s first ih =>
    simp only [List.cons_append, registrations, ih, List.append_assoc]
    rfl

theorem isOpen_iff (h : Hub) (id : ConnId) :
    h.isOpen id = true ↔ ∃ c, h.connection? id = some c ∧ c.senderOpen = true := by
  simp [isOpen, Option.any_eq_true]

theorem isOpen_of_ages (aged : Ages h k) {id : ConnId} {c : Connection}
    (found : h.connection? id = some c) (open_ : k.isOpen id = true) : h.isOpen id = true := by
  obtain ⟨x, foundX, sender⟩ := (isOpen_iff k id).mp open_
  obtain ⟨c', found', later⟩ := aged id c found
  obtain rfl := Option.some.inj (foundX.symm.trans found')
  exact (isOpen_iff h id).mpr ⟨c, found, later.senderOpen sender⟩

theorem Held.lookup_of_open (held : Held history h) {id : ConnId} (member : id ∈ history)
    (open_ : h.isOpen id = true) {user device : Uuid} (key : h.hasKey user device id = true) :
    h.registry.lookup user device = some id := by
  obtain ⟨c, found, sender⟩ := (isOpen_iff h id).mp open_
  obtain ⟨rfl, rfl⟩ := (hasKey_iff found user device).mp key
  exact held.registered id member c found sender

theorem Held.count_of_open (held : Held history h) {id : ConnId} (open_ : h.isOpen id = true) :
    history.count id ≤ 1 := by
  obtain ⟨c, found, sender⟩ := (isOpen_iff h id).mp open_
  exact held.once id c found sender

/-- Whatever is open for a device was registered for it last. -/
theorem Held.last_of_open (held : Held history h) {id : ConnId} (member : id ∈ history)
    (open_ : h.isOpen id = true) {user device : Uuid} (key : h.hasKey user device id = true) :
    (history.filter (h.hasKey user device)).getLast? = some id :=
  held.newest user device id (held.lookup_of_open member open_ key)

theorem Held.at_most_one_open (held : Held history h) (user device : Uuid) :
    (history.filter fun id => h.hasKey user device id && h.isOpen id).length ≤ 1 := by
  let live := history.filter fun id => h.hasKey user device id && h.isOpen id
  change live.length ≤ 1
  cases first : live with
  | nil => simp
  | cons id rest =>
    have open_ (j : ConnId) (member : j ∈ live) :
        h.registry.lookup user device = some j ∧ h.isOpen j = true := by
      rw [List.mem_filter, Bool.and_eq_true] at member
      exact ⟨held.lookup_of_open member.1 member.2.2 member.2.1, member.2.2⟩
    have head := open_ id (by simp [first])
    have same (j : ConnId) (member : j ∈ live) : id = j :=
      Option.some.inj (head.1.symm.trans (open_ j member).1)
    calc (id :: rest).length
        = live.count id := by rw [← first]; exact (List.count_eq_length.mpr same).symm
      _ ≤ history.count id := List.filter_sublist.count_le id
      _ ≤ 1 := held.count_of_open head.2

/-- A registration for the same device closes what was registered before, even if it is the same
connection once more. -/
theorem Held.closed_of_later (held : Held history h) {earlier later : List ConnId}
    {id other : ConnId} (order : history = earlier ++ id :: later) {user device : Uuid}
    (key : h.hasKey user device id = true) (member : other ∈ later)
    (same : h.hasKey user device other = true) : h.isOpen id = false := by
  apply Bool.eq_false_iff.mpr
  intro open_
  have last := held.last_of_open (by simp [order]) open_ key
  have again : id ∈ later := by
    rw [order, List.filter_append, List.filter_cons_of_pos key, List.getLast?_append,
      List.getLast?_cons] at last
    cases newest : (later.filter (h.hasKey user device)).getLast? with
    | none =>
      rw [List.getLast?_eq_none_iff] at newest
      exact absurd (List.mem_filter.mpr ⟨member, same⟩) (by simp [newest])
    | some x =>
      simp only [newest, Option.getD_some, Option.some_or, Option.some.injEq] at last
      subst last
      exact (List.mem_filter.mp (List.mem_of_getLast? newest)).1
  have once := held.count_of_open open_
  have twice := List.count_pos_iff.mpr again
  rw [order, List.count_append, List.count_cons_self] at once
  omega

/-- What was in the registry and is not any more is closed. -/
theorem closed_of_removed (reports : Bool) (past middle : List Step) {user device : Uuid}
    {id : ConnId} (stored : ((new reports).run past).registry.lookup user device = some id)
    (removed : ((new reports).run (past ++ middle)).registry.lookup user device ≠ some id) :
    ((new reports).run (past ++ middle)).isOpen id = false := by
  apply Bool.eq_false_iff.mpr
  intro open_
  have before := held_run reports past
  have after := held_run reports (past ++ middle)
  have member : id ∈ (new reports).registrations past :=
    (List.mem_filter.mp (List.mem_of_getLast? (before.newest user device id stored))).1
  obtain ⟨c, found, own, device_⟩ := (consistent_run reports past).keyed user device id stored
  have key : ((new reports).run (past ++ middle)).hasKey user device id = true := by
    rw [run_append, hasKey_of_ages (ages_run _ middle) found]
    exact (hasKey_iff found user device).mpr ⟨own, device_⟩
  apply removed
  apply after.lookup_of_open _ open_ key
  rw [registrations_append]
  exact List.mem_append_left _ member

/-- Whatever was ever registered and is still open is where the registry looks for it. So at most
one of all that were registered for a device is open, and no other than the last; whatever was
replaced, unregistered or drained is closed. -/
theorem open_connections_registered (reports : Bool) (steps : List Step) :
    let h := (new reports).run steps
    let history := (new reports).registrations steps
    (∀ id ∈ history, h.isOpen id = true →
      ∃ c, h.connection? id = some c ∧ h.registry.lookup c.user c.device = some id) ∧
    (∀ user device,
      (history.filter fun id => h.hasKey user device id && h.isOpen id).length ≤ 1) ∧
    (∀ user device, ∀ id ∈ history, h.hasKey user device id = true → h.isOpen id = true →
      (history.filter (h.hasKey user device)).getLast? = some id) ∧
    (∀ earlier id later, history = earlier ++ id :: later → ∀ user device,
      h.hasKey user device id = true → (∃ other ∈ later, h.hasKey user device other = true) →
      h.isOpen id = false) ∧
    ∀ past middle future, steps = past ++ middle ++ future → ∀ user device id,
      ((new reports).run past).registry.lookup user device = some id →
      ((new reports).run (past ++ middle)).registry.lookup user device ≠ some id →
      h.isOpen id = false := by
  intro h history
  have held : Held history h := held_run reports steps
  refine ⟨?_, held.at_most_one_open, ?_, ?_, ?_⟩
  · intro id member open_
    obtain ⟨c, found, sender⟩ := (isOpen_iff h id).mp open_
    exact ⟨c, found, held.registered id member c found sender⟩
  · intro user device id member key open_
    exact held.last_of_open member open_ key
  · rintro earlier id later order user device key ⟨other, member, same⟩
    exact held.closed_of_later order key member same
  · intro past middle future order user device id stored removed
    apply Bool.eq_false_iff.mpr
    intro open_
    obtain ⟨c, found, -⟩ := (consistent_run reports past).keyed user device id stored
    obtain ⟨c', found', -⟩ := ages_run _ middle id c found
    rw [← run_append] at found'
    have aged := ages_run ((new reports).run (past ++ middle)) future
    rw [← run_append, ← order] at aged
    have before := isOpen_of_ages aged found' open_
    simp [closed_of_removed reports past middle stored removed] at before

end SignalHub.Hub
