import SignalHub.Proofs.Hub.Live

/-! To unregister a connection takes it out of the registry if it is the one that is registered for
its device: then each connection that its user has left is told once, and it is counted (`departs`).
Otherwise nothing happens (`unregister_of_other`). What is out stays out until it is registered
again (`absent_run`). -/
namespace SignalHub.Hub

variable {h : Hub} {id : ConnId} {c : Connection}

theorem counters_report (h : Hub) (device : Uuid) (online : Bool) :
    (h.report device online).counters = h.counters := by
  unfold report
  split <;> rfl

theorem lookup_of_current (found : h.connection? id = some c)
    (current : h.registry.lookup c.user c.device = some id) (user device : Uuid) :
    (h.step (.unregister id)).registry.lookup user device =
      if user = c.user ∧ device = c.device then none else h.registry.lookup user device := by
  have registry : (h.arrange (.unregister id)).registry = (h.withdraw id c).registry := by
    simp [arrange, arrangeUnregister, found, current]
  rw [registry_step, registry, registry_withdraw, Registry.lookup_expel]

theorem unregister_of_other (found : h.connection? id = some c)
    (other : h.registry.lookup c.user c.device ≠ some id) : h.step (.unregister id) = h := by
  simp [step, unregister, found, other]

/-- Whatever was unregistered is not in the registry. -/
theorem absent_unregister (valid : Consistent h) (id : ConnId) :
    id ∉ (h.step (.unregister id)).registry.connections := by
  intro member
  obtain ⟨c', found', stored⟩ := ((valid.step _).mem_connections_iff id).mp member
  cases found : h.connection? id with
  | none =>
    have same : h.step (.unregister id) = h := by simp [step, unregister, found]
    rw [same, found] at found'
    contradiction
  | some c =>
    by_cases current : h.registry.lookup c.user c.device = some id
    · obtain ⟨x, foundX, aged⟩ := ages_step h (.unregister id) id c found
      obtain rfl := Option.some.inj (found'.symm.trans foundX)
      rw [lookup_of_current found current, if_pos ⟨aged.user, aged.device⟩] at stored
      contradiction
    · rw [unregister_of_other found current, found] at found'
      obtain rfl := Option.some.inj found'
      rw [unregister_of_other found current] at stored
      exact current stored

theorem absent_step (valid : Consistent h) (absent : id ∉ h.registry.connections) {s : Step}
    (fresh : h.enrolls s ≠ some id) : id ∉ (h.step s).registry.connections := by
  intro member
  obtain ⟨c', found', stored⟩ := ((valid.step s).mem_connections_iff id).mp member
  rw [registry_step] at stored
  apply absent
  rcases change h s with ⟨registry, -, -⟩ | ⟨j, c, -, enrolls, arranged, -⟩ |
    ⟨j, c, -, -, -, arranged, -⟩ | ⟨inside, rfl⟩
  · rw [registry] at stored
    exact Registry.mem_connections_of_lookup stored
  · rw [arranged, registry_enroll, Registry.lookup_enroll] at stored
    split at stored
    · exact absurd (enrolls.trans stored) fresh
    · exact Registry.mem_connections_of_lookup stored
  · rw [arranged, registry_withdraw, Registry.lookup_expel] at stored
    split at stored
    · contradiction
    · exact Registry.mem_connections_of_lookup stored
  · have empty : (h.arrange (.closeAll inside)).registry = [] := registry_closeAll h inside
    rw [empty] at stored
    simp [Registry.lookup, Registry.devices, Table.get?] at stored

/-- What is out of the registry stays out until it is registered again. -/
theorem absent_run (valid : Consistent h) (absent : id ∉ h.registry.connections) {steps : List Step}
    (fresh : id ∉ h.registrations steps) : id ∉ (h.run steps).registry.connections := by
  induction steps generalizing h with
  | nil => exact absent
  | cons s rest ih =>
    rw [registrations, List.mem_append, not_or, Option.mem_toList] at fresh
    exact ih (valid.step s) (absent_step valid absent fresh.1) fresh.2

end SignalHub.Hub
