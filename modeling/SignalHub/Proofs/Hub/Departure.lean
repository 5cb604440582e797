import SignalHub.Proofs.Hub.Delivery
import SignalHub.Proofs.Hub.Leave

/-! A connection is unregistered only if it is itself the one that is registered for its device;
another connection of that device does not count. Then it is taken out and closed, each sibling is
offered one message that the device has gone, the directory is told, and nothing else changes. In
every other state nothing happens at all, and so the second time, if it has not been registered
again (`unregister_exact`). -/
namespace SignalHub.Hub

variable {h : Hub} {id j : ConnId} {c : Connection}

theorem connection?_report (h : Hub) (device : Uuid) (online : Bool) (j : ConnId) :
    (h.report device online).connection? j = h.connection? j := by
  unfold report
  split <;> rfl

theorem registry_report (h : Hub) (device : Uuid) (online : Bool) :
    (h.report device online).registry = h.registry := by
  unfold report
  split <;> rfl

theorem report_frame (h : Hub) (device : Uuid) (online : Bool) :
    (h.report device online).stopping = h.stopping ∧ (h.report device online).alive = h.alive := by
  unfold report
  split <;> exact ⟨rfl, rfl⟩

theorem audience_eq (h : Hub) (user device : Uuid) :
    h.audience user (some device) = ((h.registry.devices user).erase device).map Prod.snd := by
  rw [audience, Table.erase_eq_filter]
  congr 2
  funext p
  by_cases own : p.1 = device
  · simp [own]
  · simp [own, Ne.symm own]

/-- Without its device, a user is left with the devices that a message about it goes to. -/
theorem audience_withdraw (h : Hub) (id : ConnId) (c : Connection) :
    (h.withdraw id c).audience c.user (some c.device) = h.audience c.user (some c.device) := by
  rw [audience_eq, audience_eq, registry_withdraw, Registry.devices_expel, if_pos rfl,
    Table.erase_eq_filter, Table.erase_eq_filter, List.filter_filter]
  simp

/-- Only the connection that is registered for a device is not a sibling of it. -/
theorem Consistent.ne_of_sibling (valid : Consistent h) (found : h.connection? id = some c)
    (sibling : j ∈ h.audience c.user (some c.device)) : j ≠ id := by
  rintro rfl
  obtain ⟨-, other, -⟩ := (valid.mem_audience_iff_of_found found _ _).mp sibling
  exact other rfl

theorem verdict_withdraw_of_ne (h : Hub) (c : Connection) (other : j ≠ id) :
    (h.withdraw id c).verdict j = h.verdict j := by
  unfold verdict
  rw [connection?_withdraw, if_neg (Ne.symm other)]

theorem Consistent.countP_withdraw (valid : Consistent h) (found : h.connection? id = some c)
    (v : Offer) :
    ((h.audience c.user (some c.device)).countP fun j => (h.withdraw id c).verdict j == v) =
      (h.audience c.user (some c.device)).countP fun j => h.verdict j == v := by
  apply List.countP_congr
  intro j sibling
  rw [verdict_withdraw_of_ne h c (valid.ne_of_sibling found sibling)]

theorem Consistent.unregister_of_current (valid : Consistent h) (found : h.connection? id = some c)
    (current : h.registry.lookup c.user c.device = some id) :
    h.unregister id = (((h.withdraw id c).told (h.audience c.user (some c.device))
      (.deviceOffline c.device)).report c.device false, true) := by
  have left : Consistent (h.withdraw id c) := valid.withdraw id c
  simp [unregister, found, current, left.broadcast_eq, audience_withdraw]

theorem unregister_snd_iff (found : h.connection? id = some c) :
    (h.unregister id).2 = true ↔ h.registry.lookup c.user c.device = some id := by
  unfold unregister
  rw [found]
  dsimp only
  split <;> simp [*]

/-- A connection that is not in the registry is left alone, with everything else. -/
theorem unregister_of_absent (absent : id ∉ h.registry.connections) :
    h.unregister id = (h, false) := by
  unfold unregister
  split
  · rfl
  · rw [if_neg fun current => absent (Registry.mem_connections_of_lookup current)]

theorem Consistent.connection?_unregister (valid : Consistent h) (found : h.connection? id = some c)
    (current : h.registry.lookup c.user c.device = some id) (j : ConnId) :
    (h.unregister id).1.connection? j =
      if j = id then some c.close
      else if j ∈ h.audience c.user (some c.device) then
        (h.connection? j).map (·.offer (.message (.deviceOffline c.device)))
      else h.connection? j := by
  rw [valid.unregister_of_current found current, connection?_report, connection?_told,
    connection?_withdraw]
  by_cases own : j = id
  · subst own
    have stranger : j ∉ h.audience c.user (some c.device) :=
      fun sibling => valid.ne_of_sibling found sibling rfl
    simp [found, stranger]
  · rw [if_neg (Ne.symm own), if_neg own]
    by_cases sibling : j ∈ h.audience c.user (some c.device) <;> simp [sibling]

/-- The user is gone when nobody is left. -/
theorem Consistent.hasIdentity_unregister (valid : Consistent h)
    (found : h.connection? id = some c) (current : h.registry.lookup c.user c.device = some id)
    (user : Uuid) :
    (h.unregister id).1.hasIdentity user =
      if user = c.user then !(h.audience c.user (some c.device)).isEmpty
      else h.hasIdentity user := by
  have registry : (h.unregister id).1.registry = h.registry.expel c.user c.device := by
    rw [valid.unregister_of_current found current, registry_report]
    rfl
  rw [hasIdentity, registry]
  by_cases own : user = c.user
  · subst own
    rw [Registry.get?_expel, if_pos rfl, if_pos rfl, audience_eq]
    cases (h.registry.devices c.user).erase c.device <;> rfl
  · rw [Registry.get?_expel, if_neg own, if_neg own, hasIdentity]

theorem Consistent.counters_unregister (valid : Consistent h) (found : h.connection? id = some c)
    (current : h.registry.lookup c.user c.device = some id) :
    (h.unregister id).1.counters = { h.counters with
      unregistered := h.counters.unregistered + 1
      dropped := h.counters.dropped +
        .ofNat ((h.audience c.user (some c.device)).countP fun j => h.verdict j == .full) } := by
  rw [valid.unregister_of_current found current, counters_report, told,
    valid.countP_withdraw found]
  rfl

/-- Each sibling gets one offer, and is then as open as it was before. -/
theorem Consistent.attempts_unregister (valid : Consistent h) (found : h.connection? id = some c)
    (current : h.registry.lookup c.user c.device = some id) :
    h.attempts (.unregister id) = (h.audience c.user (some c.device)).map fun j =>
      ⟨j, .message (.deviceOffline c.device), h.verdict j⟩ := by
  have arranged : h.arrange (.unregister id) = h.withdraw id c := by
    simp [Hub.arrange, arrangeUnregister, found, current]
  have offered : h.offers (.unregister id) =
      .ofMessage (h.audience c.user (some c.device)) (.deviceOffline c.device) := by
    simp [offers, unregisterOffers, found, current, broadcastOffers, audience_withdraw]
  have distinct : ((Offers.ofMessage (h.audience c.user (some c.device))
      (.deviceOffline c.device)).map Prod.fst).Nodup := by
    simpa [Offers.ofMessage, Function.comp_def] using valid.nodup_audience c.user (some c.device)
  rw [attempts, arranged, offered, trials_of_nodup _ distinct, Offers.ofMessage, List.map_map]
  apply List.map_congr_left
  intro j sibling
  rw [Function.comp_apply, verdict_withdraw_of_ne h c (valid.ne_of_sibling found sibling)]

/-- Whether a connection is the one that is registered for its device decides everything. If so, it is
taken out and closed; the user is gone if nobody is left, and otherwise each sibling is offered once,
and takes if it is open and has room, the message that the device has gone; a hub with a directory
reports it offline. No other connection and no other device is touched; the counters tell of the one
that left and of each sibling that had no room. If not, nothing changes. Either way the connection is
out, and to unregister it does nothing until it is registered again. -/
theorem unregister_exact (reports : Bool) (steps : List Step) (id : ConnId) (c : Connection)
    (found : ((new reports).run steps).connection? id = some c) :
    let h := (new reports).run steps
    let k := (h.unregister id).1
    let current := (h.unregister id).2
    let siblings := h.audience c.user (some c.device)
    let news := Outbound.message (.deviceOffline c.device)
    (current = true ↔ h.registry.lookup c.user c.device = some id) ∧
    (current = true →
      (∀ user device, k.registry.lookup user device =
        if user = c.user ∧ device = c.device then none else h.registry.lookup user device) ∧
      (∀ user, k.hasIdentity user =
        if user = c.user then !siblings.isEmpty else h.hasIdentity user) ∧
      (siblings.Nodup ∧ ∀ j, j ∈ siblings ↔
        ∃ device, device ≠ c.device ∧ h.registry.lookup c.user device = some j) ∧
      h.attempts (.unregister id) = siblings.map (fun j => ⟨j, news, h.verdict j⟩) ∧
      k.connection? id = some { c with
        senderOpen := false, phase := if c.senderOpen then .closing else c.phase } ∧
      (∀ j ∈ siblings, ∃ x, h.connection? j = some x ∧ k.connection? j = some { x with
        queue := x.queue ++
          if x.senderOpen ∧ x.receiverOpen ∧ x.queue.length < x.capacity then [news] else [] }) ∧
      (∀ j, j ≠ id → j ∉ siblings → k.connection? j = h.connection? j) ∧
      k.counters = { h.counters with
        unregistered := h.counters.unregistered + 1
        dropped := h.counters.dropped + .ofNat (siblings.countP fun j => h.verdict j == .full) } ∧
      k.reports = h.reports ∧ k.stopping = h.stopping ∧ k.alive = h.alive ∧
        k.pending = h.pending ++ if h.reports then [⟨c.device, false⟩] else []) ∧
    (current = false → k = h) ∧
    ∀ between, id ∉ k.registrations between →
      (k.run between).unregister id = (k.run between, false) := by
  intro h k current siblings news
  have valid : Consistent h := consistent_run reports steps
  have decided : current = true ↔ h.registry.lookup c.user c.device = some id :=
    unregister_snd_iff found
  refine ⟨decided, fun yes => ?_, fun no => ?_, fun between fresh => ?_⟩
  · have current := decided.mp yes
    have after := valid.connection?_unregister found current
    have reported : Reported h k [⟨c.device, false⟩] := by
      have told := reported_unregister h id
      rwa [unregisterNews, show h.connection? id = some c from found, Option.elim_some,
        if_pos current] at told
    refine ⟨lookup_of_current found current, valid.hasIdentity_unregister found current,
      ⟨valid.nodup_audience _ _, fun j => ?_⟩, valid.attempts_unregister found current, ?_,
      fun j sibling => ?_, fun j other stranger => ?_, valid.counters_unregister found current, ?_⟩
    · rw [valid.mem_audience_iff]
      simp [eq_comm]
    · have living := (living_new reports).run steps
      rw [after, if_pos rfl, (living.coupled id c found).close_eq]
    · obtain ⟨device, -, stored⟩ := (valid.mem_audience_iff _ _ _).mp sibling
      obtain ⟨x, foundX, -⟩ := valid.keyed _ _ _ stored
      refine ⟨x, foundX, ?_⟩
      rw [after, if_neg (valid.ne_of_sibling found sibling), if_pos sibling, foundX,
        Option.map_some, Connection.offer_eq]
    · rw [after, if_neg other, if_neg stranger]
    · obtain ⟨stopping, alive⟩ := report_frame ((h.withdraw id c).told siblings
        (.deviceOffline c.device)) c.device false
      have made : k = _ := congrArg Prod.fst (valid.unregister_of_current found current)
      exact ⟨reported.reports, made ▸ stopping, made ▸ alive, reported.pending⟩
  · refine unregister_of_other found fun stored => ?_
    simp [decided.mpr stored] at no
  · exact unregister_of_absent
      (absent_run (valid.step (.unregister id)) (absent_unregister valid id) fresh)

/-- A superseded connection of a phone is unregistered in vain. The one that took its place leaves a
laptop whose queue is full, and is unregistered once. -/
theorem unregister_exact_superseded :
    let user := Uuid.repeated 0
    let connect (digit : Fin 16) := Step.connect user (.repeated digit) (.plain (.repeated digit) "")
    let h := (new true).run
      [connect 1 4, connect 1 4, connect 2 1, .register 0, .register 1, .register 2]
    let k := (h.unregister 1).1
    let later := k.run [.unregister 2, .halt]
    (h.unregister 0).1 = h ∧ k.pending = h.pending ++ [⟨.repeated 1, false⟩] ∧
      k.counters = ⟨3, 1, 1, 0, 0, 1⟩ ∧ later.unregister 1 = (later, false) := by
  intro user connect h k later
  have own (id : ConnId) (phone : id = 0 ∨ id = 1) : (h.connection? id).map
      (fun c => (c.user, c.device)) = some (user, .repeated 1) := by
    rcases phone with rfl | rfl <;> decide +kernel
  obtain ⟨old, foundOld, -⟩ := Option.map_eq_some_iff.mp (own 0 (.inl rfl))
  obtain ⟨-, -, stale, -⟩ := unregister_exact true _ 0 old foundOld
  obtain ⟨c, found, same⟩ := Option.map_eq_some_iff.mp (own 1 (.inr rfl))
  obtain ⟨owner, device⟩ := Prod.mk.inj same
  obtain ⟨-, leaves, -, again⟩ := unregister_exact true _ 1 c found
  obtain ⟨-, -, -, -, -, -, -, counters, -, -, -, pending⟩ := leaves (by decide +kernel)
  refine ⟨stale (by decide +kernel), ?_, ?_, again [.unregister 2, .halt] (by decide +kernel)⟩
  · rw [device] at pending
    simp only [k, h]
    exact pending.trans (by decide +kernel)
  · rw [owner, device] at counters
    simp only [k, h]
    exact counters.trans (by decide +kernel)

/-- More changes than the connection itself, its siblings and the count of those that left: a hub with
a directory has one more report to make, and one message more is dropped if a sibling has no room. -/
theorem unregister_reports_and_drops :
    let user := Uuid.repeated 0
    let connect (digit : Fin 16) := Step.connect user (.repeated digit) (.plain (.repeated digit) "")
    let h := (new true).run [connect 1 4, connect 2 1, .register 0, .register 1]
    let k := (h.unregister 0).1
    (h.unregister 0).2 = true ∧ k.pending ≠ h.pending ∧
      k.counters.dropped = h.counters.dropped + 1 := by
  decide +kernel

end SignalHub.Hub
