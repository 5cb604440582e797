import SignalHub.Proofs.Hub.Counting

/-! Whatever was put into the registry is still there, or was superseded, taken out or drained: what
a step puts in and takes out is the difference that it makes to the number of registered connections
(`balanced_step`), and so over a whole run (`balance_run`). The counters keep this balance, but for
the drained ones, which only the calls that drain tell of (`counters_reconcile`). -/
namespace SignalHub

namespace Table

variable {κ α : Type} [DecidableEq κ]

/-- A new value under a key takes the place of the one that was there. -/
theorem length_put (key : κ) (value : α) (t : Table κ α) :
    (put key value t).length + (get? key t).toList.length = t.length + 1 := by
  induction t with
  | nil => rfl
  | cons p rest ih =>
    obtain ⟨k, a⟩ := p
    by_cases same : k = key
    · simp [put, get?, same]
    · simp only [put, get?, same, ↓reduceIte, List.length_cons]
      omega

theorem erase_of_absent {key : κ} {t : Table κ α} (absent : key ∉ t.map Prod.fst) :
    erase key t = t := by
  rw [erase_eq_filter, List.filter_eq_self]
  rintro p member
  have other : p.1 ≠ key := by
    rintro rfl
    exact absent (List.mem_map_of_mem member)
  simpa using other

theorem length_erase (key : κ) {t : Table κ α} (distinct : (t.map Prod.fst).Nodup) :
    (erase key t).length + (get? key t).toList.length = t.length := by
  induction t with
  | nil => rfl
  | cons p rest ih =>
    obtain ⟨k, a⟩ := p
    rw [List.map_cons, List.nodup_cons] at distinct
    by_cases same : k = key
    · subst same
      simp [erase, get?, erase_of_absent distinct.1]
    · have later := ih distinct.2
      simp only [erase, get?, same, ↓reduceIte, List.length_cons]
      omega

end Table

namespace Registry

/-- How many connections are registered. -/
def size (r : Registry) : Nat := (r.flatMap Prod.snd).length

theorem size_cons (p : Uuid × Table Uuid ConnId) (r : Registry) :
    size (p :: r) = p.2.length + size r := by simp [size]

theorem length_connections (r : Registry) : r.connections.length = r.size := by
  induction r with
  | nil => rfl
  | cons p rest ih =>
    rw [size_cons, ← ih]
    simp [connections]

theorem size_put (r : Registry) (user : Uuid) (t : Table Uuid ConnId) :
    size (r.put user t) + (r.devices user).length = r.size + t.length := by
  induction r with
  | nil => simp [Table.put, devices, Table.get?, size]
  | cons p rest ih =>
    obtain ⟨k, a⟩ := p
    unfold devices at *
    by_cases same : k = user
    · simp only [Table.put, Table.get?, same, ↓reduceIte, size_cons, Option.getD_some]
      omega
    · simp only [Table.put, Table.get?, same, ↓reduceIte, size_cons]
      omega

theorem size_erase {r : Registry} (distinct : (r.map Prod.fst).Nodup) (user : Uuid) :
    size (r.erase user) + (r.devices user).length = r.size := by
  induction r with
  | nil => rfl
  | cons p rest ih =>
    obtain ⟨k, a⟩ := p
    rw [List.map_cons, List.nodup_cons] at distinct
    have later := ih distinct.2
    unfold devices at *
    by_cases same : k = user
    · subst same
      simp only [Table.erase, Table.get?, ↓reduceIte, size_cons, Option.getD_some,
        Table.erase_of_absent distinct.1]
      omega
    · simp only [Table.erase, Table.get?, same, ↓reduceIte, size_cons]
      omega

/-- One more is registered, unless somebody was there already. -/
theorem size_enroll (r : Registry) (user device : Uuid) (id : ConnId) :
    (r.enroll user device id).size + (r.lookup user device).toList.length = r.size + 1 := by
  have users := r.size_put user ((r.devices user).put device id)
  have devices := Table.length_put device id (r.devices user)
  rw [enroll, lookup]
  omega

/-- One less is registered, if somebody was there. -/
theorem size_expel {r : Registry} (distinct : (r.map Prod.fst).Nodup) {user : Uuid}
    (apart : ((r.devices user).map Prod.fst).Nodup) (device : Uuid) :
    (r.expel user device).size + (r.lookup user device).toList.length = r.size := by
  have left := Table.length_erase device apart
  unfold expel lookup
  dsimp only
  split
  · -- the user goes with the last device, whose table is empty by then
    rename_i last
    have alone := size_erase distinct user
    rw [List.isEmpty_iff.mp last, List.length_nil] at left
    omega
  · have kept := r.size_put user ((r.devices user).erase device)
    omega

end Registry

namespace Hub

variable {h : Hub}

theorem connectionCount_eq (h : Hub) : h.connectionCount = h.registry.size := rfl

/-- What a call that drains the registry tells. -/
def drains (h : Hub) : Step → Nat
  | .closeAll inside => (h.closeAll inside).2
  | _ => 0

/-- What all such calls of a run tell, taken together. -/
def drained : Hub → List Step → Nat
  | _, [] => 0
  | h, s :: rest => h.drains s + drained (h.step s) rest

/-- What there is now, and what has gone, is what there was and what has come. -/
def Balanced (h : Hub) (s : Step) : Prop :=
  (h.step s).connectionCount + h.tally s .superseded + h.tally s .unregistered + h.drains s =
    h.connectionCount + h.tally s .registered

/-- A step that lets the registry be. -/
theorem balanced_of_same {s : Step} (same : (h.step s).registry = h.registry)
    (nobody : h.enrolls s = none) (stays : h.withdraws s = []) (others : h.drains s = 0) :
    Balanced h s := by
  simp [Balanced, connectionCount_eq, same, tally, nobody, stays, others]

theorem balanced_register (h : Hub) (id : ConnId) : Balanced h (.register id) := by
  cases found : h.connection? id with
  | none =>
    exact balanced_of_same (by simp [step, register, found]) (by simp [enrolls, found]) rfl rfl
  | some c =>
    have registry : (h.step (.register id)).registry = h.registry.enroll c.user c.device id := by
      rw [registry_step, arrange, arrangeRegister, found]
      exact registry_enroll h id c
    have grown := h.registry.size_enroll c.user c.device id
    rw [Balanced, connectionCount_eq, connectionCount_eq, registry]
    simpa [tally, enrolls, withdraws, drains, superseded, found] using grown

theorem balanced_unregister (valid : Consistent h) (id : ConnId) : Balanced h (.unregister id) := by
  cases found : h.connection? id with
  | none =>
    exact balanced_of_same (by simp [step, unregister, found]) rfl
      (by simp [withdraws, withdrawn, found]) rfl
  | some c =>
    by_cases current : h.registry.lookup c.user c.device = some id
    · have registry : (h.step (.unregister id)).registry = h.registry.expel c.user c.device := by
        simp [registry_step, arrange, arrangeUnregister, found, current, registry_withdraw]
      have shrunk := Registry.size_expel valid.users (valid.devices c.user) c.device
      rw [Balanced, connectionCount_eq, connectionCount_eq, registry]
      simpa [tally, enrolls, withdraws, withdrawn, drains, found, current] using shrunk
    · exact balanced_of_same (by rw [unregister_of_other found current]) rfl
        (by simp [withdraws, withdrawn, found, current]) rfl

theorem balanced_closeAll (h : Hub) (inside : Bool) : Balanced h (.closeAll inside) := by
  have gone : (h.step (.closeAll inside)).registry = [] := registry_closeAll h inside
  have told : h.drains (.closeAll inside) = h.registry.size := h.registry.length_connections
  rw [Balanced, connectionCount_eq, connectionCount_eq, gone, told]
  simp [tally, enrolls, withdraws, Registry.size]

theorem balanced_step (valid : Consistent h) (s : Step) : Balanced h s := by
  cases s with
  | register id => exact balanced_register h id
  | join id =>
    cases open_ : h.admits with
    | false =>
      exact balanced_of_same (by simp [step, join, open_]) (by simp [enrolls, open_]) rfl rfl
    | true =>
      rw [Balanced, step_join open_, tally_join open_]
      exact balanced_register h id
  | unregister id => exact balanced_unregister valid id
  | leave id =>
    cases open_ : h.admits with
    | false =>
      exact balanced_of_same (by simp [step, leave, open_]) rfl (by simp [withdraws, open_]) rfl
    | true =>
      rw [Balanced, step_leave open_, tally_leave open_]
      exact balanced_unregister valid id
  | closeAll inside => exact balanced_closeAll h inside
  | connect | text | forward | broadcast | streamStart | streamEnd | send | close | receive
  | dropReceiver | finish | halt | release =>
    exact balanced_of_same (registry_step h _) rfl rfl rfl

theorem balance_run (valid : Consistent h) (steps : List Step) :
    (h.run steps).connectionCount + h.total steps .superseded + h.total steps .unregistered +
        h.drained steps =
      h.connectionCount + h.total steps .registered := by
  induction steps generalizing h with
  | nil => rfl
  | cons s rest ih =>
    have first : Balanced h s := balanced_step valid s
    have later := ih (valid.step s)
    have through : h.run (s :: rest) = (h.step s).run rest := rfl
    rw [Balanced] at first
    simp only [through, total, Tally.plus, drained]
    omega

/-- After every run: whoever was registered is still there or has been superseded, unregistered or
drained, and nothing else; the calls to forward that told of a delivery, and those that found no
target, whoever made them, have been counted. Counters wrap. -/
theorem counters_reconcile (reports : Bool) (steps : List Step) :
    let start := new reports
    let h := start.run steps
    h.counters.registered = h.counters.superseded + h.counters.unregistered +
        .ofNat h.connectionCount + .ofNat (start.drained steps) ∧
      h.counters.forwarded = .ofNat ((start.along errands steps).countP Errand.delivered) ∧
      h.counters.misses = .ofNat ((start.along errands steps).countP Errand.missed) := by
  intro start h
  have counted (e : Counters.Entry) : h.counters.get e = .ofNat (start.total steps e) :=
    counters_run reports steps e
  have balance : h.connectionCount + start.total steps .superseded +
      start.total steps .unregistered + start.drained steps =
        0 + start.total steps .registered :=
    balance_run (consistent_of_empty rfl) steps
  have whole : start.total steps .registered = start.total steps .superseded +
      start.total steps .unregistered + h.connectionCount + start.drained steps := by
    omega
  refine ⟨?_, ?_, ?_⟩
  · have registered := counted .registered
    rw [whole, UInt64.ofNat_add, UInt64.ofNat_add, UInt64.ofNat_add, ← counted, ← counted]
      at registered
    exact registered
  · rw [← total_eq_countP (e := .forwarded) fun _ _ => rfl]
    exact counted .forwarded
  · rw [← total_eq_countP (e := .misses) fun _ _ => rfl]
    exact counted .misses

end Hub
end SignalHub
