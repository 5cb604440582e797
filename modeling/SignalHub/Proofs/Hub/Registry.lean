import SignalHub.Proofs.Hub.Effect

/-! In every state that a run can reach, each user and each device has one place, no user is without
devices, and every connection sits under its own user and device (`consistent_run`). Only four
things can happen to the registry in a step (`change`). -/
namespace SignalHub

namespace Table

variable {κ α : Type} [DecidableEq κ]

theorem get?_eq_none_iff (key : κ) (t : Table κ α) : get? key t = none ↔ key ∉ t.map Prod.fst := by
  induction t with
  | nil => simp [get?]
  | cons p rest ih =>
    obtain ⟨k, a⟩ := p
    by_cases same : k = key
    · simp [get?, same]
    · simp [get?, same, Ne.symm same, ih]

theorem mem_of_get? {key : κ} {a : α} {t : Table κ α} (found : get? key t = some a) :
    (key, a) ∈ t := by
  induction t with
  | nil => simp [get?] at found
  | cons p rest ih =>
    obtain ⟨k, b⟩ := p
    by_cases same : k = key
    · subst same
      simp only [get?, ↓reduceIte, Option.some.injEq] at found
      simp [found]
    · simp only [get?, same, ↓reduceIte] at found
      exact List.mem_cons_of_mem _ (ih found)

theorem get?_of_mem {key : κ} {a : α} {t : Table κ α} (distinct : (t.map Prod.fst).Nodup)
    (member : (key, a) ∈ t) : get? key t = some a := by
  induction t with
  | nil => simp at member
  | cons p rest ih =>
    obtain ⟨k, b⟩ := p
    rw [List.map_cons, List.nodup_cons] at distinct
    rcases List.mem_cons.mp member with first | later
    · obtain ⟨rfl, rfl⟩ := Prod.mk.inj first
      simp [get?]
    · have other : k ≠ key := by
        rintro rfl
        exact distinct.1 (List.mem_map.mpr ⟨_, later, rfl⟩)
      simp [get?, other, ih distinct.2 later]

theorem erase_eq_filter (key : κ) (t : Table κ α) : erase key t = t.filter fun p => p.1 ≠ key := by
  induction t with
  | nil => rfl
  | cons p rest ih =>
    obtain ⟨k, a⟩ := p
    by_cases same : k = key <;> simp [erase, same, ih]

theorem nodup_keys_erase (key : κ) {t : Table κ α} (distinct : (t.map Prod.fst).Nodup) :
    ((erase key t).map Prod.fst).Nodup := by
  rw [erase_eq_filter]
  exact distinct.sublist (List.filter_sublist.map _)

theorem keys_put (key : κ) (value : α) (t : Table κ α) :
    (put key value t).map Prod.fst =
      if key ∈ t.map Prod.fst then t.map Prod.fst else t.map Prod.fst ++ [key] := by
  induction t with
  | nil => simp [put]
  | cons p rest ih =>
    obtain ⟨k, a⟩ := p
    by_cases same : k = key
    · simp [put, same]
    · simp only [put, same, ↓reduceIte, List.map_cons, ih, List.mem_cons, Ne.symm same, false_or]
      split <;> rfl

theorem nodup_keys_put (key : κ) (value : α) {t : Table κ α} (distinct : (t.map Prod.fst).Nodup) :
    ((put key value t).map Prod.fst).Nodup := by
  rw [keys_put]
  split
  · exact distinct
  · rename_i absent
    rw [List.nodup_append]
    refine ⟨distinct, by simp, ?_⟩
    intro a member b single
    rw [List.mem_singleton.mp single]
    rintro rfl
    exact absent member

theorem put_ne_nil (key : κ) (value : α) (t : Table κ α) : put key value t ≠ [] := by
  cases t with
  | nil => simp [put]
  | cons p rest => simp only [put]; split <;> simp

end Table

namespace Registry

variable (r : Registry) (user device : Uuid)

theorem get?_enroll (id : ConnId) (other : Uuid) :
    (r.enroll user device id).get? other =
      if other = user then some ((r.devices user).put device id) else r.get? other := by
  by_cases same : other = user
  · subst same
    simp [enroll, Table.get?_put_same]
  · simp [enroll, Table.get?_put_other same, same]

theorem get?_expel (other : Uuid) :
    (r.expel user device).get? other =
      if other = user then
        let rest := (r.devices user).erase device
        if rest.isEmpty then none else some rest
      else r.get? other := by
  unfold expel
  by_cases same : other = user
  · subst same
    dsimp only
    rw [if_pos rfl]
    split
    · exact Table.get?_erase_same other r
    · exact Table.get?_put_same other _ r
  · rw [if_neg same]
    dsimp only
    split
    · exact Table.get?_erase_other same r
    · exact Table.get?_put_other same _ r

theorem devices_enroll (id : ConnId) (other : Uuid) :
    (r.enroll user device id).devices other =
      if other = user then (r.devices user).put device id else r.devices other := by
  unfold devices
  rw [get?_enroll]
  split <;> rfl

theorem devices_expel (other : Uuid) :
    (r.expel user device).devices other =
      if other = user then (r.devices user).erase device else r.devices other := by
  unfold devices
  rw [get?_expel]
  split
  · dsimp only
    split
    · rename_i last
      exact (List.isEmpty_iff.mp last).symm
    · rfl
  · rfl

theorem lookup_enroll (id : ConnId) (other key : Uuid) :
    (r.enroll user device id).lookup other key =
      if other = user ∧ key = device then some id else r.lookup other key := by
  unfold lookup
  rw [devices_enroll]
  by_cases sameUser : other = user
  · subst sameUser
    by_cases sameDevice : key = device
    · subst sameDevice
      simp [Table.get?_put_same]
    · simp [Table.get?_put_other sameDevice, sameDevice]
  · simp [sameUser]

theorem lookup_expel (other key : Uuid) :
    (r.expel user device).lookup other key =
      if other = user ∧ key = device then none else r.lookup other key := by
  unfold lookup
  rw [devices_expel]
  by_cases sameUser : other = user
  · subst sameUser
    by_cases sameDevice : key = device
    · subst sameDevice
      simp [Table.get?_erase_same]
    · simp [Table.get?_erase_other sameDevice, sameDevice]
  · simp [sameUser]

theorem inhabited_enroll (id : ConnId) (inhabited : ∀ u, r.get? u ≠ some []) (other : Uuid) :
    (r.enroll user device id).get? other ≠ some [] := by
  rw [get?_enroll]
  split
  · simp [Table.put_ne_nil]
  · exact inhabited other

theorem inhabited_expel (inhabited : ∀ u, r.get? u ≠ some []) (other : Uuid) :
    (r.expel user device).get? other ≠ some [] := by
  rw [get?_expel]
  split
  · dsimp only
    split
    · simp
    · rename_i some
      simpa using some
  · exact inhabited other

theorem mem_of_lookup {r : Registry} {user device : Uuid} {id : ConnId}
    (stored : r.lookup user device = some id) : ∃ t, (user, t) ∈ r ∧ (device, id) ∈ t := by
  unfold lookup devices at stored
  cases found : r.get? user with
  | none => simp [found, Table.get?] at stored
  | some t =>
    simp only [found, Option.getD_some] at stored
    exact ⟨t, Table.mem_of_get? found, Table.mem_of_get? stored⟩

theorem mem_connections_of_lookup {r : Registry} {user device : Uuid} {id : ConnId}
    (stored : r.lookup user device = some id) : id ∈ r.connections := by
  obtain ⟨t, member, entry⟩ := mem_of_lookup stored
  exact List.mem_flatMap.mpr ⟨_, member, List.mem_map.mpr ⟨_, entry, rfl⟩⟩

theorem nodup_users_enroll (id : ConnId) (distinct : (r.map Prod.fst).Nodup) :
    ((r.enroll user device id).map Prod.fst).Nodup :=
  Table.nodup_keys_put user _ distinct

theorem nodup_users_expel (distinct : (r.map Prod.fst).Nodup) :
    ((r.expel user device).map Prod.fst).Nodup := by
  unfold expel
  dsimp only
  split
  · exact Table.nodup_keys_erase user distinct
  · exact Table.nodup_keys_put user _ distinct

end Registry

namespace Hub

variable {h k : Hub}

structure Consistent (h : Hub) : Prop where
  users : (h.registry.map Prod.fst).Nodup
  inhabited : ∀ user, h.registry.get? user ≠ some []
  devices : ∀ user, ((h.registry.devices user).map Prod.fst).Nodup
  keyed : ∀ user device id, h.registry.lookup user device = some id →
    ∃ c, h.connection? id = some c ∧ c.user = user ∧ c.device = device

theorem Consistent.devices_eq (valid : Consistent h) {user : Uuid} {t : Table Uuid ConnId}
    (member : (user, t) ∈ h.registry) : h.registry.devices user = t := by
  simp [Registry.devices, Table.get?_of_mem valid.users member]

theorem Consistent.lookup_of_mem (valid : Consistent h) {user device : Uuid}
    {t : Table Uuid ConnId} {id : ConnId} (member : (user, t) ∈ h.registry)
    (entry : (device, id) ∈ t) : h.registry.lookup user device = some id := by
  have distinct := valid.devices user
  rw [valid.devices_eq member] at distinct
  rw [Registry.lookup, valid.devices_eq member]
  exact Table.get?_of_mem distinct entry

theorem Consistent.mem_connections_iff (valid : Consistent h) (id : ConnId) :
    id ∈ h.registry.connections ↔
      ∃ c, h.connection? id = some c ∧ h.registry.lookup c.user c.device = some id := by
  constructor
  · intro member
    obtain ⟨⟨user, t⟩, stored, inside⟩ := List.mem_flatMap.mp member
    obtain ⟨⟨device, j⟩, entry, rfl⟩ := List.mem_map.mp inside
    have current := valid.lookup_of_mem stored entry
    obtain ⟨c, found, rfl, rfl⟩ := valid.keyed _ _ _ current
    exact ⟨c, found, current⟩
  · rintro ⟨c, -, current⟩
    exact Registry.mem_connections_of_lookup current

theorem Consistent.lookup_iff (valid : Consistent h) (user : Uuid) (p : Uuid × ConnId) :
    p ∈ h.registry.devices user ↔ h.registry.lookup user p.1 = some p.2 :=
  ⟨Table.get?_of_mem (valid.devices user), Table.mem_of_get?⟩

/-- A broadcast goes to the connections of all devices of the user but the excluded one. -/
theorem Consistent.mem_audience_iff (valid : Consistent h) (user : Uuid) (exclude : Option Uuid)
    (id : ConnId) :
    id ∈ h.audience user exclude ↔
      ∃ device, exclude ≠ some device ∧ h.registry.lookup user device = some id := by
  simp only [audience, List.mem_map, List.mem_filter, bne_iff_ne]
  constructor
  · rintro ⟨⟨device, j⟩, ⟨entry, apart⟩, rfl⟩
    exact ⟨device, apart, (valid.lookup_iff user _).mp entry⟩
  · rintro ⟨device, apart, stored⟩
    exact ⟨(device, id), ⟨(valid.lookup_iff user _).mpr stored, apart⟩, rfl⟩

theorem Consistent.mem_audience_iff_of_found (valid : Consistent h) {id : ConnId} {c : Connection}
    (found : h.connection? id = some c) (user : Uuid) (exclude : Option Uuid) :
    id ∈ h.audience user exclude ↔
      c.user = user ∧ exclude ≠ some c.device ∧ h.registry.lookup c.user c.device = some id := by
  rw [valid.mem_audience_iff]
  constructor
  · rintro ⟨device, apart, stored⟩
    obtain ⟨x, foundX, rfl, rfl⟩ := valid.keyed user device id stored
    obtain rfl := Option.some.inj (found.symm.trans foundX)
    exact ⟨rfl, apart, stored⟩
  · rintro ⟨rfl, apart, stored⟩
    exact ⟨c.device, apart, stored⟩

/-- No connection is told the same thing twice. -/
theorem Consistent.nodup_audience (valid : Consistent h) (user : Uuid) (exclude : Option Uuid) :
    (h.audience user exclude).Nodup := by
  have distinct := List.pairwise_map.mp (valid.devices user)
  apply List.pairwise_map.mpr
  apply List.Pairwise.filter
  apply distinct.imp_of_mem
  rintro ⟨device, id⟩ ⟨device', id'⟩ first second apart same
  have stored := (valid.lookup_iff user _).mp first
  have stored' := (valid.lookup_iff user _).mp second
  obtain ⟨c, found, -, rfl⟩ := valid.keyed _ _ _ stored
  obtain ⟨c', found', -, rfl⟩ := valid.keyed _ _ _ stored'
  dsimp only at same
  subst same
  exact apart (congrArg Connection.device (Option.some.inj (found.symm.trans found')))

theorem consistent_of_empty (empty : h.registry = []) : Consistent h where
  users := by simp [empty]
  inhabited user := by simp [empty, Table.get?]
  devices user := by simp [empty, Registry.devices, Table.get?]
  keyed user device id stored := by
    simp [empty, Registry.lookup, Registry.devices, Table.get?] at stored

theorem Consistent.of_ages (valid : Consistent h) (aged : Ages h k)
    (same : k.registry = h.registry) : Consistent k where
  users := by rw [same]; exact valid.users
  inhabited := by rw [same]; exact valid.inhabited
  devices := by rw [same]; exact valid.devices
  keyed user device id stored := by
    rw [same] at stored
    obtain ⟨c, found, rfl, rfl⟩ := valid.keyed user device id stored
    obtain ⟨c', found', later⟩ := aged id c found
    exact ⟨c', found', later.user, later.device⟩

theorem Consistent.enroll (valid : Consistent h) {id : ConnId} {c : Connection}
    (found : h.connection? id = some c) : Consistent (h.enroll id c) where
  users := by
    rw [registry_enroll]
    exact Registry.nodup_users_enroll _ _ _ id valid.users
  inhabited := by
    rw [registry_enroll]
    exact Registry.inhabited_enroll _ _ _ id valid.inhabited
  devices user := by
    rw [registry_enroll, Registry.devices_enroll]
    split
    · exact Table.nodup_keys_put _ _ (valid.devices _)
    · exact valid.devices user
  keyed user device j stored := by
    rw [registry_enroll, Registry.lookup_enroll] at stored
    split at stored
    · rename_i key
      obtain ⟨rfl, rfl⟩ := key
      obtain rfl := Option.some.inj stored
      obtain ⟨c', found', aged⟩ := ages_enroll h id c id c found
      exact ⟨c', found', aged.user, aged.device⟩
    · obtain ⟨x, foundX, rfl, rfl⟩ := valid.keyed user device j stored
      obtain ⟨x', found', aged⟩ := ages_enroll h id c j x foundX
      exact ⟨x', found', aged.user, aged.device⟩

theorem Consistent.withdraw (valid : Consistent h) (id : ConnId) (c : Connection) :
    Consistent (h.withdraw id c) where
  users := Registry.nodup_users_expel _ c.user c.device valid.users
  inhabited := Registry.inhabited_expel _ c.user c.device valid.inhabited
  devices user := by
    rw [registry_withdraw, Registry.devices_expel]
    split
    · exact Table.nodup_keys_erase _ (valid.devices _)
    · exact valid.devices user
  keyed user device j stored := by
    rw [registry_withdraw, Registry.lookup_expel] at stored
    split at stored
    · contradiction
    · obtain ⟨x, foundX, rfl, rfl⟩ := valid.keyed user device j stored
      obtain ⟨x', found', aged⟩ := ages_withdraw h id c j x foundX
      exact ⟨x', found', aged.user, aged.device⟩

def Step.registers : Step → Bool
  | .register _ | .unregister _ | .join _ | .leave _ => true
  | _ => false

/-- The four things that a step can do to the registry. -/
inductive Change (h : Hub) (s : Step) : Prop where
  | keep (registry : (h.arrange s).registry = h.registry) (nobody : h.enrolls s = none)
      (silent : s.registers = true → h.offers s = [])
  | enroll (id : ConnId) (c : Connection) (found : h.connection? id = some c)
      (enrolls : h.enrolls s = some id) (arranged : h.arrange s = h.enroll id c)
      (offered : h.offers s = h.registerOffers id)
  | withdraw (id : ConnId) (c : Connection) (found : h.connection? id = some c)
      (current : h.registry.lookup c.user c.device = some id) (nobody : h.enrolls s = none)
      (arranged : h.arrange s = h.withdraw id c) (offered : h.offers s = h.unregisterOffers id)
  | clear (inside : Bool) (drained : s = .closeAll inside)

theorem change (h : Hub) (s : Step) : Change h s := by
  cases s with
  | register id =>
    cases found : h.connection? id with
    | none =>
      apply Change.keep <;>
        simp [arrange, arrangeRegister, enrolls, offers, registerOffers, found]
    | some c =>
      apply Change.enroll id c found <;> simp [arrange, arrangeRegister, enrolls, offers, found]
  | join id =>
    cases open_ : h.admits with
    | false => apply Change.keep <;> simp [arrange, enrolls, offers, open_]
    | true =>
      cases found : h.connection? id with
      | none =>
        apply Change.keep <;>
          simp [arrange, arrangeRegister, enrolls, offers, registerOffers, open_, found]
      | some c =>
        apply Change.enroll id c found <;>
          simp [arrange, arrangeRegister, enrolls, offers, open_, found]
  | unregister id =>
    cases found : h.connection? id with
    | none =>
      apply Change.keep <;>
        simp [arrange, arrangeUnregister, enrolls, offers, unregisterOffers, found]
    | some c =>
      by_cases current : h.registry.lookup c.user c.device = some id
      · apply Change.withdraw id c found current <;>
          simp [arrange, arrangeUnregister, enrolls, offers, found, current]
      · apply Change.keep <;>
          simp [arrange, arrangeUnregister, enrolls, offers, unregisterOffers, found, current]
  | leave id =>
    cases open_ : h.admits with
    | false => apply Change.keep <;> simp [arrange, enrolls, offers, open_]
    | true =>
      cases found : h.connection? id with
      | none =>
        apply Change.keep <;>
          simp [arrange, arrangeUnregister, enrolls, offers, unregisterOffers, open_, found]
      | some c =>
        by_cases current : h.registry.lookup c.user c.device = some id
        · apply Change.withdraw id c found current <;>
            simp [arrange, arrangeUnregister, enrolls, offers, open_, found, current]
        · apply Change.keep <;>
            simp [arrange, arrangeUnregister, enrolls, offers, unregisterOffers, open_, found,
              current]
  | closeAll inside => exact .clear inside rfl
  | connect | text | forward | broadcast | streamStart | streamEnd | send | close | receive
  | dropReceiver | finish | halt | release =>
    exact .keep rfl rfl (by simp [Step.registers])

theorem Consistent.arrange (valid : Consistent h) (s : Step) : Consistent (h.arrange s) := by
  rcases change h s with ⟨registry, -, -⟩ | ⟨id, c, found, -, arranged, -⟩ |
    ⟨id, c, -, -, -, arranged, -⟩ | ⟨inside, rfl⟩
  · exact valid.of_ages (ages_arrange h s) registry
  · rw [arranged]
    exact valid.enroll found
  · rw [arranged]
    exact valid.withdraw id c
  · exact consistent_of_empty (registry_closeAll h inside)

theorem Consistent.step (valid : Consistent h) (s : Step) : Consistent (h.step s) :=
  (valid.arrange s).of_ages (ages_arrange_step h s) (registry_step h s)

theorem Consistent.run (valid : Consistent h) (steps : List Step) : Consistent (h.run steps) := by
  induction steps generalizing h with
  | nil => exact valid
  | cons s rest ih => exact ih (valid.step s)

theorem consistent_run (reports : Bool) (steps : List Step) :
    Consistent ((new reports).run steps) :=
  (consistent_of_empty rfl).run steps

end Hub
end SignalHub
