import Mathlib.Data.List.Basic
import SignalHub.Proofs.Hub.Registry

/-! Take any run and leave out everything that others did on their own account: a user's table,
queues, connections and answers stay as they were. The two runs agree on what belongs to the user
(`Agree`). A step of somebody else changes nothing of that (`Consistent.agree_step_of_other`), and a
step of the user's own or of nobody changes it in the same way on both sides (`Agree.step`). -/
namespace SignalHub.Hub

variable {h k : Hub} {user : Uuid} {id : ConnId} {c : Connection}

/-- The user on whose account a step is taken. To make a connection, to stop the hub and to close
all connections is nobody's step. -/
def Step.owner (h : Hub) : Step → Option Uuid
  | .register id | .unregister id | .join id | .leave id | .text id _ | .send id _ | .close id
  | .receive id | .dropReceiver id | .finish id => (h.connection? id).map Connection.user
  | .forward _ user _ _ | .broadcast _ user _ _ | .streamStart user _ | .streamEnd user _ =>
    some user
  | .connect .. | .halt | .release | .closeAll _ => none

/-- A run without the steps of other users. -/
def purge (user : Uuid) : Hub → List Step → List Step
  | _, [] => []
  | h, s :: rest =>
    (if (s.owner h).all (· == user) then [s] else []) ++ purge user (h.step s) rest

/-- The connection of this number, if it is the user's. -/
def own (h : Hub) (user : Uuid) (id : ConnId) : Option Connection :=
  (h.connection? id).filter fun c => c.user == user

/-- The user's steps and how they were answered. -/
def answersTo (user : Uuid) : Hub → List Step → List (Step × Answer)
  | _, [] => []
  | h, s :: rest =>
    (if s.owner h = some user then [(s, h.answer s)] else []) ++ answersTo user (h.step s) rest

/-- What was offered to the user's connections and what became of it. -/
def attemptsOn (user : Uuid) : Hub → List Step → List Attempt
  | _, [] => []
  | h, s :: rest =>
    ((h.attempts s).filter fun a => (h.own user a.conn).isSome) ++ attemptsOn user (h.step s) rest

/-- The hubs are the same as far as the user is concerned. -/
structure Agree (user : Uuid) (h k : Hub) : Prop where
  entry : h.registry.get? user = k.registry.get? user
  own : ∀ id, h.own user id = k.own user id
  length : h.connections.length = k.connections.length
  stopping : h.stopping = k.stopping
  alive : h.alive = k.alive

theorem Agree.refl (user : Uuid) (h : Hub) : Agree user h h := ⟨rfl, fun _ => rfl, rfl, rfl, rfl⟩

theorem Agree.symm (same : Agree user h k) : Agree user k h :=
  ⟨same.entry.symm, fun id => (same.own id).symm, same.length.symm, same.stopping.symm,
    same.alive.symm⟩

theorem Agree.trans {a b c : Hub} (first : Agree user a b) (second : Agree user b c) :
    Agree user a c :=
  ⟨first.entry.trans second.entry, fun id => (first.own id).trans (second.own id),
    first.length.trans second.length, first.stopping.trans second.stopping,
    first.alive.trans second.alive⟩

theorem Alike.agree (same : Alike h k) (user : Uuid) : Agree user h k where
  entry := by rw [same.registry]
  own id := by rw [Hub.own, Hub.own, same.connection?]
  length := by rw [same.connections]
  stopping := same.stopping
  alive := same.alive

theorem own_eq_some_iff : h.own user id = some c ↔ h.connection? id = some c ∧ c.user = user := by
  simp [own, Option.filter_eq_some_iff]

theorem own_update {f : Connection → Connection} (keeps : ∀ c, (f c).user = c.user)
    (id j : ConnId) :
    (h.update id f).own user j = if id = j then (h.own user j).map f else h.own user j := by
  unfold own
  rw [connection?_update]
  split
  · cases h.connection? j with
    | none => rfl
    | some c =>
      by_cases mine : c.user = user <;> simp [Option.filter, keeps, mine]
  · rfl

theorem Agree.update (same : Agree user h k) (id : ConnId) {f : Connection → Connection}
    (keeps : ∀ c, (f c).user = c.user) : Agree user (h.update id f) (k.update id f) where
  entry := same.entry
  own j := by rw [own_update keeps, own_update keeps, same.own]
  length := by rw [length_update, length_update, same.length]
  stopping := same.stopping
  alive := same.alive

theorem agree_update_of_other (other : h.own user id = none) {f : Connection → Connection}
    (keeps : ∀ c, (f c).user = c.user) : Agree user h (h.update id f) where
  entry := rfl
  own j := by
    rw [own_update keeps]
    split
    · rename_i same
      subst same
      rw [other]
      rfl
    · rfl
  length := (length_update h id f).symm
  stopping := rfl
  alive := rfl

theorem Agree.devices (same : Agree user h k) :
    h.registry.devices user = k.registry.devices user := by
  rw [Registry.devices, Registry.devices, same.entry]

theorem Agree.lookup (same : Agree user h k) (device : Uuid) :
    h.registry.lookup user device = k.registry.lookup user device := by
  rw [Registry.lookup, Registry.lookup, same.devices]

/-- Connections that are the user's, or nobody's, are the same on both sides. -/
theorem Agree.connection? (same : Agree user h k)
    (mine : ∀ c, h.connection? id = some c → c.user = user) :
    h.connection? id = k.connection? id := by
  cases found : h.connection? id with
  | some c =>
    have own := own_eq_some_iff.mpr ⟨found, mine c found⟩
    rw [same.own] at own
    exact (own_eq_some_iff.mp own).1.symm
  | none =>
    have beyond := List.getElem?_eq_none_iff.mp found
    rw [same.length] at beyond
    exact (List.getElem?_eq_none_iff.mpr beyond).symm

theorem Consistent.own_of_lookup (valid : Consistent h) {device : Uuid}
    (stored : h.registry.lookup user device = some id) (c : Connection)
    (found : h.connection? id = some c) : c.user = user := by
  obtain ⟨x, foundX, own, -⟩ := valid.keyed user device id stored
  obtain rfl := Option.some.inj (found.symm.trans foundX)
  exact own

theorem Agree.onlineDevices (same : Agree user h k) (valid : Consistent h) :
    h.onlineDevices user = k.onlineDevices user := by
  unfold Hub.onlineDevices
  rw [← same.devices]
  congr 1
  apply List.filterMap_congr
  intro p entry
  rw [same.connection? (valid.own_of_lookup ((valid.lookup_iff user p).mp entry))]

theorem Agree.isOnline (same : Agree user h k) (device : Uuid) :
    h.isOnline user device = k.isOnline user device := by
  rw [Hub.isOnline, Hub.isOnline, same.lookup]

theorem Agree.hasIdentity (same : Agree user h k) : h.hasIdentity user = k.hasIdentity user := by
  rw [Hub.hasIdentity, Hub.hasIdentity, same.entry]

theorem Agree.admits (same : Agree user h k) : h.admits = k.admits := by
  rw [Hub.admits, Hub.admits, same.stopping, same.alive]

theorem Agree.broadcastOffers (same : Agree user h k) (weak : Bool) (exclude : Option Uuid)
    (m : Message) :
    h.broadcastOffers weak user exclude m = k.broadcastOffers weak user exclude m := by
  rw [Hub.broadcastOffers, Hub.broadcastOffers, audience, audience, same.devices, same.alive]

theorem Agree.forwardOffers (same : Agree user h k) (weak : Bool) (target : Uuid) (m : Message) :
    h.forwardOffers weak user target m = k.forwardOffers weak user target m := by
  rw [Hub.forwardOffers, Hub.forwardOffers, same.lookup, same.alive]

theorem Agree.supersede (same : Agree user h k) (device : Uuid) :
    Agree user (h.supersede user device) (k.supersede user device) := by
  unfold Hub.supersede
  rw [← same.lookup]
  split
  · rename_i old stored
    have closed := same.update old fun c => c.ages_close.user
    exact ⟨closed.entry, closed.own, closed.length, closed.stopping, closed.alive⟩
  · exact same

theorem Agree.enroll (same : Agree user h k) (mine : c.user = user) :
    Agree user (h.enroll id c) (k.enroll id c) := by
  subst mine
  have marked := (same.supersede c.device).update id fun c => c.ages_markRegistered.user
  refine ⟨?_, marked.own, marked.length, marked.stopping, marked.alive⟩
  rw [registry_enroll, registry_enroll, Registry.get?_enroll, Registry.get?_enroll, same.devices,
    if_pos rfl, if_pos rfl]

theorem Agree.withdraw (same : Agree user h k) (mine : c.user = user) :
    Agree user (h.withdraw id c) (k.withdraw id c) := by
  subst mine
  have closed := same.update id fun c => c.ages_close.user
  refine ⟨?_, closed.own, closed.length, closed.stopping, closed.alive⟩
  rw [registry_withdraw, registry_withdraw, Registry.get?_expel, Registry.get?_expel, same.devices,
    if_pos rfl, if_pos rfl]

theorem Agree.arrangeRegister (same : Agree user h k)
    (mine : ∀ c, h.connection? id = some c → c.user = user) :
    Agree user (h.arrangeRegister id) (k.arrangeRegister id) := by
  unfold Hub.arrangeRegister
  rw [← same.connection? mine]
  cases found : h.connection? id with
  | none => exact same
  | some c => exact same.enroll (mine c found)

theorem Agree.arrangeUnregister (same : Agree user h k)
    (mine : ∀ c, h.connection? id = some c → c.user = user) :
    Agree user (h.arrangeUnregister id) (k.arrangeUnregister id) := by
  unfold Hub.arrangeUnregister
  rw [← same.connection? mine]
  cases found : h.connection? id with
  | none => exact same
  | some c =>
    obtain rfl := mine c found
    dsimp only
    rw [← same.lookup]
    split
    · exact same.withdraw rfl
    · exact same

theorem Agree.add (same : Agree user h k) (c : Connection) :
    Agree user (h.add c).1 (k.add c).1 where
  entry := same.entry
  own j := by
    have before := same.own j
    unfold Hub.own at *
    rw [connection?_add, connection?_add, same.length]
    split
    · rfl
    · exact before
  length := by simp [Hub.add, same.length]
  stopping := same.stopping
  alive := same.alive

theorem Consistent.mem_connections_of_own (valid : Consistent h) (mine : h.own user id = some c) :
    id ∈ h.registry.connections ↔ h.registry.lookup user c.device = some id := by
  obtain ⟨found, rfl⟩ := own_eq_some_iff.mp mine
  rw [valid.mem_connections_iff]
  constructor
  · rintro ⟨x, foundX, stored⟩
    obtain rfl := Option.some.inj (found.symm.trans foundX)
    exact stored
  · intro stored
    exact ⟨c, found, stored⟩

theorem own_closeAll (h : Hub) (inside : Bool) (user : Uuid) (j : ConnId) :
    (h.closeAll inside).1.own user j =
      if j ∈ h.registry.connections then (h.own user j).map Connection.close else h.own user j := by
  unfold own
  rw [connection?_closeAll]
  split
  · cases h.connection? j with
    | none => rfl
    | some c =>
      by_cases mine : c.user = user <;> simp [Option.filter, c.ages_close.user, mine]
  · rfl

/-- The user's own connections are closed on both sides or on neither. -/
theorem Agree.closeAll (same : Agree user h k) (valid : Consistent h) (valid' : Consistent k)
    (inside : Bool) : Agree user (h.closeAll inside).1 (k.closeAll inside).1 where
  entry := by rw [registry_closeAll, registry_closeAll]
  own j := by
    rw [own_closeAll, own_closeAll, same.own]
    cases mine : k.own user j with
    | none => simp
    | some c =>
      have stored := valid.mem_connections_of_own ((same.own j).trans mine)
      rw [same.lookup, ← valid'.mem_connections_of_own mine] at stored
      exact if_congr stored rfl rfl
  length := by rw [length_closeAll, length_closeAll, same.length]
  stopping := by rw [stopping_closeAll, stopping_closeAll, same.stopping]
  alive := by rw [alive_closeAll, alive_closeAll, same.alive]

/-- What a step is on, if it is on a connection. -/
theorem mine_of_kept {s : Step} (kept : ∀ other, s.owner h = some other → other = user)
    (on : s.owner h = (h.connection? id).map Connection.user) (c : Connection)
    (found : h.connection? id = some c) : c.user = user := by
  apply kept
  rw [on, found, Option.map_some]

theorem Agree.arrange (same : Agree user h k) (valid : Consistent h) (valid' : Consistent k)
    {s : Step} (kept : ∀ other, s.owner h = some other → other = user) :
    Agree user (h.arrange s) (k.arrange s) := by
  cases s with
  | register id => exact same.arrangeRegister (mine_of_kept kept rfl)
  | unregister id => exact same.arrangeUnregister (mine_of_kept kept rfl)
  | join id =>
    simp only [Hub.arrange, ← same.admits]
    split
    · exact same.arrangeRegister (mine_of_kept kept rfl)
    · exact same
  | leave id =>
    simp only [Hub.arrange, ← same.admits]
    split
    · exact same.arrangeUnregister (mine_of_kept kept rfl)
    · exact same
  | text id => exact same.update id fun c => c.ages_markActive.user
  | close id => exact same.update id fun c => c.ages_close.user
  | receive id => exact same.update id fun _ => rfl
  | dropReceiver id => exact same.update id fun _ => rfl
  | finish id => exact same.update id fun _ => rfl
  | connect user device info capacity => exact same.add _
  | closeAll inside => exact same.closeAll valid valid' inside
  | halt => exact ⟨same.entry, same.own, same.length, rfl, same.alive⟩
  | release => exact ⟨same.entry, same.own, same.length, rfl, rfl⟩
  | forward | broadcast | streamStart | streamEnd | send => exact same

theorem Agree.registerOffers (same : Agree user h k) (valid : Consistent h)
    (mine : ∀ c, h.connection? id = some c → c.user = user) :
    h.registerOffers id = k.registerOffers id := by
  unfold Hub.registerOffers
  rw [← same.connection? mine]
  cases found : h.connection? id with
  | none => rfl
  | some c =>
    obtain rfl := mine c found
    have enrolled : Agree c.user (h.enroll id c) (k.enroll id c) := same.enroll rfl
    dsimp only
    rw [enrolled.onlineDevices (valid.enroll found), enrolled.broadcastOffers]

theorem Agree.unregisterOffers (same : Agree user h k)
    (mine : ∀ c, h.connection? id = some c → c.user = user) :
    h.unregisterOffers id = k.unregisterOffers id := by
  unfold Hub.unregisterOffers
  rw [← same.connection? mine]
  cases found : h.connection? id with
  | none => rfl
  | some c =>
    obtain rfl := mine c found
    have withdrawn : Agree c.user (h.withdraw id c) (k.withdraw id c) := same.withdraw rfl
    dsimp only
    rw [withdrawn.broadcastOffers, same.lookup]

theorem Agree.textOffers (same : Agree user h k) (raw : String)
    (mine : ∀ c, h.connection? id = some c → c.user = user) :
    h.textOffers id raw = k.textOffers id raw := by
  unfold Hub.textOffers
  rw [← same.connection? mine]
  cases found : h.connection? id with
  | none => rfl
  | some c =>
    obtain rfl := mine c found
    dsimp only
    split
    · rfl
    · exact same.forwardOffers ..
    · rfl

theorem Agree.offers (same : Agree user h k) (valid : Consistent h) {s : Step}
    (kept : ∀ other, s.owner h = some other → other = user) : h.offers s = k.offers s := by
  cases s with
  | register id => exact same.registerOffers valid (mine_of_kept kept rfl)
  | unregister id => exact same.unregisterOffers (mine_of_kept kept rfl)
  | join id =>
    simp only [Hub.offers]
    rw [same.admits, same.registerOffers valid (mine_of_kept kept rfl)]
  | leave id =>
    simp only [Hub.offers]
    rw [same.admits, same.unregisterOffers (mine_of_kept kept rfl)]
  | text id raw => exact same.textOffers raw (mine_of_kept kept rfl)
  | forward weak other target m =>
    obtain rfl := kept other rfl
    exact same.forwardOffers weak target m
  | broadcast weak other exclude m =>
    obtain rfl := kept other rfl
    exact same.broadcastOffers weak exclude m
  | streamStart other start =>
    obtain rfl := kept other rfl
    exact same.broadcastOffers false none _
  | streamEnd other stream =>
    obtain rfl := kept other rfl
    exact same.broadcastOffers false none _
  | connect | send | close | receive | dropReceiver | finish | halt | release | closeAll => rfl

theorem Agree.sendAll (same : Agree user h k) (offers : Offers) :
    Agree user (h.sendAll offers) (k.sendAll offers) := by
  induction offers generalizing h k with
  | nil => exact same
  | cons p rest ih => exact ih (same.update p.1 fun c => (c.ages_offer p.2).user)

/-- A step of the user's own, or of nobody, has the same effect on both sides. -/
theorem Agree.step (same : Agree user h k) (valid : Consistent h) (valid' : Consistent k) {s : Step}
    (kept : ∀ other, s.owner h = some other → other = user) : Agree user (h.step s) (k.step s) := by
  have arranged := (same.arrange valid valid' kept).sendAll (h.offers s)
  have left := (step_alike h s).agree user
  have right := (step_alike k s).agree user
  rw [← same.offers valid kept] at right
  exact left.trans (arranged.trans right.symm)

theorem Consistent.own_of_audience (valid : Consistent h) {exclude : Option Uuid}
    (member : id ∈ h.audience user exclude) (c : Connection) (found : h.connection? id = some c) :
    c.user = user :=
  ((valid.mem_audience_iff_of_found found user exclude).mp member).1

theorem owner_of_registerOffer (valid : Consistent h) {p : ConnId × Outbound}
    (offer : p ∈ h.registerOffers id) (found : (h.arrangeRegister id).connection? p.1 = some c) :
    (h.connection? id).map Connection.user = some c.user := by
  unfold registerOffers at offer
  unfold arrangeRegister at found
  cases before : h.connection? id with
  | none => simp [before] at offer
  | some x =>
    simp only [before] at offer found
    rw [Option.map_some, Option.some.injEq]
    rcases List.mem_cons.mp offer with rfl | told
    · obtain ⟨x', found', aged⟩ := ages_enroll h id x id x before
      obtain rfl := Option.some.inj (found.symm.trans found')
      exact aged.user.symm
    · exact ((valid.enroll before).own_of_audience (of_mem_broadcastOffers told).1 c found).symm

theorem owner_of_unregisterOffer (valid : Consistent h) {p : ConnId × Outbound}
    (offer : p ∈ h.unregisterOffers id)
    (found : (h.arrangeUnregister id).connection? p.1 = some c) :
    (h.connection? id).map Connection.user = some c.user := by
  unfold unregisterOffers at offer
  unfold arrangeUnregister at found
  cases before : h.connection? id with
  | none => simp [before] at offer
  | some x =>
    simp only [before] at offer found
    rw [Option.map_some, Option.some.injEq]
    split at offer
    · rename_i current
      rw [if_pos current] at found
      exact ((valid.withdraw id x).own_of_audience (of_mem_broadcastOffers offer).1 c found).symm
    · simp at offer

theorem owner_of_textOffer (valid : Consistent h) {raw : String} {p : ConnId × Outbound}
    (offer : p ∈ h.textOffers id raw) (found : h.connection? p.1 = some c) :
    (h.connection? id).map Connection.user = some c.user := by
  obtain ⟨x, foundX, ⟨rfl, -⟩ | ⟨target, r, stored, -⟩⟩ := of_mem_textOffers offer
  · rw [found, Option.map_some]
  · rw [foundX, Option.map_some, valid.own_of_lookup stored c found]

/-- Whatever is offered to a connection is offered on its user's account. -/
theorem Consistent.owner_of_offer (valid : Consistent h) {s : Step} {p : ConnId × Outbound}
    (offer : p ∈ h.offers s) (found : (h.arrange s).connection? p.1 = some c) :
    s.owner h = some c.user := by
  cases s with
  | register id => exact owner_of_registerOffer valid offer found
  | unregister id => exact owner_of_unregisterOffer valid offer found
  | join id =>
    simp only [Hub.offers] at offer
    split at offer
    · rename_i admitted
      rw [Hub.arrange, if_pos admitted] at found
      exact owner_of_registerOffer valid offer found
    · simp at offer
  | leave id =>
    simp only [Hub.offers] at offer
    split at offer
    · rename_i admitted
      rw [Hub.arrange, if_pos admitted] at found
      exact owner_of_unregisterOffer valid offer found
    · simp at offer
  | text id raw =>
    have effect := connection?_update h id p.1 Connection.markActive
    cases before : h.connection? p.1 with
    | none =>
      change (h.update id Connection.markActive).connection? p.1 = some c at found
      simp [effect, before] at found
    | some x =>
      obtain ⟨x', found', aged⟩ := ages_update h id Connection.ages_markActive p.1 x before
      obtain rfl := Option.some.inj (found.symm.trans found')
      rw [aged.user]
      exact owner_of_textOffer valid offer before
  | forward weak user target m =>
    rw [valid.own_of_lookup (of_mem_forwardOffers offer).1 c found]
    rfl
  | broadcast weak user exclude m =>
    rw [valid.own_of_audience (of_mem_broadcastOffers offer).1 c found]
    rfl
  | streamStart user start =>
    rw [valid.own_of_audience (of_mem_broadcastOffers offer).1 c found]
    rfl
  | streamEnd user stream =>
    rw [valid.own_of_audience (of_mem_broadcastOffers offer).1 c found]
    rfl
  | send id o =>
    obtain rfl := List.mem_singleton.mp offer
    change (h.connection? id).map Connection.user = some c.user
    rw [show h.connection? id = some c from found, Option.map_some]
  | connect | close | receive | dropReceiver | finish | halt | release | closeAll =>
    simp [Hub.offers] at offer

theorem own_of_owner {other : Uuid} (apart : other ≠ user)
    (owner : (h.connection? id).map Connection.user = some other) : h.own user id = none := by
  cases found : h.connection? id with
  | none => simp [found] at owner
  | some c =>
    rw [found, Option.map_some, Option.some.injEq] at owner
    simp [own, found, Option.filter, owner, apart]

theorem Consistent.agree_supersede_of_other (valid : Consistent h) {other : Uuid}
    (apart : other ≠ user) (device : Uuid) : Agree user h (h.supersede other device) := by
  unfold supersede
  split
  · rename_i old stored
    obtain ⟨x, foundX, owner, -⟩ := valid.keyed other device old stored
    have foreign := own_of_owner apart (by rw [foundX, Option.map_some, owner])
    have closed := agree_update_of_other foreign fun c => c.ages_close.user
    exact ⟨closed.entry, closed.own, closed.length, closed.stopping, closed.alive⟩
  · exact .refl user h

theorem Consistent.agree_enroll_of_other (valid : Consistent h) (found : h.connection? id = some c)
    (apart : c.user ≠ user) : Agree user h (h.enroll id c) := by
  have superseded := valid.agree_supersede_of_other apart c.device
  have foreign := own_of_owner apart (congrArg (Option.map Connection.user) found)
  rw [superseded.own] at foreign
  have marked := superseded.trans
    (agree_update_of_other foreign fun c => c.ages_markRegistered.user)
  refine ⟨?_, marked.own, marked.length, marked.stopping, marked.alive⟩
  rw [registry_enroll, Registry.get?_enroll, if_neg (Ne.symm apart)]

theorem agree_withdraw_of_other (found : h.connection? id = some c) (apart : c.user ≠ user) :
    Agree user h (h.withdraw id c) := by
  have foreign := own_of_owner apart (congrArg (Option.map Connection.user) found)
  have closed := agree_update_of_other foreign fun c => c.ages_close.user
  refine ⟨?_, closed.own, closed.length, closed.stopping, closed.alive⟩
  rw [registry_withdraw, Registry.get?_expel, if_neg (Ne.symm apart)]

theorem Consistent.agree_arrangeRegister_of_other (valid : Consistent h) {other : Uuid}
    (apart : other ≠ user) (owner : (h.connection? id).map Connection.user = some other) :
    Agree user h (h.arrangeRegister id) := by
  unfold arrangeRegister
  cases found : h.connection? id with
  | none => exact .refl user h
  | some c =>
    rw [found, Option.map_some, Option.some.injEq] at owner
    exact valid.agree_enroll_of_other found (by rwa [owner])

theorem agree_arrangeUnregister_of_other {other : Uuid} (apart : other ≠ user)
    (owner : (h.connection? id).map Connection.user = some other) :
    Agree user h (h.arrangeUnregister id) := by
  unfold arrangeUnregister
  cases found : h.connection? id with
  | none => exact .refl user h
  | some c =>
    rw [found, Option.map_some, Option.some.injEq] at owner
    dsimp only
    split
    · exact agree_withdraw_of_other found (by rwa [owner])
    · exact .refl user h

theorem Consistent.agree_arrange_of_other (valid : Consistent h) {s : Step} {other : Uuid}
    (owner : s.owner h = some other) (apart : other ≠ user) : Agree user h (h.arrange s) := by
  cases s with
  | register id => exact valid.agree_arrangeRegister_of_other apart owner
  | unregister id => exact agree_arrangeUnregister_of_other apart owner
  | join id =>
    simp only [Hub.arrange]
    split
    · exact valid.agree_arrangeRegister_of_other apart owner
    · exact .refl user h
  | leave id =>
    simp only [Hub.arrange]
    split
    · exact agree_arrangeUnregister_of_other apart owner
    · exact .refl user h
  | text id =>
    exact agree_update_of_other (own_of_owner apart owner) fun c => c.ages_markActive.user
  | close id => exact agree_update_of_other (own_of_owner apart owner) fun c => c.ages_close.user
  | receive id => exact agree_update_of_other (own_of_owner apart owner) fun _ => rfl
  | dropReceiver id => exact agree_update_of_other (own_of_owner apart owner) fun _ => rfl
  | finish id => exact agree_update_of_other (own_of_owner apart owner) fun _ => rfl
  | forward | broadcast | streamStart | streamEnd | send => exact .refl user h
  | connect | halt | release | closeAll => simp [Step.owner] at owner

theorem agree_sendAll_of_other {offers : Offers} (others : ∀ p ∈ offers, h.own user p.1 = none) :
    Agree user h (h.sendAll offers) := by
  induction offers generalizing h with
  | nil => exact .refl user h
  | cons p rest ih =>
    have sent : Agree user h (h.send p.1 p.2) :=
      agree_update_of_other (others p List.mem_cons_self) fun c => (c.ages_offer p.2).user
    apply sent.trans
    apply ih
    intro q member
    rw [← sent.own]
    exact others q (List.mem_cons_of_mem p member)

theorem Consistent.agree_step_of_other (valid : Consistent h) {s : Step} {other : Uuid}
    (owner : s.owner h = some other) (apart : other ≠ user) : Agree user h (h.step s) := by
  have arranged := valid.agree_arrange_of_other owner apart
  have offered : Agree user (h.arrange s) ((h.arrange s).sendAll (h.offers s)) := by
    apply agree_sendAll_of_other
    intro p offer
    cases mine : (h.arrange s).own user p.1 with
    | none => rfl
    | some c =>
      obtain ⟨found, rfl⟩ := own_eq_some_iff.mp mine
      exact absurd (Option.some.inj (owner.symm.trans (valid.owner_of_offer offer found))) apart
  exact arranged.trans (offered.trans ((step_alike h s).agree user).symm)

theorem Agree.verdict (same : Agree user h k)
    (mine : ∀ c, h.connection? id = some c → c.user = user) : h.verdict id = k.verdict id := by
  rw [Hub.verdict, Hub.verdict, same.connection? mine]

theorem Agree.trials (same : Agree user h k) {offers : Offers}
    (mine : ∀ p ∈ offers, ∀ c, h.connection? p.1 = some c → c.user = user) :
    h.trials offers = k.trials offers := by
  induction offers generalizing h k with
  | nil => rfl
  | cons p rest ih =>
    have sent := same.update p.1 fun c => (c.ages_offer p.2).user
    have later : ∀ q ∈ rest, ∀ c, (h.send p.1 p.2).connection? q.1 = some c → c.user = user := by
      intro q member c found
      have before := mine q (List.mem_cons_of_mem p member)
      rw [connection?_send] at found
      split at found
      · obtain ⟨x, foundX, rfl⟩ := Option.map_eq_some_iff.mp found
        exact (x.ages_offer p.2).user.trans (before x foundX)
      · exact before c found
    have tail := ih sent later
    rw [Hub.trials, Hub.trials, same.verdict (mine p List.mem_cons_self)]
    exact congrArg _ tail

theorem Agree.attempts (same : Agree user h k) (valid : Consistent h) (valid' : Consistent k)
    {s : Step} (kept : ∀ other, s.owner h = some other → other = user) :
    h.attempts s = k.attempts s := by
  rw [Hub.attempts, Hub.attempts, ← same.offers valid kept]
  apply (same.arrange valid valid' kept).trials
  intro p offer c found
  exact kept c.user (valid.owner_of_offer offer found)

theorem Consistent.attempts_of_other (valid : Consistent h) {s : Step} {other : Uuid}
    (owner : s.owner h = some other) (apart : other ≠ user) :
    ((h.attempts s).filter fun a => (h.own user a.conn).isSome) = [] := by
  rw [List.filter_eq_nil_iff]
  intro a attempted mine
  obtain ⟨c, own⟩ := Option.isSome_iff_exists.mp mine
  obtain ⟨found, rfl⟩ := own_eq_some_iff.mp own
  obtain ⟨c', found', aged⟩ := ages_arrange h s a.conn c found
  have account := valid.owner_of_offer (mem_trials attempted) found'
  rw [aged.user] at account
  exact apart (Option.some.inj (owner.symm.trans account))

theorem Agree.owner (same : Agree user h k) {s : Step}
    (kept : ∀ other, s.owner h = some other → other = user) : s.owner h = s.owner k := by
  cases s with
  | register id | unregister id | join id | leave id | text id | send id | close id | receive id
  | dropReceiver id | finish id =>
    exact congrArg (Option.map Connection.user) (same.connection? (mine_of_kept kept rfl))
  | connect | forward | broadcast | streamStart | streamEnd | halt | release | closeAll => rfl

theorem unregister_snd (h : Hub) (id : ConnId) :
    (h.unregister id).2 =
      (h.connection? id).any fun c => h.registry.lookup c.user c.device == some id := by
  unfold unregister
  cases h.connection? id with
  | none => rfl
  | some c =>
    dsimp only
    split
    · rename_i current
      simp [current]
    · rename_i stale
      simpa using stale

theorem join_snd (h : Hub) (id : ConnId) : (h.join id).2 = h.admits := by
  cases admitted : h.admits <;> simp [join, admitted]

theorem broadcast_count_congr (weak : Bool) {exclude : Option Uuid} {m : Message}
    (tried : h.trials (h.broadcastOffers weak user exclude m) =
      k.trials (k.broadcastOffers weak user exclude m)) :
    (h.broadcastVia weak user exclude m).2 = (k.broadcastVia weak user exclude m).2 := by
  rw [broadcastVia_snd, broadcastVia_snd, tried]

/-- The user's steps are answered alike on both sides. -/
theorem Agree.answer (same : Agree user h k) (valid : Consistent h) (valid' : Consistent k)
    {s : Step} (kept : s.owner h = some user) : h.answer s = k.answer s := by
  have alone (other : Uuid) (owner : s.owner h = some other) : other = user :=
    Option.some.inj (owner.symm.trans kept)
  have attempts := same.attempts valid valid' alone
  cases s with
  | unregister id =>
    have found := same.connection? (mine_of_kept alone rfl)
    simp only [Hub.answer, unregister_snd, ← found]
    cases owned : h.connection? id with
    | none => rfl
    | some c =>
      obtain rfl := mine_of_kept alone rfl c owned
      rw [Option.any_some, Option.any_some, same.lookup]
  | join id => rw [Hub.answer, Hub.answer, join_snd, join_snd, same.admits]
  | forward weak other target m =>
    rw [Hub.answer, Hub.answer, forwardVia_snd, forwardVia_snd]
    exact congrArg (fun tried => Answer.flag (tried.any fun a => a.verdict == .queued)) attempts
  | broadcast weak => exact congrArg Answer.count (broadcast_count_congr weak attempts)
  | streamStart | streamEnd => exact congrArg Answer.count (broadcast_count_congr false attempts)
  | send id o => rw [Hub.answer, Hub.answer, same.verdict (mine_of_kept alone rfl)]
  | close id => rw [Hub.answer, Hub.answer, same.connection? (mine_of_kept alone rfl)]
  | receive id => rw [Hub.answer, Hub.answer, same.connection? (mine_of_kept alone rfl)]
  | register | leave | text | dropReceiver | finish => rfl
  | connect | halt | release | closeAll => simp [Step.owner] at kept

theorem Agree.purge (same : Agree user h k) (valid : Consistent h) (valid' : Consistent k)
    (steps : List Step) :
    Agree user (h.run steps) (k.run (h.purge user steps)) ∧
      h.answersTo user steps = k.answersTo user (h.purge user steps) ∧
      h.attemptsOn user steps = k.attemptsOn user (h.purge user steps) := by
  induction steps generalizing h k with
  | nil => exact ⟨same, rfl, rfl⟩
  | cons s rest ih =>
    by_cases kept : (s.owner h).all (· == user) = true
    · have alone (other : Uuid) (owner : s.owner h = some other) : other = user := by
        simpa [owner] using kept
      obtain ⟨final, answers, attempts⟩ :=
        ih (same.step valid valid' alone) (valid.step s) (valid'.step s)
      have purged : h.purge user (s :: rest) = s :: (h.step s).purge user rest := by
        rw [Hub.purge, if_pos kept]
        rfl
      rw [purged]
      refine ⟨final, ?_, ?_⟩
      · rw [answersTo, answersTo, answers, ← same.owner alone]
        split
        · rename_i mine
          rw [same.answer valid valid' mine]
        · rfl
      · rw [attemptsOn, attemptsOn, attempts, same.attempts valid valid' alone]
        simp only [same.own]
    · obtain ⟨other, owner, apart⟩ : ∃ other, s.owner h = some other ∧ other ≠ user := by
        cases owner : s.owner h with
        | none => simp [owner] at kept
        | some other => exact ⟨other, rfl, by simpa [owner] using kept⟩
      have unmoved := (valid.agree_step_of_other owner apart).symm.trans same
      obtain ⟨final, answers, attempts⟩ := ih unmoved (valid.step s) valid'
      have purged : h.purge user (s :: rest) = (h.step s).purge user rest := by
        rw [Hub.purge, if_neg kept]
        rfl
      rw [purged]
      refine ⟨final, ?_, ?_⟩
      · rw [answersTo, if_neg (by simp [owner, apart]), answers]
        rfl
      · rw [attemptsOn, valid.attempts_of_other owner apart, attempts]
        rfl

/-- Leave out of any run whatever others did on their own account, and nothing changes for the user:
not the table of devices, not a queue or a connection, not what became of any offer, not the answer
to any step, and not what can be asked about who is online. -/
theorem others_leave_no_trace (reports : Bool) (user : Uuid) (steps : List Step) :
    let start := new reports
    let kept := start.purge user steps
    let h := start.run steps
    let k := start.run kept
    h.registry.get? user = k.registry.get? user ∧
    (∀ id, h.own user id = k.own user id) ∧
    start.attemptsOn user steps = start.attemptsOn user kept ∧
    start.answersTo user steps = start.answersTo user kept ∧
    h.onlineDevices user = k.onlineDevices user ∧
    (∀ device, h.isOnline user device = k.isOnline user device) ∧
    h.hasIdentity user = k.hasIdentity user := by
  intro start kept h k
  have empty : Consistent start := consistent_of_empty rfl
  obtain ⟨same, answers, attempts⟩ := (Agree.refl user start).purge empty empty steps
  exact ⟨same.entry, same.own, attempts, answers, same.onlineDevices (empty.run steps),
    same.isOnline, same.hasIdentity⟩

/-- Two users whose phones have one identifier: only one of them is left. -/
example :
    let mine := Uuid.repeated 0
    let other := Uuid.repeated 1
    let phone := Device.Info.plain (.repeated 2) "phone"
    let made : List Step := [.connect mine phone.id phone 4, .connect other phone.id phone 4]
    (new false).purge mine (made ++ [.register 0, .register 1, .forward false other phone.id .reply,
      .close 1, .unregister 0, .closeAll true]) =
      made ++ [.register 0, .unregister 0, .closeAll true] := by
  decide +kernel

end SignalHub.Hub
