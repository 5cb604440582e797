import SignalHub.Server.Upgrade
import SignalHub.Proofs.World.Still

/-! A granted upgrade is carried out by a task of its own, which makes the connection, has it
registered and starts to serve it, one step at a time. Meanwhile requests come in, callers, pumps
and the clock go on, and the directory changes. Since nobody else makes connections or starts to
serve them, each connection belongs to one upgrade (`Tended`). -/
namespace SignalHub

open Device (Record)

namespace Server

/-- How far an upgrade has come. -/
inductive Upgrade.State where
  | granted
  | made (conn : ConnId)
  | calling (conn : ConnId) (call : Nat)
  | serving (conn : ConnId)
  | dropped (conn : ConnId)
  deriving DecidableEq, Repr

def Upgrade.State.conn? : Upgrade.State → Option ConnId
  | .granted => none
  | .made conn | .calling conn _ | .serving conn | .dropped conn => some conn

/-- A websocket that was granted to a user for a device. -/
structure Upgrade where
  user : Uuid
  record : Record
  state : Upgrade.State
  deriving DecidableEq, Repr

namespace Upgrade

/-- The next step of an upgrade: it makes the connection, begins a call to register it, puts the
command into the queue as soon as there is room, and when the call is answered it starts to serve the
connection, or drops it. -/
def next (u : Upgrade) (w : World) : World × State :=
  match u.state with
  | .granted =>
    let (w, conn) := w.connect u.user u.record.id u.record.onlineSnapshot w.settings.capacity
    (w, .made conn)
  | .made conn =>
    ({ w with desk := w.desk.beginCall (.register conn) }, .calling conn w.desk.calls.length)
  | .calling conn call =>
    match w.desk.calls[call]?.map Call.stage with
    | some .posting => ({ w with desk := w.desk.post call }, .calling conn call)
    | some .accepted => (w.attend conn true, .serving conn)
    | some .refused => (w, .dropped conn)
    | _ => (w, .calling conn call)
  | state => (w, state)

/-- The connection is the user's, of the device in the record, and shows itself as the record says. -/
structure Bears (u : Upgrade) (c : Connection) : Prop where
  user : c.user = u.user
  device : c.device = u.record.id
  info : c.info = u.record.onlineSnapshot

theorem Bears.of_ages {u : Upgrade} {c c' : Connection} (bears : u.Bears c) (aged : c.Ages c') :
    u.Bears c' :=
  ⟨aged.user.trans bears.user, aged.device.trans bears.device, aged.info.trans bears.info⟩

end Upgrade

/-- The connections that upgrades have made. -/
def conns (upgrades : List Upgrade) : List ConnId := upgrades.filterMap fun u => u.state.conn?

/-- Each connection belongs to an upgrade, no two upgrades have one connection, and a connection is
served only when its upgrade has come that far. -/
structure Tended (upgrades : List Upgrade) (w : World) : Prop where
  sound : World.Sound w
  valid : Hub.Consistent w.hub
  known : ∀ conn ∈ conns upgrades, (w.hub.connection? conn).isSome = true
  apart : (conns upgrades).Nodup
  served : ∀ conn, w.isServed conn = true → ∃ u ∈ upgrades, u.state = .serving conn
  owned : ∀ id c, w.hub.connection? id = some c →
    ∃ u ∈ upgrades, u.state.conn? = some id ∧ u.Bears c

variable {upgrades front back : List Upgrade} {w w' : World} {u : Upgrade} {k : Nat}
  {state : Upgrade.State}

theorem conns_middle (front : List Upgrade) (u : Upgrade) (back : List Upgrade) :
    conns (front ++ u :: back) = conns front ++ (u.state.conn?.toList ++ conns back) := by
  cases has : u.state.conn? <;> simp [conns, has]

/-- When one upgrade goes on, what is so of some upgrade is so still, if it is of that one. -/
theorem exists_middle {P : Upgrade → Prop} {u' : Upgrade} (keeps : P u → P u')
    (some_ : ∃ v ∈ front ++ u :: back, P v) : ∃ v ∈ front ++ u' :: back, P v := by
  obtain ⟨v, member, holds⟩ := some_
  rcases List.mem_append.mp member with early | late
  · exact ⟨v, List.mem_append_left _ early, holds⟩
  · rcases List.mem_cons.mp late with rfl | later
    · exact ⟨u', List.mem_append_right _ List.mem_cons_self, keeps holds⟩
    · exact ⟨v, List.mem_append_right _ (List.mem_cons_of_mem u' later), holds⟩

namespace Tended

theorem still (tended : Tended upgrades w) (still : World.Still w w') : Tended upgrades w' where
  sound := still.sound tended.sound
  valid := still.valid tended.valid
  known conn member := still.aged.known (tended.known conn member)
  apart := tended.apart
  served conn served := tended.served conn (still.isServed conn ▸ served)
  owned id c found := by
    obtain ⟨x, before, aged⟩ := still.known id c found
    obtain ⟨u, member, has, bears⟩ := tended.owned id x before
    exact ⟨u, member, has, bears.of_ages aged⟩

theorem grant (tended : Tended upgrades w) (user : Uuid) (record : Record) :
    Tended (upgrades ++ [⟨user, record, .granted⟩]) w := by
  have same : conns (upgrades ++ [⟨user, record, .granted⟩]) = conns upgrades := by
    rw [conns_middle]
    exact List.append_nil _
  exact {
    sound := tended.sound
    valid := tended.valid
    known := same ▸ tended.known
    apart := same ▸ tended.apart
    served := fun conn served => by
      obtain ⟨u, member, serving⟩ := tended.served conn served
      exact ⟨u, List.mem_append_left _ member, serving⟩
    owned := fun id c found => by
      obtain ⟨u, member, bears⟩ := tended.owned id c found
      exact ⟨u, List.mem_append_left _ member, bears⟩ }

/-- An upgrade goes on and has the connection that it had. -/
theorem advance (tended : Tended (front ++ u :: back) w) (same : state.conn? = u.state.conn?)
    (kept : ∀ conn, u.state = .serving conn → state = .serving conn) :
    Tended (front ++ { u with state } :: back) w := by
  have conns_ : conns (front ++ { u with state } :: back) = conns (front ++ u :: back) := by
    rw [conns_middle, conns_middle, same]
  exact {
    sound := tended.sound
    valid := tended.valid
    known := conns_ ▸ tended.known
    apart := conns_ ▸ tended.apart
    served := fun conn served => exists_middle (kept conn) (tended.served conn served)
    owned := fun id c found => by
      refine exists_middle (fun ⟨has, bears⟩ => ⟨same.trans has, ?_⟩) (tended.owned id c found)
      exact ⟨bears.user, bears.device, bears.info⟩ }

/-- An upgrade makes its connection. -/
theorem connect (tended : Tended (front ++ u :: back) w) (granted : u.state = .granted)
    (capacity : Nat) :
    Tended (front ++ { u with state := .made w.hub.connections.length } :: back)
      (w.connect u.user u.record.id u.record.onlineSnapshot capacity).1 := by
  let new := Connection.new u.user u.record.id u.record.onlineSnapshot capacity
  let u' : Upgrade := { u with state := .made w.hub.connections.length }
  have after (conn : ConnId) : (w.hub.add new).1.connection? conn =
      if conn = w.hub.connections.length then some new else w.hub.connection? conn :=
    Hub.connection?_add w.hub new conn
  have more : (conns (front ++ u' :: back)).Perm
      (w.hub.connections.length :: conns (front ++ u :: back)) := by
    rw [conns_middle, conns_middle, granted]
    exact List.perm_middle
  exact {
    sound := tended.sound.connect ..
    valid := tended.valid.step (.connect u.user u.record.id u.record.onlineSnapshot capacity)
    known := fun conn member => by
      change ((w.hub.add new).1.connection? conn).isSome = true
      rw [after]
      split
      · rfl
      · rename_i other
        rcases List.mem_cons.mp (more.mem_iff.mp member) with fresh | old
        · exact absurd fresh other
        · exact tended.known conn old
    apart := by
      refine more.nodup_iff.mpr (List.nodup_cons.mpr ⟨fun member => ?_, tended.apart⟩)
      exact World.fresh_of_known (tended.known _ member) rfl
    served := fun conn served => by
      refine exists_middle (fun serving => ?_) (tended.served conn served)
      rw [granted] at serving
      cases serving
    owned := fun id c found => by
      have found : (w.hub.add new).1.connection? id = some c := found
      rw [after] at found
      split at found
      · rename_i same
        obtain rfl := Option.some.inj found
        refine ⟨u', List.mem_append_right _ List.mem_cons_self, congrArg some same.symm, ?_⟩
        exact ⟨rfl, rfl, rfl⟩
      · refine exists_middle (fun ⟨has, _⟩ => ?_) (tended.owned id c found)
        rw [granted] at has
        cases has }

/-- A connection that its upgrade does not serve yet is served by nobody. -/
theorem free (tended : Tended (front ++ u :: back) w) {conn : ConnId}
    (has : u.state.conn? = some conn) (early : u.state ≠ .serving conn) :
    w.isServed conn = false := by
  refine Bool.eq_false_iff.mpr fun served => ?_
  obtain ⟨v, member, serving⟩ := tended.served conn served
  have other (vs : List Upgrade) (there : v ∈ vs) : conn ∈ conns vs :=
    List.mem_filterMap.mpr ⟨v, there, by rw [serving]; rfl⟩
  have once := tended.apart
  rw [conns_middle, has] at once
  have once := List.perm_middle.nodup_iff.mp once
  rw [List.nodup_cons, List.mem_append, not_or] at once
  rcases List.mem_append.mp member with front | later
  · exact once.1.1 (other _ front)
  · rcases List.mem_cons.mp later with rfl | back
    · exact early serving
    · exact once.1.2 (other _ back)

/-- An upgrade starts to serve its connection. -/
theorem attend (tended : Tended (front ++ u :: back) w) {conn : ConnId}
    (has : u.state.conn? = some conn) (early : u.state ≠ .serving conn) (answers : Bool) :
    Tended (front ++ { u with state := .serving conn } :: back) (w.attend conn answers) := by
  have known : (w.hub.connection? conn).isSome = true := by
    refine tended.known conn (List.mem_filterMap.mpr ⟨u, ?_, has⟩)
    exact List.mem_append_right _ List.mem_cons_self
  have gone : Tended (front ++ { u with state := .serving conn } :: back) w := by
    refine tended.advance has.symm fun other serving => ?_
    rw [serving] at has
    rw [Option.some.inj has]
  refine { gone.still (World.still_attend w conn answers) with
    sound := tended.sound.attend known (tended.free has early) answers
    served := fun other served => ?_ }
  rw [World.isServed_iff, World.attend, List.map_append, List.mem_append] at served
  rcases served with old | new
  · exact gone.served other ((w.isServed_iff other).mpr old)
  · rw [List.mem_singleton.mp new]
    exact ⟨_, List.mem_append_right _ List.mem_cons_self, rfl⟩

/-- Whatever an upgrade does next, connections belong to upgrades. -/
theorem next (tended : Tended (front ++ u :: back) w) :
    Tended (front ++ { u with state := (u.next w).2 } :: back) (u.next w).1 := by
  have waits {state : Upgrade.State} (same : u.state = state) :
      Tended (front ++ { u with state } :: back) w := same ▸ tended
  rw [Upgrade.next]
  cases reached : u.state with
  | granted => exact tended.connect reached _
  | made conn =>
    have called : World.Still w { w with desk := w.desk.beginCall (.register conn) } :=
      .of_same rfl rfl rfl
    refine (tended.still called).advance ?_ ?_
    · rw [reached]
      rfl
    · rw [reached]
      exact nofun
  | calling conn call =>
    have has : u.state.conn? = some conn := by rw [reached]; rfl
    have early : u.state ≠ .serving conn := by rw [reached]; exact nofun
    dsimp only
    split
    · have same : (w.desk.post call).hub = w.desk.hub := Desk.hub_post w.desk call
      have posted : World.Still w { w with desk := w.desk.post call } :=
        .of_same (congrArg Hub.connections same) (congrArg Hub.registry same) rfl
      exact (waits reached).still posted
    · exact tended.attend has early true
    · refine tended.advance has.symm ?_
      rw [reached]
      exact nofun
    · exact waits reached
  | serving conn | dropped conn => exact waits reached

end Tended

/-- A server with the upgrades that it has granted. -/
structure Service where
  server : Server
  upgrades : List Upgrade

namespace Service

/-- Requests come in and upgrades go on. Meanwhile callers, pumps and the clock move, the directory is
told of changes, and it changes and fails on its own. -/
inductive Event where
  | request (moment : Moment) (upgradable : Bool) (r : Http.Request)
  | upgrade (k : Nat)
  | move (m : World.Move)
  | tell (place : Nat)
  | directory (directory : Directory) (fails : Bool)

def new (settings : Settings) (directory : Directory) (reports : Bool) (secret : String)
    (ice : IceServers) : Service :=
  ⟨⟨.new settings directory reports, secret, ice⟩, []⟩

def world (s : Service) : World := s.server.world

def setWorld (s : Service) (w : World) : Service := { s with server.world := w }

/-- The upgrade that an answer grants. -/
def granted : Answer → List Upgrade
  | .websocket user record => [⟨user, record, .granted⟩]
  | .response _ => []

def act (s : Service) : Event → Service
  | .request moment upgradable r =>
    { s with upgrades := s.upgrades ++ granted (s.server.answer moment upgradable r) }
  | .upgrade k =>
    match s.upgrades[k]? with
    | some u =>
      let (w, state) := u.next s.world
      { s.setWorld w with upgrades := s.upgrades.set k { u with state } }
    | none => s
  | .move m => if m.opens then s else s.setWorld (s.world.proceed m)
  | .tell place => s.setWorld (s.world.tell place)
  | .directory directory fails => s.setWorld { s.world with directory, directoryFails := fails }

def run (s : Service) (events : List Event) : Service := events.foldl act s

theorem run_cons (s : Service) (e : Event) (rest : List Event) :
    s.run (e :: rest) = (s.act e).run rest := rfl

theorem run_append (s : Service) (first rest : List Event) :
    s.run (first ++ rest) = (s.run first).run rest := List.foldl_append

variable {s : Service} {e : Event}

/-- An upgrade among others, and what is left when it goes on. -/
theorem split_of_found (found : upgrades[k]? = some u) : ∃ front back,
    upgrades = front ++ u :: back ∧ ∀ u', upgrades.set k u' = front ++ u' :: back := by
  obtain ⟨bound, here⟩ := List.getElem?_eq_some_iff.mp found
  refine ⟨upgrades.take k, upgrades.drop (k + 1), ?_, fun u' => ?_⟩
  · rw [← here, ← List.drop_eq_getElem_cons bound, List.take_append_drop]
  · rw [List.set_eq_take_append_cons_drop, if_pos bound]

theorem act_upgrade (found : s.upgrades[k]? = some u) : s.act (.upgrade k) =
    { s.setWorld (u.next s.world).1 with
      upgrades := s.upgrades.set k { u with state := (u.next s.world).2 } } := by
  simp only [act, found]

theorem act_refused {moment : Moment} {upgradable : Bool} {r : Http.Request}
    {response : Http.Response} (refused : s.server.answer moment upgradable r = .response response) :
    s.act (.request moment upgradable r) = s := by
  rw [act, refused, granted, List.append_nil]

theorem act_granted {moment : Moment} {upgradable : Bool} {r : Http.Request} {user : Uuid}
    {record : Record} (answered : s.server.answer moment upgradable r = .websocket user record) :
    s.act (.request moment upgradable r) =
      ⟨s.server, s.upgrades ++ [⟨user, record, .granted⟩]⟩ := by
  rw [act, answered, granted]

/-- A run goes on with the upgrade that its first request is granted. -/
theorem run_granted {moment : Moment} {upgradable : Bool} {r : Http.Request} {user : Uuid}
    {record : Record} (answered : s.server.answer moment upgradable r = .websocket user record)
    (events : List Event) : s.run (.request moment upgradable r :: events) =
      (⟨s.server, s.upgrades ++ [⟨user, record, .granted⟩]⟩ : Service).run events := by
  rw [run_cons, act_granted answered]

theorem tended_new (settings : Settings) (directory : Directory) (reports : Bool) :
    Tended [] (.new settings directory reports) where
  sound := World.sound_new settings directory reports
  valid := Hub.consistent_run reports []
  known _ member := absurd member List.not_mem_nil
  apart := List.nodup_nil
  served _ served := by cases served
  owned _ _ found := by cases found

theorem tended_act (tended : Tended s.upgrades s.world) (e : Event) :
    Tended (s.act e).upgrades (s.act e).world := by
  cases e with
  | request moment upgradable r =>
    rw [act]
    cases s.server.answer moment upgradable r with
    | response => exact (List.append_nil s.upgrades).symm ▸ tended
    | websocket user record => exact tended.grant user record
  | upgrade k =>
    cases found : s.upgrades[k]? with
    | none =>
      have same : s.act (.upgrade k) = s := by simp only [act, found]
      rw [same]
      exact tended
    | some u =>
      obtain ⟨front, back, split, gone⟩ := split_of_found found
      rw [act_upgrade found]
      dsimp only
      rw [gone]
      exact (split ▸ tended).next
  | move m =>
    rw [act]
    split
    · exact tended
    · rename_i others
      exact tended.still (World.still_proceed tended.sound (Bool.eq_false_iff.mpr others))
  | tell place => exact tended.still (World.still_tell s.world place)
  | directory => exact tended.still (.of_same rfl rfl rfl)

theorem tended_run (tended : Tended s.upgrades s.world) (events : List Event) :
    Tended (s.run events).upgrades (s.run events).world := by
  induction events generalizing s with
  | nil => exact tended
  | cons e rest ih => exact ih (tended_act tended e)

/-- An upgrade was there before, or has just been granted. -/
theorem origin_act (member : u ∈ (s.act e).upgrades) :
    (∃ v ∈ s.upgrades, v.user = u.user ∧ v.record = u.record) ∨
      ∃ moment upgradable r, e = .request moment upgradable r ∧
        s.server.answer moment upgradable r = .websocket u.user u.record := by
  have old (there : u ∈ s.upgrades) : ∃ v ∈ s.upgrades, v.user = u.user ∧ v.record = u.record :=
    ⟨u, there, rfl, rfl⟩
  cases e with
  | request moment upgradable r =>
    rcases List.mem_append.mp member with there | new
    · exact .inl (old there)
    · refine .inr ⟨moment, upgradable, r, rfl, ?_⟩
      cases answered : s.server.answer moment upgradable r with
      | response => simp [granted, answered] at new
      | websocket user record =>
        rw [answered] at new
        rw [List.mem_singleton.mp new]
  | upgrade k =>
    cases found : s.upgrades[k]? with
    | none =>
      simp only [act, found] at member
      exact .inl (old member)
    | some v =>
      rw [act_upgrade found] at member
      rcases List.mem_or_eq_of_mem_set member with there | rfl
      · exact .inl (old there)
      · exact .inl ⟨v, List.mem_of_getElem? found, rfl, rfl⟩
  | move m =>
    rw [act] at member
    split at member <;> exact .inl (old member)
  | tell | directory => exact .inl (old member)

/-- Some run leads from one service to the other. -/
def Leads (s s' : Service) : Prop := ∃ events, s.run events = s'

end Service

end Server
end SignalHub
