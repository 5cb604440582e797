import SignalHub.Proofs.Desk.Turns
import SignalHub.Proofs.Server.Service

/-! A server that handles a request at once does what a run of its service does in which nothing
comes from outside: the upgrade that is granted goes on, and the tasks of the world do what that
brings about (`Unaided`). What it hands over then follows from what is so of all runs, where each
connection belongs to an upgrade: the one new connection belongs to this one, and it is served
exactly when it has been registered (`handle_run`). -/
namespace SignalHub.Server.Service

open Device (Record)

variable {s s' s'' : Service} {k : Nat} {w : World} {secret : String} {ice : IceServers}
  {upgrades : List Upgrade} {user : Uuid} {record : Record}

/-- The event does not come from outside: the upgrade at this place goes on, or a task does, or the
directory is told of a change. -/
def Event.inner (k : Nat) : Event → Bool
  | .upgrade j => j == k
  | .move m => m.ofTask
  | .tell _ => true
  | .request .. | .directory .. => false

/-- A run in which nothing comes from outside leads from one service to the other. -/
def Unaided (k : Nat) (s s' : Service) : Prop :=
  ∃ events, (∀ e ∈ events, e.inner k = true) ∧ s.run events = s'

theorem Unaided.refl (k : Nat) (s : Service) : s.Unaided k s := ⟨[], nofun, rfl⟩

theorem Unaided.trans (first : s.Unaided k s') (second : s'.Unaided k s'') : s.Unaided k s'' := by
  obtain ⟨events, inner, rfl⟩ := first
  obtain ⟨more, within, rfl⟩ := second
  refine ⟨events ++ more, fun e member => ?_, run_append s events more⟩
  exact (List.mem_append.mp member).elim (inner e) (within e)

theorem Unaided.act {e : Event} (s : Service) (inner : e.inner k = true) :
    s.Unaided k (s.act e) :=
  ⟨[e], fun _ member => List.mem_singleton.mp member ▸ inner, rfl⟩

theorem Unaided.tended (unaided : s.Unaided k ⟨⟨w, secret, ice⟩, upgrades⟩)
    (tended : Tended s.upgrades s.world) : Tended upgrades w := by
  obtain ⟨events, -, ran⟩ := unaided
  have after := tended_run tended events
  rwa [ran] at after

theorem unaided_follow (s : Service) {moves : List World.Move}
    (own : ∀ m ∈ moves, m.ofTask = true) : s.Unaided k (s.setWorld (s.world.follow moves)) := by
  induction moves generalizing s with
  | nil => exact .refl k s
  | cons m rest ih =>
    have mine := own m List.mem_cons_self
    have acted : s.act (.move m) = s.setWorld (s.world.proceed m) :=
      if_neg (Bool.eq_false_iff.mp (World.opens_of_ofTask mine))
    have now : s.Unaided k (s.act (.move m)) := .act s mine
    rw [acted] at now
    exact now.trans (ih _ fun n member => own n (List.mem_cons_of_mem m member))

theorem note_setHub (w : World) (h : Hub) (p : Presence) :
    (w.setHub h).note p = (w.note p).setHub h := by
  have fails : (w.setHub h).directoryFails = w.directoryFails := rfl
  have directory : (w.setHub h).directory = w.directory := rfl
  rw [World.note, World.note, fails, directory]
  split
  · rfl
  · cases w.directory.setOnline p.device p.online <;> rfl

/-- To tell the directory everything is to tell it what comes first until nothing is left. -/
theorem unaided_tellAll (s : Service) : s.Unaided k (s.setWorld s.world.tellAll) := by
  generalize all : s.world.hub.pending = pending
  induction pending generalizing s with
  | nil =>
    have same : { s.world.hub with pending := [] } = s.world.hub := by rw [← all]
    rw [World.tellAll, all, same]
    exact .refl k s
  | cons p rest ih =>
    let quiet : Hub := { s.world.hub with pending := rest }
    have told : s.world.tell 0 = (s.world.note p).setHub quiet := by
      rw [← note_setHub, World.tell, all]
      rfl
    have later := ih (s.setWorld (s.world.tell 0)) (congrArg (fun w => w.hub.pending) told)
    have same : (s.world.tell 0).tellAll = s.world.tellAll := by
      rw [told, World.tellAll, World.tellAll, all, List.foldl_cons, note_setHub]
      rfl
    exact (Unaided.act (e := .tell 0) s rfl).trans (same ▸ later)

theorem unaided_settle : (⟨⟨w, secret, ice⟩, upgrades⟩ : Service).Unaided k
    ⟨⟨w.settle, secret, ice⟩, upgrades⟩ := by
  obtain ⟨moves, own, settled⟩ := w.settle_eq
  rw [settled]
  exact (unaided_follow ⟨⟨w, secret, ice⟩, upgrades⟩ own).trans
    (unaided_tellAll ⟨⟨w.follow moves, secret, ice⟩, upgrades⟩)

/-- The upgrade that was granted last goes on. -/
theorem unaided_last (w : World) (secret : String) (ice : IceServers) (upgrades : List Upgrade)
    (u : Upgrade) :
    (⟨⟨w, secret, ice⟩, upgrades ++ [u]⟩ : Service).Unaided upgrades.length
      ⟨⟨(u.next w).1, secret, ice⟩, upgrades ++ [{ u with state := (u.next w).2 }]⟩ := by
  have found : (upgrades ++ [u])[upgrades.length]? = some u := List.getElem?_concat_length
  have gone : (upgrades ++ [u]).set upgrades.length { u with state := (u.next w).2 } =
      upgrades ++ [{ u with state := (u.next w).2 }] := by simp
  have acted := act_upgrade (s := ⟨⟨w, secret, ice⟩, upgrades ++ [u]⟩) found
  exact ⟨[.upgrade upgrades.length], by simp [Event.inner],
    acted.trans (congrArg (Service.mk _) gone)⟩

/-- The world when a websocket has its connection and has begun a call to register it. -/
def asking (w : World) (user : Uuid) (record : Record) : World :=
  let (made, conn) := w.connect user record.id record.onlineSnapshot w.settings.capacity
  { made with desk := made.desk.beginCall (.register conn) }

/-- The world when that call has put its command into the queue. -/
def posting (w : World) (user : Uuid) (record : Record) : World :=
  let asked := asking w user record
  { asked with desk := asked.desk.post w.desk.calls.length }

/-- The world when the call has been answered, if it ever is. -/
def answered (w : World) (user : Uuid) (record : Record) : World := (posting w user record).settle

def registers (w : World) (user : Uuid) (record : Record) : Bool :=
  (answered w user record).desk.calls[w.desk.calls.length]?.any fun c => c.stage == .accepted

theorem accept_eq (w : World) (secret : String) (ice : IceServers) (user : Uuid)
    (record : Record) :
    (⟨w, secret, ice⟩ : Server).accept user record =
      let conn := w.hub.connections.length
      let settled := answered w user record
      if registers w user record then
        (⟨(settled.attend conn true).settle, secret, ice⟩, ⟨conn, some settled.pumps.length⟩)
      else (⟨settled, secret, ice⟩, ⟨conn, none⟩) := rfl

theorem call_asking (w : World) (user : Uuid) (record : Record) :
    ∃ stage, (asking w user record).desk.calls[w.desk.calls.length]? =
        some ⟨.register w.hub.connections.length, stage⟩ ∧
      (stage = .posting ∨ stage = .refused) := by
  refine ⟨_, List.getElem?_concat_length, ?_⟩
  dsimp only
  split
  · exact .inr rfl
  · exact .inl rfl

theorem call_answered (sound : World.Sound (posting w user record)) :
    ∃ stage, (answered w user record).desk.calls[w.desk.calls.length]? =
      some ⟨.register w.hub.connections.length, stage⟩ := by
  obtain ⟨stage, found, -⟩ := call_asking w user record
  obtain ⟨events, same⟩ := World.calls_settle sound
  rw [answered, same]
  exact Desk.call_play found (.move (.post w.desk.calls.length) :: events)

theorem registers_iff (sound : World.Sound (posting w user record)) :
    registers w user record = true ↔
      (answered w user record).desk.calls[w.desk.calls.length]? =
        some ⟨.register w.hub.connections.length, .accepted⟩ := by
  obtain ⟨stage, found⟩ := call_answered sound
  simp [registers, found]

/-- What has been accepted stays so while the connection begins to be served. -/
theorem accepted_attend {call : Nat} {ask : Ask} (conn : ConnId)
    (sound : World.Sound (w.attend conn true))
    (accepted : w.desk.calls[call]? = some ⟨ask, .accepted⟩) :
    (w.attend conn true).settle.desk.calls[call]? = some ⟨ask, .accepted⟩ := by
  obtain ⟨events, same⟩ := World.calls_settle sound
  rw [same, World.desk_attend]
  exact Desk.accepted_play (Desk.accepted_play accepted _) events

theorem pump_of_attend {conn : ConnId} (sound : World.Sound (w.attend conn true)) :
    (w.attend conn true).settle.pumps[w.pumps.length]?.map Pump.conn = some conn := by
  rw [← List.getElem?_map, (World.still_settle sound).conns, List.getElem?_map]
  simp [World.attend, Pump.start]

theorem unaided_posting (w : World) (secret : String) (ice : IceServers) (upgrades : List Upgrade)
    (user : Uuid) (record : Record) :
    (⟨⟨w, secret, ice⟩, upgrades ++ [⟨user, record, .granted⟩]⟩ : Service).Unaided upgrades.length
      ⟨⟨posting w user record, secret, ice⟩,
        upgrades ++ [⟨user, record, .calling w.hub.connections.length w.desk.calls.length⟩]⟩ := by
  let made : Upgrade := ⟨user, record, .made w.hub.connections.length⟩
  let calling : Upgrade := ⟨user, record, .calling w.hub.connections.length w.desk.calls.length⟩
  have begun : (⟨⟨w, secret, ice⟩, upgrades ++ [⟨user, record, .granted⟩]⟩ : Service).Unaided
      upgrades.length ⟨⟨asking w user record, secret, ice⟩, upgrades ++ [calling]⟩ :=
    (unaided_last w secret ice upgrades ⟨user, record, .granted⟩).trans
      (unaided_last _ secret ice upgrades made)
  refine begun.trans ?_
  obtain ⟨stage, found, rfl | rfl⟩ := call_asking w user record
  · have goes := unaided_last (asking w user record) secret ice upgrades calling
    simp only [Upgrade.next, calling, found, Option.map_some] at goes
    exact goes
  · have same : posting w user record = asking w user record := by
      simp only [posting, Desk.post, found]
    rw [same]
    exact .refl _ _

theorem unaided_answered (w : World) (secret : String) (ice : IceServers)
    (upgrades : List Upgrade) (user : Uuid) (record : Record) :
    (⟨⟨w, secret, ice⟩, upgrades ++ [⟨user, record, .granted⟩]⟩ : Service).Unaided upgrades.length
      ⟨⟨answered w user record, secret, ice⟩,
        upgrades ++ [⟨user, record, .calling w.hub.connections.length w.desk.calls.length⟩]⟩ :=
  (unaided_posting w secret ice upgrades user record).trans unaided_settle

/-- An upgrade whose connection is registered begins to serve it. -/
theorem unaided_attend {conn : ConnId} {call : Nat}
    (accepted : w.desk.calls[call]? = some ⟨.register conn, .accepted⟩) :
    (⟨⟨w, secret, ice⟩, upgrades ++ [⟨user, record, .calling conn call⟩]⟩ : Service).Unaided
      upgrades.length
      ⟨⟨w.attend conn true, secret, ice⟩, upgrades ++ [⟨user, record, .serving conn⟩]⟩ := by
  have goes := unaided_last w secret ice upgrades ⟨user, record, .calling conn call⟩
  simp only [Upgrade.next, accepted, Option.map_some] at goes
  exact goes

/-- Where one upgrade more has the next connection, that is the only new one, and it is the upgrade's. -/
theorem newcomer {w' : World} {u : Upgrade} (before : Tended upgrades w)
    (after : Tended (upgrades ++ [u]) w') (own : u.state.conn? = some w.hub.connections.length) :
    (∃ c, w'.hub.connection? w.hub.connections.length = some c ∧ u.Bears c) ∧
    (∀ id c, w'.hub.connection? id = some c →
      id = w.hub.connections.length ∨ (w.hub.connection? id).isSome = true) ∧
    (w'.isServed w.hub.connections.length = true →
      u.state = .serving w.hub.connections.length) := by
  have old {v : Upgrade} {id : ConnId} (member : v ∈ upgrades) (has : v.state.conn? = some id) :
      (w.hub.connection? id).isSome = true :=
    before.known id (List.mem_filterMap.mpr ⟨v, member, has⟩)
  have mine {v : Upgrade} (member : v ∈ upgrades ++ [u])
      (has : v.state.conn? = some w.hub.connections.length) : v = u := by
    rcases List.mem_append.mp member with earlier | last
    · exact absurd rfl (World.fresh_of_known (old earlier has))
    · exact List.mem_singleton.mp last
  refine ⟨?_, fun id c found => ?_, fun served => ?_⟩
  · have known := after.known _ (List.mem_filterMap.mpr ⟨u, by simp, own⟩)
    obtain ⟨c, found⟩ := Option.isSome_iff_exists.mp known
    obtain ⟨v, member, has, bears⟩ := after.owned _ c found
    exact ⟨c, found, mine member has ▸ bears⟩
  · obtain ⟨v, member, has, -⟩ := after.owned id c found
    rcases List.mem_append.mp member with earlier | last
    · exact .inr (old earlier has)
    · rw [List.mem_singleton.mp last, own] at has
      exact .inl (Option.some.inj has).symm
  · obtain ⟨v, member, serving⟩ := after.served _ served
    rw [← mine member (by rw [serving]; rfl)]
    exact serving

/-- What has become of a websocket that was granted. It has a connection, the only new one, which is
the user's and shows itself as the record says. The pump that is handed over serves it, if its call to
register has been accepted; otherwise nobody does. -/
structure Accepted (w : World) (user : Uuid) (record : Record) (opened : Opened) (w' : World) :
    Prop where
  conn : opened.conn = w.hub.connections.length
  made : ∃ c, w'.hub.connection? opened.conn = some c ∧ c.user = user ∧ c.device = record.id ∧
    c.info = record.onlineSnapshot
  alone : ∀ id c, w'.hub.connection? id = some c →
    id = opened.conn ∨ (w.hub.connection? id).isSome = true
  registered : opened.pump.isSome = true ↔
    w'.desk.calls[w.desk.calls.length]? = some ⟨.register opened.conn, .accepted⟩
  served : ∀ i, opened.pump = some i → w'.pumps[i]?.map Pump.conn = some opened.conn
  unserved : opened.pump = none → w'.isServed opened.conn = false

theorem accepted_of_registered (before : Tended upgrades w)
    (sound : World.Sound (posting w user record)) (registered : registers w user record = true)
    (attended : World.Sound ((answered w user record).attend w.hub.connections.length true))
    (after : Tended (upgrades ++ [⟨user, record, .serving w.hub.connections.length⟩])
      ((answered w user record).attend w.hub.connections.length true).settle) :
    Accepted w user record
      ⟨w.hub.connections.length, some (answered w user record).pumps.length⟩
      ((answered w user record).attend w.hub.connections.length true).settle := by
  obtain ⟨⟨c, found, bears⟩, alone, -⟩ := newcomer before after rfl
  have accepted := (registers_iff sound).mp registered
  exact {
    conn := rfl
    made := ⟨c, found, bears.user, bears.device, bears.info⟩
    alone := alone
    registered := ⟨fun _ => accepted_attend _ attended accepted, fun _ => rfl⟩
    served := fun i same => Option.some.inj same ▸ pump_of_attend attended
    unserved := nofun }

theorem accepted_of_refused (before : Tended upgrades w)
    (sound : World.Sound (posting w user record)) (refused : ¬registers w user record = true)
    {call : Nat}
    (after : Tended (upgrades ++ [⟨user, record, .calling w.hub.connections.length call⟩])
      (answered w user record)) :
    Accepted w user record ⟨w.hub.connections.length, none⟩ (answered w user record) := by
  obtain ⟨⟨c, found, bears⟩, alone, unserved⟩ := newcomer before after rfl
  exact {
    conn := rfl
    made := ⟨c, found, bears.user, bears.device, bears.info⟩
    alone := alone
    registered := ⟨nofun, fun accepted => absurd ((registers_iff sound).mpr accepted) refused⟩
    served := nofun
    unserved := fun _ => Bool.eq_false_iff.mpr fun served => nomatch unserved served }

/-- An upgrade that nobody disturbs does what it takes to accept a websocket. -/
theorem unaided_accept (server : Server) (tended : Tended upgrades server.world) (user : Uuid)
    (record : Record) :
    ∃ state, (⟨server, upgrades ++ [⟨user, record, .granted⟩]⟩ : Service).Unaided upgrades.length
        ⟨(server.accept user record).1, upgrades ++ [⟨user, record, state⟩]⟩ ∧
      Accepted server.world user record (server.accept user record).2
        (server.accept user record).1.world := by
  obtain ⟨w, secret, ice⟩ := server
  have before : Tended upgrades w := tended
  have granted := before.grant user record
  have sound := ((unaided_posting w secret ice upgrades user record).tended granted).sound
  have settled := unaided_answered w secret ice upgrades user record
  rw [accept_eq]
  split
  · rename_i registered
    dsimp only
    have begun := settled.trans (unaided_attend ((registers_iff sound).mp registered))
    have served := begun.trans unaided_settle
    exact ⟨_, served, accepted_of_registered before sound registered
      (begun.tended granted).sound (served.tended granted)⟩
  · rename_i refused
    dsimp only
    exact ⟨_, settled, accepted_of_refused before sound refused (settled.tended granted)⟩

/-- Handling a request at once either answers it and changes nothing, or accepts a websocket. Then it
does what the upgrade and the tasks do by themselves once the request has been granted, and hands over
the connection that has come of it. -/
theorem handle_run (settings : Settings) (directory : Directory) (reports : Bool) (secret : String)
    (ice : IceServers) (past : List Event) (moment : Moment) (upgradable : Bool)
    (r : Http.Request) :
    let s := (new settings directory reports secret ice).run past
    (∀ response, s.server.answer moment upgradable r = .response response →
      s.server.handle moment upgradable r = (s.server, .inl response) ∧
      s.act (.request moment upgradable r) = s) ∧
    ∀ user record, s.server.answer moment upgradable r = .websocket user record →
      ∃ opened events, (∀ e ∈ events, e.inner s.upgrades.length = true) ∧
        let v := s.run (.request moment upgradable r :: events)
        s.server.handle moment upgradable r = (v.server, .inr opened) ∧
        Accepted s.world user record opened v.world := by
  intro s
  have tended : Tended s.upgrades s.world :=
    tended_run (s := new settings directory reports secret ice)
      (tended_new settings directory reports) past
  refine ⟨fun response answer => ⟨?_, act_refused answer⟩, fun user record answer => ?_⟩
  · rw [handle, answer]
  · obtain ⟨state, ⟨events, inner, ran⟩, accepted⟩ := unaided_accept s.server tended user record
    refine ⟨(s.server.accept user record).2, events, inner, ?_⟩
    rw [run_granted answer, ran]
    refine ⟨?_, accepted⟩
    rw [handle, answer]

end SignalHub.Server.Service
