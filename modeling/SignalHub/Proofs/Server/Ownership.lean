import SignalHub.Proofs.Server.Admission
import SignalHub.Proofs.Server.Service

/-! Every connection, registered or not, comes from a request that was admitted when it was made,
and bears the user and the record of that time, whatever has happened to the directory since. A
request that is not admitted is refused and leaves everything as it is
(`ownership_before_existence`). -/
namespace SignalHub.Server.Service

open Device (Record)

variable {start : Service} {past events : List Event} {user : Uuid} {record : Record}

/-- Some request of the run asked for a websocket in due form, and when it was made it came from this
user and the directory said that this device was the user's. -/
def Asked (start : Service) (events : List Event) (user : Uuid) (record : Record) : Prop :=
  ∃ before moment upgradable r after, events = before ++ .request moment upgradable r :: after ∧
    Route.ofPath? r.uri.path = some .websocket ∧ upgradeRefusal? upgradable r = none ∧
    Admits (start.run before).server moment r user record

theorem Asked.append (asked : start.Asked past user record) (more : List Event) :
    start.Asked (past ++ more) user record := by
  obtain ⟨before, moment, upgradable, r, after, rfl, admitted⟩ := asked
  exact ⟨before, moment, upgradable, r, after ++ more, by simp, admitted⟩

theorem asked_act (asked : ∀ u ∈ (start.run past).upgrades, start.Asked past u.user u.record)
    (e : Event) :
    ∀ u ∈ (start.run (past ++ [e])).upgrades, start.Asked (past ++ [e]) u.user u.record := by
  intro u member
  rw [run_append] at member
  rcases origin_act member with ⟨v, before, user, record⟩ | ⟨moment, upgradable, r, rfl, answered⟩
  · rw [← user, ← record]
    exact (asked v before).append [e]
  · exact ⟨past, moment, upgradable, r, [], rfl, admits_of_websocket answered⟩

/-- Upgrades are granted to requests that are admitted. -/
theorem asked_run (asked : ∀ u ∈ (start.run past).upgrades, start.Asked past u.user u.record)
    (events : List Event) :
    ∀ u ∈ (start.run (past ++ events)).upgrades, start.Asked (past ++ events) u.user u.record := by
  induction events generalizing past with
  | nil => exact (List.append_nil past).symm ▸ asked
  | cons e rest ih =>
    have later := ih (asked_act asked e)
    rwa [List.append_assoc] at later

/-- The upgrade that a request has just been granted makes its connection in its first step. -/
theorem connection?_granted {s : Service} {moment : Moment} {upgradable : Bool} {r : Http.Request}
    (answered : s.server.answer moment upgradable r = .websocket user record) :
    ((s.act (.request moment upgradable r)).act (.upgrade s.upgrades.length)).world.hub.connection?
        s.world.hub.connections.length =
      some (.new user record.id record.onlineSnapshot s.world.settings.capacity) := by
  let u : Upgrade := ⟨user, record, .granted⟩
  have asked : s.act (.request moment upgradable r) = { s with upgrades := s.upgrades ++ [u] } :=
    act_granted answered
  have found : (s.upgrades ++ [u])[s.upgrades.length]? = some u := List.getElem?_concat_length
  have made := Hub.connection?_add s.world.hub
    (.new user record.id record.onlineSnapshot s.world.settings.capacity) s.world.hub.connections.length
  rw [asked, act_upgrade found]
  exact made.trans (if_pos rfl)

/-- A connection is there, and is registered, only if a request was admitted for the device of its
user that it is of. A request in due form that is admitted is granted, and the connection is made for
that user and that device. One that is not admitted is refused, and neither it nor a server that
handles it at once changes anything. -/
theorem ownership_before_existence (settings : Settings) (directory : Directory) (reports : Bool)
    (secret : String) (ice : IceServers) (events : List Event) :
    let start := Service.new settings directory reports secret ice
    let s := start.run events
    (∀ id c, s.world.hub.connection? id = some c → ∃ record, start.Asked events c.user record ∧
      c.device = record.id ∧ c.info = record.onlineSnapshot) ∧
    (∀ user device id, s.world.hub.registry.lookup user device = some id →
      ∃ c record, s.world.hub.connection? id = some c ∧ c.user = user ∧ c.device = device ∧
        start.Asked events user record ∧ record.id = device ∧ c.info = record.onlineSnapshot) ∧
    ∀ moment upgradable r, Route.ofPath? r.uri.path = some .websocket →
      (∀ user record, upgradeRefusal? upgradable r = none → Admits s.server moment r user record →
        s.server.answer moment upgradable r = .websocket user record ∧
        let made := (s.act (.request moment upgradable r)).act (.upgrade s.upgrades.length)
        made.world.hub.connection? s.world.hub.connections.length =
          some (.new user record.id record.onlineSnapshot s.world.settings.capacity)) ∧
      ((¬ ∃ user record, Admits s.server moment r user record) →
        ∃ response, s.server.answer moment upgradable r = .response response ∧
          Refused s.server moment upgradable r response ∧
          s.act (.request moment upgradable r) = s ∧
          s.server.handle moment upgradable r = (s.server, .inl response)) := by
  intro start s
  have tended : Tended s.upgrades s.world :=
    tended_run (s := start) (tended_new settings directory reports) events
  have nobody : ∀ u ∈ (start.run []).upgrades, start.Asked [] u.user u.record :=
    fun _ member => absurd member List.not_mem_nil
  have asked : ∀ u ∈ s.upgrades, start.Asked events u.user u.record := asked_run nobody events
  have owned (id : ConnId) (c : Connection) (found : s.world.hub.connection? id = some c) :
      ∃ record, start.Asked events c.user record ∧ c.device = record.id ∧
        c.info = record.onlineSnapshot := by
    obtain ⟨u, member, -, bears⟩ := tended.owned id c found
    exact ⟨u.record, bears.user ▸ asked u member, bears.device, bears.info⟩
  refine ⟨owned, fun user device id stored => ?_, fun moment upgradable r route => ⟨?_, ?_⟩⟩
  · obtain ⟨c, found, rfl, rfl⟩ := tended.valid.keyed user device id stored
    obtain ⟨record, from_, device, info⟩ := owned id c found
    exact ⟨c, record, found, rfl, rfl, from_, device.symm, info⟩
  · intro user record formed admits
    have answered := websocket_of_admits route formed admits
    exact ⟨answered, connection?_granted answered⟩
  · intro stranger
    obtain ⟨response, answered, handled, refused⟩ :=
      refused_of_not_admitted upgradable route stranger
    exact ⟨response, answered, refused, act_refused answered, handled⟩

/-- A laptop is connected for its user. After that somebody without a token asks for it. -/
theorem ownership_before_existence_laptop :
    let laptop : Record := ⟨.repeated 1, .nil, "", "", "laptop", false, false, false⟩
    let moment : Moment := ⟨0, ""⟩
    let request (query : String) : Http.Request := {
      method := "GET"
      uri := ⟨Utf8.encode "/ws", some (Utf8.encode query)⟩
      headers := [⟨"Connection", Utf8.encode "Upgrade"⟩, ⟨"Upgrade", Utf8.encode "websocket"⟩,
        ⟨"Sec-WebSocket-Version", Utf8.encode "13"⟩, ⟨"Sec-WebSocket-Key", []⟩] }
    let device := "device_id=11111111111111111111111111111111"
    let token := "&token=eyJhbGciOiJIUzI1NiJ9.eyJzdWIiOiIwMDAwMDAwMDAwMDAwMDAwMDAwMDAwMDAwMDAwMD" ++
      "AwMCIsImV4cCI6NDEwMjQ0NDgwMH0.H-FX2cSlnA4M-IGM_AmTd24qEJspuVrnoKt4G94mj6Y"
    let own := request (device ++ token)
    let start := Service.new .standard (.ofRecords [laptop]) true "sec" .standard
    let serving : List Event := [.upgrade 0, .upgrade 0, .upgrade 0, .move (.desk (.move .check)),
      .move (.desk (.move .take)), .move (.desk (.move .apply)), .move (.desk (.move .answer)),
      .upgrade 0]
    let events := .request moment true own :: serving
    let s := start.run events
    ((start.act (.request moment true own)).act (.upgrade 0)).world.hub.connection? 0 =
      some (.new .nil (.repeated 1) laptop.onlineSnapshot 256) ∧
    (∃ c, s.world.hub.connection? 0 = some c ∧ ∃ record, start.Asked events c.user record ∧
      c.device = record.id ∧ c.info = record.onlineSnapshot) ∧
    (s.world.hub.registry.lookup .nil (.repeated 1) = some 0 ∧ ∃ record,
      start.Asked events .nil record ∧ record.id = .repeated 1) ∧
    ∃ response, s.server.answer moment true (request device) = .response response ∧
      response.status = 401 := by
  intro laptop moment request device token own start serving events s
  have answered : start.server.answer moment true own = .websocket .nil laptop := by decide +kernel
  obtain ⟨route, formed, admits⟩ := admits_of_websocket answered
  have made := ((ownership_before_existence .standard (.ofRecords [laptop]) true "sec" .standard
    []).2.2 moment true own route).1 .nil laptop formed admits
  obtain ⟨owned, registered, refused⟩ :=
    ownership_before_existence .standard (.ofRecords [laptop]) true "sec" .standard events
  have begun : start.act (.request moment true own) =
      ⟨start.server, [⟨.nil, laptop, .granted⟩]⟩ := by
    rw [act, answered]
    rfl
  have stored : s.world.hub.registry.lookup .nil (.repeated 1) = some 0 := by
    have ran : s = (start.act (.request moment true own)).run serving := run_cons start _ serving
    rw [ran, begun]
    decide +kernel
  obtain ⟨c, record, found, -, -, asked, same, -⟩ := registered _ _ _ stored
  refine ⟨made.2, ⟨c, found, owned 0 c found⟩, ⟨stored, record, asked, same⟩, ?_⟩
  have missing (token : String) : Token.ofRequest (request device) ≠ .ok token := by
    have nothing : (Token.ofRequest (request device)).toOption = none := by decide +kernel
    intro carried
    rw [carried] at nothing
    cases nothing
  have stranger : ¬ ∃ user record, Admits s.server moment (request device) user record := by
    rintro ⟨user, record, admits⟩
    obtain ⟨token, carried, -⟩ := admits.verified
    exact missing token carried
  obtain ⟨response, answered, why, -⟩ :=
    (refused moment true (request device) (by decide +kernel)).2 stranger
  refine ⟨response, answered, why.unauthorized fun user known => ?_⟩
  obtain ⟨token, carried, -⟩ := user_eq_ok.mp known
  exact missing token carried

end SignalHub.Server.Service
