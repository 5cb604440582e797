import SignalHub.Proofs.Hub.Views
import SignalHub.Proofs.Server.Admission
import SignalHub.Proofs.Server.Service
import SignalHub.Proofs.Token.Bearer
import SignalHub.Proofs.Token.Issue

/-! Who asks for anything behind the gate without a token that verifies is told why, and nothing
happens. Users are told of devices what is registered under themselves (`told_of_own_entry`): two
servers that have the same registered under a user, whatever else may be different about them, tell
that user the same. -/
namespace SignalHub.Server

open Http (Request Response)
open Device (Record)

variable {s : Server} {moment : Moment} {upgradable : Bool} {r : Request} {route : Route}
  {user : Uuid} {e : Access.Error} {response : Response}

/-- The request reads what is behind the gate. -/
structure Reads (r : Request) (route : Route) : Prop where
  get : r.method = "GET"
  leads : Route.ofPath? r.uri.path = some route
  behind : route.isProtected = true

/-- Why the gate stays shut: no token comes with the request, or one that does not verify. -/
inductive Stranger (s : Server) (moment : Moment) (r : Request) (e : Access.Error) : Prop where
  | untold (missing : Token.ofRequest r = .error e)
  | unverified (token : String) (carried : Token.ofRequest r = .ok token)
      (refused : Token.verify s.secret moment.seconds token = .error e)

/-- Both ask who is online, or both ask of one device whether it is. -/
inductive SameQuestion : Route → Route → Prop where
  | devices : SameQuestion .devicesOnline .devicesOnline
  | device (segment segment' : List UInt8) (id : Uuid) (asked : segmentId? segment = some id)
      (asked' : segmentId? segment' = some id) :
      SameQuestion (.deviceOnline segment) (.deviceOnline segment')

theorem Stranger.unknown (stranger : Stranger s moment r e) : s.user moment r = .error e := by
  have unfolded : s.user moment r =
      (Token.ofRequest r).bind (Token.verify s.secret moment.seconds) := rfl
  rw [unfolded]
  cases stranger with
  | untold missing =>
    rw [missing]
    rfl
  | unverified token carried refused =>
    rw [carried]
    exact refused

theorem routeAnswer_of_stranger (behind : route.isProtected = true)
    (unknown : s.user moment r = .error e) :
    s.routeAnswer moment upgradable r route = .response (unauthorized e) := by
  rw [routeAnswer, if_pos behind, unknown]

theorem Reads.routeAnswer (reads : Reads r route) (known : s.user moment r = .ok user) :
    s.routeAnswer moment upgradable r route = s.protectedAnswer upgradable user r route := by
  have readable_ : readable r = true := by simp [readable, reads.get]
  rw [Server.routeAnswer, if_pos reads.behind, known]
  exact if_pos readable_

/-- What is read has a body. -/
theorem Reads.answer (reads : Reads r route)
    (routed : s.routeAnswer moment upgradable r route = .response response) :
    s.answer moment upgradable r = .response response := by
  have whole : (r.method == "HEAD") = false := by simp [reads.get]
  rw [Server.answer, fullAnswer, reads.leads]
  simp only [routed, whole, Bool.false_eq_true, if_false]

theorem Reads.handle (reads : Reads r route) (known : s.user moment r = .ok user)
    (told : s.protectedAnswer upgradable user r route = .response response) :
    s.handle moment upgradable r = (s, .inl response) :=
  handle_of_response (reads.answer ((reads.routeAnswer known).trans told))

theorem deviceOnline_eq {segment : List UInt8} {id : Uuid} (asked : segmentId? segment = some id) :
    s.deviceOnline user segment = .json 200 (.ofMembers
      [("device_id", id.toJson), ("online", .bool (s.world.hub.isOnline user id))]) := by
  rw [deviceOnline, asked]

/-- Device and token can be written into the query. -/
theorem admits_of_encode {token raw : String} {id : Uuid} {record : Record}
    (absent : r.header? "authorization" = none)
    (asked : r.uri.query = some (Form.encode [("device_id", raw), ("token", token)]))
    (filled : token ≠ "") (verified : Token.verify s.secret moment.seconds token = .ok user)
    (parsed : Uuid.parse? (Blank.trim raw) = some id)
    (found : s.world.directory.find? id = some record) (works : s.world.directoryFails = false)
    (owned : record.user = user) : Admits s moment r user record where
  verified := by
    have split : [("device_id", raw), ("token", token)] =
        [("device_id", raw)] ++ ("token", token) :: [] := rfl
    rw [split] at asked
    exact ⟨token, Token.ofRequest_of_encode absent filled (by simp) asked, verified⟩
  asked := by
    refine ⟨raw, id, ?_, parsed, found⟩
    rw [deviceParameter?, asked, Option.getD_some, Form.parse_encode]
    rfl
  works := works
  owned := owned

namespace Service

variable {s s' : Service}

/-- Some run from the start leads to the service. -/
def Reached (s : Service) : Prop :=
  ∃ settings directory reports secret ice, (new settings directory reports secret ice).Leads s

/-- The same is registered under the user: in the same order, or in whatever order if a run leads
there. -/
inductive SameEntry (user : Uuid) (s s' : Service) : Prop where
  | listed (same : s.world.hub.entry user = s'.world.hub.entry user)
  | reordered (reached : Reached s)
      (same : (s.world.hub.entry user).Perm (s'.world.hub.entry user))

theorem Reached.tended (reached : Reached s) : Tended s.upgrades s.world := by
  obtain ⟨settings, directory, reports, secret, ice, events, rfl⟩ := reached
  exact tended_run (s := new settings directory reports secret ice)
    (tended_new settings directory reports) events

/-- A connection describes itself as the record says that it was made for. -/
theorem Reached.named (reached : Reached s) : Hub.Named s.world.hub := by
  intro id _ c found
  obtain ⟨u, -, -, bears⟩ := reached.tended.owned id c found
  rw [bears.info, bears.device]
  rfl

theorem SameEntry.onlineDevices (same : SameEntry user s s') :
    s.world.hub.onlineDevices user = s'.world.hub.onlineDevices user := by
  cases same with
  | listed same => rw [Hub.onlineDevices_eq_listed, Hub.onlineDevices_eq_listed, same]
  | reordered reached same =>
    exact reached.tended.valid.onlineDevices_of_perm reached.named same

theorem SameEntry.isOnline (same : SameEntry user s s') (device : Uuid) :
    s.world.hub.isOnline user device = s'.world.hub.isOnline user device := by
  cases same with
  | listed same => exact Hub.isOnline_of_perm (.of_eq same) device
  | reordered _ same => exact Hub.isOnline_of_perm same device

theorem SameEntry.protectedAnswer {upgradable' : Bool} {r' : Request} {route' : Route}
    (same : SameEntry user s s') (question : SameQuestion route route') :
    ∃ response, s.server.protectedAnswer upgradable user r route = .response response ∧
      s'.server.protectedAnswer upgradable' user r' route' = .response response := by
  cases question with
  | devices =>
    have listed : s.server.world.hub.onlineDevices user = s'.server.world.hub.onlineDevices user :=
      same.onlineDevices
    have told : s.server.devicesOnline user = s'.server.devicesOnline user := by
      rw [devicesOnline, devicesOnline, listed]
    exact ⟨_, rfl, congrArg Answer.response told.symm⟩
  | device segment segment' id asked asked' =>
    have shown : s.server.world.hub.isOnline user id = s'.server.world.hub.isOnline user id :=
      same.isOnline id
    have told : s.server.deviceOnline user segment = s'.server.deviceOnline user segment' := by
      rw [deviceOnline_eq asked, deviceOnline_eq asked', shown]
    exact ⟨_, rfl, congrArg Answer.response told.symm⟩

/-- A request to read what is behind the gate is refused for what is wrong with its token, and nothing
changes. If its token verifies, the user is told which devices are online, or of one device whether it
is, among the user's own. What the user is told does not change with the server, the time, the request
or the registrations of others, as long as the same is asked and the same is registered under the
user. -/
theorem told_of_own_entry (s : Service) (moment : Moment) (upgradable : Bool) (r : Request)
    (route : Route) (reads : Reads r route) :
    (∀ e, Stranger s.server moment r e →
      s.server.handle moment upgradable r = (s.server, .inl (.json 401 (.ofMembers
        [("code", .ofString "UNAUTHORIZED"), ("message", .ofString e.message)]))) ∧
      s.act (.request moment upgradable r) = s) ∧
    ∀ token user, Token.ofRequest r = .ok token →
      Token.verify s.server.secret moment.seconds token = .ok user →
      (route = .devicesOnline →
        s.server.handle moment upgradable r = (s.server, .inl (.json 200 (.ofMembers
          [("devices", .array ((s.world.hub.onlineDevices user).map Device.Info.toJson))])))) ∧
      (∀ segment id, route = .deviceOnline segment → segmentId? segment = some id →
        s.server.handle moment upgradable r = (s.server, .inl (.json 200 (.ofMembers
          [("device_id", id.toJson), ("online", .bool (s.world.hub.isOnline user id))])))) ∧
      ∀ s' moment' upgradable' r' route' token', Reads r' route' →
        Token.ofRequest r' = .ok token' →
        Token.verify s'.server.secret moment'.seconds token' = .ok user →
        SameQuestion route route' → SameEntry user s s' →
        (s'.server.handle moment' upgradable' r').2 = (s.server.handle moment upgradable r).2 := by
  refine ⟨fun e stranger => ?_, fun token user carried verified => ?_⟩
  · have refused : s.server.answer moment upgradable r = .response (unauthorized e) :=
      reads.answer (routeAnswer_of_stranger reads.behind stranger.unknown)
    exact ⟨handle_of_response refused, act_refused refused⟩
  have known : s.server.user moment r = .ok user := user_eq_ok.mpr ⟨token, carried, verified⟩
  refine ⟨?_, ?_, ?_⟩
  · rintro rfl
    exact reads.handle known rfl
  · rintro segment id rfl asked
    exact reads.handle known (congrArg Answer.response (deviceOnline_eq asked))
  · intro s' moment' upgradable' r' route' token' reads' carried' verified' question same
    have known' : s'.server.user moment' r' = .ok user :=
      user_eq_ok.mpr ⟨token', carried', verified'⟩
    obtain ⟨response, told, told'⟩ := same.protectedAnswer question
    rw [reads.handle known told, reads'.handle known' told']

/-- A laptop and a phone connect for their user, to one server, and to another where they connect in
the other order and somebody else's tablet connects in between. Some time later the token expires. -/
theorem told_of_own_entry_reordered :
    let other := Uuid.repeated 9
    let laptop : Record := ⟨.repeated 1, .nil, "", "a laptop", "laptop", false, true, false⟩
    let phone : Record := ⟨.repeated 2, .nil, "", "a phone", "phone", true, true, false⟩
    let tablet : Record := ⟨.repeated 3, other, "", "a tablet", "tablet", false, false, false⟩
    let moment : Moment := ⟨0, ""⟩
    let late : Moment := ⟨4102444801, ""⟩
    let token (user : Uuid) := Token.write "sec" ⟨user.text, 4102444800, "access"⟩
    let request (path : String) (pairs : List (String × String)) (user : Uuid) : Request := {
      method := "GET"
      uri := ⟨Utf8.encode path, some (Form.encode (pairs ++ [("token", token user)]))⟩
      headers := [⟨"Connection", Utf8.encode "Upgrade"⟩, ⟨"Upgrade", Utf8.encode "websocket"⟩,
        ⟨"Sec-WebSocket-Version", Utf8.encode "13"⟩, ⟨"Sec-WebSocket-Key", []⟩] }
    let connect (record : Record) : Event :=
      .request moment true (request "/ws" [("device_id", record.id.text)] record.user)
    let serve (k : Nat) : List Event := [.upgrade k, .upgrade k, .upgrade k,
      .move (.desk (.move .check)), .move (.desk (.move .take)), .move (.desk (.move .apply)),
      .move (.desk (.move .answer)), .upgrade k]
    let start := Service.new .standard (.ofRecords [laptop, phone, tablet]) true "sec" .standard
    let s := start.run (connect laptop :: connect phone :: (serve 0 ++ serve 1))
    let s' := start.run (connect phone :: connect tablet :: connect laptop ::
      (serve 0 ++ serve 1 ++ serve 2))
    let list (pairs : List (String × String)) := request "/api/v1/devices/online" pairs .nil
    let ask := request "/api/v1/devices/33333333333333333333333333333333/online" [] .nil
    let devices : Response := .json 200 (.ofMembers
      [("devices", .array [laptop.onlineSnapshot.toJson, phone.onlineSnapshot.toJson])])
    s.server.handle moment false (list []) = (s.server, .inl devices) ∧
    (s'.server.handle moment true (list [("user", other.text)])).2 = .inl devices ∧
    s'.server.handle moment false ask = (s'.server, .inl (.json 200 (.ofMembers
      [("device_id", tablet.id.toJson), ("online", .bool false)]))) ∧
    s'.server.handle late false ask = (s'.server, .inl (.json 401 (.ofMembers
      [("code", .ofString "UNAUTHORIZED"), ("message", .ofString "invalid or expired token")]))) := by
  intro other laptop phone tablet moment late token request connect serve start s s' list ask devices
  have filled (user : Uuid) : token user ≠ "" := Token.write_ne_empty _ _
  have signed : Word.isSigned 4102444800 = true := by decide
  have verified (user : Uuid) : Token.verify "sec" moment.seconds (token user) = .ok user :=
    Token.verify_write rfl signed 0
  have expired (user : Uuid) : Token.verify "sec" late.seconds (token user) = .error .invalidToken :=
    Token.verify_write rfl signed 4102444801
  have carried (path : String) (pairs : List (String × String)) (user : Uuid)
      (others : ∀ p ∈ pairs, p.1 ≠ "token") :
      Token.ofRequest (request path pairs user) = .ok (token user) :=
    Token.ofRequest_of_encode rfl (filled user) others rfl
  have route : Route.ofPath? (Utf8.encode "/ws") = some .websocket := by decide +kernel
  have connected (record : Record) (upgrades : List Upgrade) (events : List Event)
      (parsed : Uuid.parse? (Blank.trim record.id.text) = some record.id)
      (found : start.server.world.directory.find? record.id = some record) :
      (⟨start.server, upgrades⟩ : Service).run (connect record :: events) =
        (⟨start.server, upgrades ++ [⟨record.user, record, .granted⟩]⟩ : Service).run events := by
    have admits : Admits start.server moment
        (request "/ws" [("device_id", record.id.text)] record.user) record.user record :=
      admits_of_encode rfl rfl (filled record.user) (verified record.user) parsed found rfl rfl
    have answered : start.server.answer moment true
        (request "/ws" [("device_id", record.id.text)] record.user) =
          .websocket record.user record := websocket_of_admits route rfl admits
    exact run_granted (s := ⟨start.server, upgrades⟩) answered events
  have ran : s = (⟨start.server, [⟨.nil, laptop, .granted⟩, ⟨.nil, phone, .granted⟩]⟩ :
      Service).run (serve 0 ++ serve 1) :=
    (connected laptop [] _ (by decide +kernel) (by decide +kernel)).trans
      (connected phone _ _ (by decide +kernel) (by decide +kernel))
  have ran' : s' = (⟨start.server, [⟨.nil, phone, .granted⟩, ⟨other, tablet, .granted⟩,
      ⟨.nil, laptop, .granted⟩]⟩ : Service).run (serve 0 ++ serve 1 ++ serve 2) :=
    (connected phone [] _ (by decide +kernel) (by decide +kernel)).trans
      ((connected tablet _ _ (by decide +kernel) (by decide +kernel)).trans
        (connected laptop _ _ (by decide +kernel) (by decide +kernel)))
  have secret : s.server.secret = "sec" := by
    rw [ran]
    decide +kernel
  have secret' : s'.server.secret = "sec" := by
    rw [ran']
    decide +kernel
  have online : s.world.hub.onlineDevices .nil =
      [laptop.onlineSnapshot, phone.onlineSnapshot] := by
    have entry : (s.world.hub.entry .nil).filterMap Prod.snd =
        [laptop.onlineSnapshot, phone.onlineSnapshot] := by
      rw [ran]
      decide +kernel
    rw [Hub.onlineDevices_eq_listed, entry]
    exact List.mergeSort_of_pairwise (by decide +kernel)
  have away : s'.world.hub.isOnline .nil tablet.id = false := by
    rw [ran']
    decide +kernel
  have same : SameEntry .nil s s' := by
    refine .reordered ⟨_, _, _, _, _, _, rfl⟩ ?_
    rw [ran, ran']
    decide +kernel
  have toList : Reads (list []) .devicesOnline := ⟨rfl, by decide +kernel, rfl⟩
  have toList' : Reads (list [("user", other.text)]) .devicesOnline := ⟨rfl, by decide +kernel, rfl⟩
  let segment := Utf8.encode "33333333333333333333333333333333"
  have toAsk : Reads ask (.deviceOnline segment) := ⟨rfl, by decide +kernel, rfl⟩
  obtain ⟨-, listed⟩ := told_of_own_entry s moment false (list []) _ toList
  obtain ⟨listing, -, alike⟩ := listed (token .nil) .nil (carried _ [] .nil (by simp))
    (secret ▸ verified .nil)
  obtain ⟨-, asked⟩ := told_of_own_entry s' moment false ask _ toAsk
  obtain ⟨refused, -⟩ := told_of_own_entry s' late false ask _ toAsk
  have shown : s.server.handle moment false (list []) = (s.server, .inl devices) := by
    rw [listing rfl, online]
    rfl
  refine ⟨shown, ?_, ?_, ?_⟩
  · rw [alike s' moment true (list [("user", other.text)]) _ (token .nil) toList'
      (carried _ _ .nil (by simp)) (secret' ▸ verified .nil) .devices same, shown]
  · rw [(asked (token .nil) .nil (carried _ [] .nil (by simp)) (secret' ▸ verified .nil)).2.1
      segment tablet.id rfl (by decide +kernel), away]
  · exact (refused .invalidToken
      (.unverified (token .nil) (carried _ [] .nil (by simp)) (secret' ▸ expired .nil))).1

end Service

end SignalHub.Server
