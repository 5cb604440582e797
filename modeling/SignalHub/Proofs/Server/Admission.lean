import SignalHub.Proofs.Text.Blank
import SignalHub.Server.Upgrade

/-! A websocket is granted to a user whose token verifies, for a device that the directory says is
that user's own (`admits_of_websocket`, `websocket_of_admits`). Any other request for one is refused
before anything is done for it: first for want of a user, then for what is wrong with it
(`refused_of_not_admitted`). -/
namespace SignalHub

namespace Server

open Http (Request Response)

variable {s : Server} {moment : Moment} {upgradable : Bool} {r : Request} {user : Uuid}
  {record : Device.Record}

/-- The request comes from a user and asks for a device that the directory says is the user's. -/
structure Admits (s : Server) (moment : Moment) (r : Request) (user : Uuid)
    (record : Device.Record) : Prop where
  verified : ∃ token, Token.ofRequest r = .ok token ∧
    Token.verify s.secret moment.seconds token = .ok user
  asked : ∃ raw id, deviceParameter? r = some (some raw) ∧
    Uuid.parse? (Blank.trim raw) = some id ∧ s.world.directory.find? id = some record
  works : s.world.directoryFails = false
  owned : record.user = user

/-- What is wrong with the device that a user asks for, and the status that goes with it. -/
inductive Fault (s : Server) (user : Uuid) (r : Request) : Nat → Prop where
  | repeated (unreadable : deviceParameter? r = none) : Fault s user r 400
  | missing (absent : deviceParameter? r = some none) : Fault s user r 400
  | blank (raw : String) (given : deviceParameter? r = some (some raw))
      (blank : Blank.blank raw = true) : Fault s user r 400
  | unparsable (raw : String) (given : deviceParameter? r = some (some raw))
      (unparsable : Uuid.parse? (Blank.trim raw) = none) : Fault s user r 400
  | failing (raw : String) (id : Uuid) (given : deviceParameter? r = some (some raw))
      (parsed : Uuid.parse? (Blank.trim raw) = some id) (fails : s.world.directoryFails = true) :
      Fault s user r 500
  | unknown (raw : String) (id : Uuid) (given : deviceParameter? r = some (some raw))
      (parsed : Uuid.parse? (Blank.trim raw) = some id) (works : s.world.directoryFails = false)
      (absent : s.world.directory.find? id = none) : Fault s user r 404
  | foreign (raw : String) (id : Uuid) (record : Device.Record)
      (given : deviceParameter? r = some (some raw))
      (parsed : Uuid.parse? (Blank.trim raw) = some id) (works : s.world.directoryFails = false)
      (found : s.world.directory.find? id = some record) (foreign : record.user ≠ user) :
      Fault s user r 403

theorem user_eq_ok : s.user moment r = .ok user ↔
    ∃ token, Token.ofRequest r = .ok token ∧
      Token.verify s.secret moment.seconds token = .ok user := by
  have unfolded : s.user moment r =
      (Token.ofRequest r).bind (Token.verify s.secret moment.seconds) := rfl
  rw [unfolded]
  cases Token.ofRequest r with
  | error e => simp [Except.bind]
  | ok token => simp [Except.bind]

/-- The own device of a user, or what is wrong with the one asked for. -/
theorem ownDevice_cases {parameter : Option String} (given : deviceParameter? r = some parameter) :
    (∃ raw id record, parameter = some raw ∧ Uuid.parse? (Blank.trim raw) = some id ∧
      s.world.directoryFails = false ∧ s.world.directory.find? id = some record ∧
      record.user = user ∧ s.ownDevice user parameter = .ok record) ∨
    ∃ refusal, s.ownDevice user parameter = .error refusal ∧ Fault s user r refusal.status := by
  have refused {status : Nat} {message : String} (fault : Fault s user r status)
      (refuses : s.ownDevice user parameter = .error (.error status message)) :
      ∃ refusal, s.ownDevice user parameter = .error refusal ∧ Fault s user r refusal.status :=
    ⟨.error status message, refuses, fault⟩
  cases parameter with
  | none => exact .inr (refused (.missing given) rfl)
  | some raw =>
    by_cases blank : Blank.blank raw = true
    · have dropped : (some raw).filter (fun raw => !Blank.blank raw) = none := by simp [blank]
      have refuses : s.ownDevice user (some raw) =
          .error (.error 400 "device_id query parameter required") := by
        simp only [ownDevice, dropped]
      exact .inr (refused (.blank raw given blank) refuses)
    have kept : (some raw).filter (fun raw => !Blank.blank raw) = some raw := by simp [blank]
    cases parsed : Uuid.parse? (Blank.trim raw) with
    | none =>
      have refuses : s.ownDevice user (some raw) = .error (.error 400 "invalid device_id") := by
        simp only [ownDevice, kept, parsed]
      exact .inr (refused (.unparsable raw given parsed) refuses)
    | some id =>
      by_cases fails : s.world.directoryFails = true
      · have refuses : s.ownDevice user (some raw) = .error (.error 500 "internal error") := by
          simp only [ownDevice, kept, parsed, if_pos fails]
        exact .inr (refused (.failing raw id given parsed fails) refuses)
      have works : s.world.directoryFails = false := Bool.eq_false_iff.mpr fails
      cases found : s.world.directory.find? id with
      | none =>
        have refuses : s.ownDevice user (some raw) = .error (.error 404 "device not found") := by
          simp only [ownDevice, kept, parsed, if_neg fails, found]
        exact .inr (refused (.unknown raw id given parsed works found) refuses)
      | some record =>
        by_cases own : record.user = user
        · refine .inl ⟨raw, id, record, rfl, parsed, works, found, own, ?_⟩
          simp only [ownDevice, kept, parsed, if_neg fails, found, if_pos own]
        · have refuses : s.ownDevice user (some raw) =
              .error (.error 403 "device not owned by user") := by
            simp only [ownDevice, kept, parsed, if_neg fails, found, if_neg own]
          exact .inr (refused (.foreign raw id record given parsed works found own) refuses)

/-- A refusal of a request for a websocket: for want of a user before anything else, then for what is
wrong with the request, and last for what is wrong with the device. -/
structure Refused (s : Server) (moment : Moment) (upgradable : Bool) (r : Request)
    (response : Response) : Prop where
  unauthorized : (∀ user, s.user moment r ≠ .ok user) → response.status = 401
  malformed : ∀ user status, s.user moment r = .ok user → upgradeRefusal? upgradable r = some status →
    400 ≤ response.status ∧ response.status ≠ 401
  faulty : ∀ user, s.user moment r = .ok user → upgradeRefusal? upgradable r = none →
    Fault s user r response.status

theorem status_headOnly (response : Response) : response.headOnly.status = response.status := by
  rw [Response.headOnly]
  split <;> rfl

theorem upgradeRefusal?_status {status : Nat} (refusal : upgradeRefusal? upgradable r = some status) :
    400 ≤ status ∧ status ≠ 401 := by
  rw [upgradeRefusal?] at refusal
  repeat' split at refusal
  all_goals
    cases refusal
    try decide

theorem readable_of_upgrade (formed : upgradeRefusal? upgradable r = none) : readable r = true := by
  rw [upgradeRefusal?] at formed
  split at formed
  · cases formed
  · rename_i got
    have method : r.method = "GET" := by simpa using got
    simp [readable, method]

theorem refused_bare {status : Nat} (known : s.user moment r = .ok user)
    (refuses : 400 ≤ status ∧ status ≠ 401)
    (faulty : upgradeRefusal? upgradable r = none → Fault s user r status) :
    Refused s moment upgradable r (.bare status) where
  unauthorized unknown := absurd known (unknown user)
  malformed _ _ _ _ := refuses
  faulty other sent formed := by
    obtain rfl : user = other := Except.ok.inj (known.symm.trans sent)
    exact faulty formed

/-- What a user gets who asks for a websocket. -/
theorem websocket_cases (known : s.user moment r = .ok user) :
    (∃ record, upgradeRefusal? upgradable r = none ∧ Admits s moment r user record ∧
      s.websocket upgradable user r = .websocket user record) ∨
    ∃ response, s.websocket upgradable user r = .response response ∧
      Refused s moment upgradable r response := by
  rw [websocket]
  cases given : deviceParameter? r with
  | none => exact .inr ⟨_, rfl, refused_bare known (by decide) fun _ => .repeated given⟩
  | some parameter =>
    cases formed : upgradeRefusal? upgradable r with
    | some status =>
      refine .inr ⟨_, rfl, refused_bare known (upgradeRefusal?_status formed) fun whole => ?_⟩
      rw [formed] at whole
      cases whole
    | none =>
      rcases ownDevice_cases given with ⟨raw, id, record, rfl, parsed, works, found, own, mine⟩ |
        ⟨refusal, refuses, fault⟩
      · have admits : Admits s moment r user record :=
          ⟨user_eq_ok.mp known, ⟨raw, id, given, parsed, found⟩, works, own⟩
        exact .inl ⟨record, rfl, admits, by simp only [mine]⟩
      · refine .inr ⟨refusal, by simp only [refuses], ?_⟩
        exact {
          unauthorized := fun unknown => absurd known (unknown user)
          malformed := fun _ _ _ malformed => by
            rw [formed] at malformed
            cases malformed
          faulty := fun other sent _ => by
            obtain rfl : user = other := Except.ok.inj (known.symm.trans sent)
            exact fault }

theorem Refused.of_status {response response' : Response}
    (refused : Refused s moment upgradable r response)
    (same : response'.status = response.status) : Refused s moment upgradable r response' where
  unauthorized unknown := same.trans (refused.unauthorized unknown)
  malformed user status known malformed := same ▸ refused.malformed user status known malformed
  faulty user known formed := same ▸ refused.faulty user known formed

theorem refused_unauthorized {e : Access.Error} (unknown : s.user moment r = .error e) :
    Refused s moment upgradable r (unauthorized e) where
  unauthorized _ := rfl
  malformed user _ known := by
    rw [unknown] at known
    cases known
  faulty user known := by
    rw [unknown] at known
    cases known

/-- Who the user is comes first, whatever else there is to say. -/
theorem routeAnswer_cases (s : Server) (moment : Moment) (upgradable : Bool) (r : Request) :
    (∃ user record, upgradeRefusal? upgradable r = none ∧ Admits s moment r user record ∧
      s.routeAnswer moment upgradable r .websocket = .websocket user record) ∨
    ∃ response, s.routeAnswer moment upgradable r .websocket = .response response ∧
      Refused s moment upgradable r response := by
  rw [routeAnswer, if_pos (show Route.isProtected .websocket = true from rfl)]
  cases known : s.user moment r with
  | error e => exact .inr ⟨_, rfl, refused_unauthorized known⟩
  | ok user =>
    by_cases readable_ : readable r = true
    · simp only [if_pos readable_]
      rcases websocket_cases known with ⟨record, formed, admits, granted⟩ | refused
      · exact .inl ⟨user, record, formed, admits, granted⟩
      · exact .inr refused
    · simp only [if_neg readable_]
      exact .inr ⟨_, rfl, refused_bare known (by decide)
        fun formed => absurd (readable_of_upgrade formed) readable_⟩

/-- What a request for a websocket gets. -/
theorem answer_cases (s : Server) (moment : Moment) (upgradable : Bool)
    (route : Route.ofPath? r.uri.path = some .websocket) :
    (∃ user record, upgradeRefusal? upgradable r = none ∧ Admits s moment r user record ∧
      s.answer moment upgradable r = .websocket user record) ∨
    ∃ response, s.answer moment upgradable r = .response response ∧
      Refused s moment upgradable r response := by
  rw [answer, fullAnswer, route]
  rcases routeAnswer_cases s moment upgradable r with
    ⟨user, record, formed, admits, granted⟩ | ⟨response, refuses, refused⟩
  · exact .inl ⟨user, record, formed, admits, by simp only [granted]⟩
  · refine .inr ⟨if r.method == "HEAD" then response.headOnly else response, by simp only [refuses],
      refused.of_status ?_⟩
    split
    · exact status_headOnly response
    · rfl

theorem not_websocket_of_route {route : Route} (other : route ≠ .websocket) :
    s.routeAnswer moment upgradable r route ≠ .websocket user record := by
  rw [routeAnswer]
  cases route with
  | websocket => exact absurd rfl other
  | ping | health =>
    simp only [Route.isProtected, Bool.false_eq_true, if_false]
    split <;> simp
  | iceServers | devicesOnline | deviceOnline =>
    simp only [Route.isProtected, if_true]
    cases s.user moment r with
    | error e => simp
    | ok known =>
      dsimp only
      split <;> simp [protectedAnswer]

/-- A websocket is granted only on its own route. -/
theorem admits_of_websocket (granted : s.answer moment upgradable r = .websocket user record) :
    Route.ofPath? r.uri.path = some .websocket ∧ upgradeRefusal? upgradable r = none ∧
      Admits s moment r user record := by
  have routed : Route.ofPath? r.uri.path = some .websocket := by
    rw [answer, fullAnswer] at granted
    cases there : Route.ofPath? r.uri.path with
    | none => simp [there] at granted
    | some route =>
      simp only [there] at granted
      cases full : s.routeAnswer moment upgradable r route with
      | response response => simp [full] at granted
      | websocket known device =>
        refine congrArg some (Decidable.byContradiction fun other => ?_)
        exact not_websocket_of_route other full
  rcases answer_cases s moment upgradable routed with ⟨known, device, formed, admits, answered⟩ |
    ⟨response, answered, -⟩
  · obtain ⟨rfl, rfl⟩ := Answer.websocket.inj (answered.symm.trans granted)
    exact ⟨routed, formed, admits⟩
  · cases answered.symm.trans granted

/-- There is nothing wrong with a request that is admitted. -/
theorem Admits.faultless (admits : Admits s moment r user record) (status : Nat) :
    ¬ Fault s user r status := by
  obtain ⟨raw, id, given, parsed, found⟩ := admits.asked
  intro fault
  cases fault with
  | repeated unreadable => simp [unreadable] at given
  | missing absent => simp [absent] at given
  | blank other given' blank =>
    obtain rfl : raw = other := by simpa [given] using given'
    rw [Blank.trim_of_blank blank] at parsed
    cases parsed
  | unparsable other given' unparsable =>
    obtain rfl : raw = other := by simpa [given] using given'
    simp [parsed] at unparsable
  | failing other id' given' parsed' fails => simp [admits.works] at fails
  | unknown other id' given' parsed' works absent =>
    obtain rfl : raw = other := by simpa [given] using given'
    obtain rfl : id = id' := by simpa [parsed] using parsed'
    simp [found] at absent
  | foreign other id' record' given' parsed' works found' foreign =>
    obtain rfl : raw = other := by simpa [given] using given'
    obtain rfl : id = id' := by simpa [parsed] using parsed'
    obtain rfl : record = record' := by simpa [found] using found'
    exact foreign admits.owned

/-- A request has one user and one device. -/
theorem Admits.unique {other : Uuid} {device : Device.Record}
    (admits : Admits s moment r user record) (again : Admits s moment r other device) :
    user = other ∧ record = device := by
  have known := user_eq_ok.mpr admits.verified
  have same : user = other := Except.ok.inj (known.symm.trans (user_eq_ok.mpr again.verified))
  obtain ⟨raw, id, given, parsed, found⟩ := admits.asked
  obtain ⟨raw', id', given', parsed', found'⟩ := again.asked
  obtain rfl : raw = raw' := by simpa [given] using given'
  obtain rfl : id = id' := by simpa [parsed] using parsed'
  exact ⟨same, Option.some.inj (found.symm.trans found')⟩

/-- Whoever is admitted, and asks in due form, gets a websocket. -/
theorem websocket_of_admits (route : Route.ofPath? r.uri.path = some .websocket)
    (formed : upgradeRefusal? upgradable r = none) (admits : Admits s moment r user record) :
    s.answer moment upgradable r = .websocket user record := by
  rcases answer_cases s moment upgradable route with ⟨other, device, -, again, answered⟩ |
    ⟨response, -, refused⟩
  · obtain ⟨rfl, rfl⟩ := admits.unique again
    exact answered
  · have known := user_eq_ok.mpr admits.verified
    exact absurd (refused.faulty user known formed) (admits.faultless response.status)

theorem handle_of_response {response : Response}
    (answered : s.answer moment upgradable r = .response response) :
    s.handle moment upgradable r = (s, .inl response) := by
  simp only [handle, answered]

/-- Whoever is not admitted is refused, and nothing is done. -/
theorem refused_of_not_admitted (upgradable : Bool)
    (route : Route.ofPath? r.uri.path = some .websocket)
    (stranger : ¬ ∃ user record, Admits s moment r user record) :
    ∃ response, s.answer moment upgradable r = .response response ∧
      s.handle moment upgradable r = (s, .inl response) ∧
      Refused s moment upgradable r response := by
  rcases answer_cases s moment upgradable route with ⟨user, record, -, admits, -⟩ |
    ⟨response, answered, refused⟩
  · exact absurd ⟨user, record, admits⟩ stranger
  · exact ⟨response, answered, handle_of_response answered, refused⟩

end Server
end SignalHub
