import SignalHub.Proofs.Hub.Counting
import SignalHub.Proofs.Hub.News
import SignalHub.Proofs.Message.Events

/-! A client's frame leads to one offer or none. A ping and a frame that is refused are answered to
the client itself; a request to relay goes to the device that it names, if that is registered. Apart
from the offer, only the phase of the client's own connection changes, and the counter of what
became of the request (`text_has_one_effect`). -/
namespace SignalHub

namespace Connection

@[simp] theorem verdict_markActive (c : Connection) : c.markActive.verdict = c.verdict := by
  unfold markActive
  split <;> rfl

/-- A connection that gets active was registered, and nothing else changes. -/
theorem markActive_eq (c : Connection) :
    c.markActive = { c with phase := if c.phase = .registered then .active else c.phase } := by
  unfold markActive
  split <;> rfl

end Connection

/-- The counters after a call to forward: it found nobody, or its offer had this verdict. -/
def Counters.afterCall (n : Counters) : Option Offer → Counters
  | none => { n with misses := n.misses + 1 }
  | some .queued => { n with forwarded := n.forwarded + 1 }
  | some .full => { n with dropped := n.dropped + 1 }
  | some .closed => n

namespace Inbound

theorem payload_ne_unknownType (k : RelayKind) (read : Json → Option Relay) (v : Json)
    (name : String) : payload k read v ≠ .error (.unknownType name) := by
  unfold payload
  split <;> simp

theorem kind_of_ofEnvelope {e : Envelope} {name : String}
    (refused : ofEnvelope e = .error (.unknownType name)) : e.kind = name := by
  unfold ofEnvelope at refused
  split at refused
  · cases refused
  · exact absurd refused (payload_ne_unknownType _ _ _ _)
  · exact absurd refused (payload_ne_unknownType _ _ _ _)
  · exact absurd refused (payload_ne_unknownType _ _ _ _)
  · cases refused
    rfl

/-- A type is unknown as it was read from the frame. -/
theorem kind_of_unknownType {raw name : String}
    (refused : decode raw = .error (.unknownType name)) :
    ∃ e, (Json.parse? raw).bind Envelope.ofJson? = some e ∧ e.kind = name := by
  cases read : (Json.parse? raw).bind Envelope.ofJson? with
  | none =>
    rw [decode, read] at refused
    cases refused
  | some e =>
    rw [decode, read] at refused
    exact ⟨e, rfl, kind_of_ofEnvelope refused⟩

end Inbound

namespace Hub

variable {h : Hub} {id : ConnId} {c : Connection} {raw : String}

theorem verdict_of_found (found : h.connection? id = some c) : h.verdict id = c.verdict := by
  rw [verdict, found]

@[simp] theorem verdict_update_markActive (h : Hub) (id j : ConnId) :
    (h.update id Connection.markActive).verdict j = h.verdict j := by
  unfold verdict
  rw [connection?_update]
  by_cases same : id = j
  · cases found : h.connection? j <;> simp [same]
  · simp [same]

theorem counters_forward (h : Hub) (user target : Uuid) (m : Message) :
    (h.forward user target m).1.counters =
      h.counters.afterCall ((h.registry.lookup user target).map h.verdict) := by
  unfold forward
  cases h.registry.lookup user target with
  | none => rfl
  | some j =>
    dsimp only [Option.map_some]
    unfold deliver
    cases h.verdict j <;> rfl

theorem handleText_of_ping (found : h.connection? id = some c)
    (asked : Inbound.decode raw = .ok .ping) :
    h.handleText id raw = (h.update id Connection.markActive).send id (.message .reply) := by
  simp [handleText, connection?_update, found, asked]

theorem handleText_of_refusal (found : h.connection? id = some c) {refusal : Inbound.Refusal}
    (refused : Inbound.decode raw = .error refusal) :
    h.handleText id raw =
      (h.update id Connection.markActive).send id (.message (.error refusal.report)) := by
  simp [handleText, connection?_update, found, refused]

theorem handleText_of_relay (found : h.connection? id = some c) {r : Relay}
    (asked : Inbound.decode raw = .ok (.relay r)) :
    h.handleText id raw = ((h.update id Connection.markActive).forwardWeak c.user r.target
      (.relay (r.sentBy c.device))).1 := by
  have aged := c.ages_markActive
  simp [handleText, connection?_update, found, asked, aged.user, aged.device]

theorem attempts_of_ping (found : h.connection? id = some c)
    (asked : Inbound.decode raw = .ok .ping) :
    h.attempts (.text id raw) = [⟨id, .message .reply, h.verdict id⟩] := by
  simp [attempts, arrange, offers, textOffers, found, asked, trials]

theorem attempts_of_refusal (found : h.connection? id = some c) {refusal : Inbound.Refusal}
    (refused : Inbound.decode raw = .error refusal) :
    h.attempts (.text id raw) = [⟨id, .message (.error refusal.report), h.verdict id⟩] := by
  simp [attempts, arrange, offers, textOffers, found, refused, trials]

theorem attempts_of_relay (found : h.connection? id = some c) {r : Relay}
    (asked : Inbound.decode raw = .ok (.relay r)) :
    h.attempts (.text id raw) =
      if h.alive then (h.registry.lookup c.user r.target).toList.map fun j =>
        ⟨j, .message (.relay (r.sentBy c.device)), h.verdict j⟩ else [] := by
  have offered : h.offers (.text id raw) =
      h.forwardOffers true c.user r.target (.relay (r.sentBy c.device)) := by
    simp [offers, textOffers, found, asked]
  rw [attempts, offered, forwardOffers]
  cases h.alive with
  | false => rfl
  | true =>
    cases h.registry.lookup c.user r.target with
    | none => rfl
    | some j => simp [Offers.ofMessage, arrange, trials]

theorem counters_of_relay (found : h.connection? id = some c) {r : Relay}
    (asked : Inbound.decode raw = .ok (.relay r)) :
    (h.handleText id raw).counters =
      if h.alive then h.counters.afterCall ((h.registry.lookup c.user r.target).map h.verdict)
      else h.counters := by
  let k := h.update id Connection.markActive
  have same : k.verdict = h.verdict := funext (verdict_update_markActive h id)
  have alive : k.alive = h.alive := rfl
  rw [handleText_of_relay found asked]
  change (k.forwardWeak _ _ _).1.counters = _
  unfold forwardWeak
  rw [alive]
  split
  · rw [counters_forward, same]
    rfl
  · rfl

/-- A queue takes what it accepts of the offer, the client's connection gets active if it was
registered, and nothing else changes of any connection. -/
theorem connection?_handleText (h : Hub) (id : ConnId) (raw : String) (j : ConnId) :
    (h.handleText id raw).connection? j = (h.connection? j).map fun x =>
      { x with
        phase := if j = id ∧ x.phase = .registered then .active else x.phase
        queue := x.queue ++ accepted j (h.attempts (.text id raw)) } := by
  rw [(handleText_alike h id raw).connection?, connection?_sendAll, connection?_update]
  by_cases own : id = j
  · subst own
    rw [if_pos rfl, Option.map_map]
    congr 1
    funext x
    simp [Connection.markActive_eq, attempts, arrange, offers]
  · simp [own, Ne.symm own, attempts, arrange, offers]

/-- What the frame of an error report says to its reader. -/
def Says (o : Outbound) (report : Report) : Prop :=
  ∃ payload, Json.parse? o.frame = some (Message.envelope "error" payload) ∧
    Report.ofJson? payload = some report

theorem says_report (report : Report) : Says (.message (.error report)) report :=
  ⟨report.toJson, Message.parse?_encode rfl, report.ofJson?_toJson⟩

/-- Every frame leads to one offer or none. A ping is answered with a pong that has no payload; a frame
that is refused, with an error that tells why, and which type it is that is not known. A request is
offered to the connection that is registered for the device it names, of the same user, as long as
there is a hub, and it is then counted by what became of it. No frame changes who is registered, and
none closes a connection. -/
theorem text_has_one_effect (reports : Bool) (steps : List Step) (id : ConnId) (c : Connection)
    (raw : String) (found : ((new reports).run steps).connection? id = some c) :
    let h := (new reports).run steps
    let k := h.handleText id raw
    let tried := h.attempts (.text id raw)
    (Inbound.decode raw = .ok .ping →
      tried = [⟨id, .message .reply, c.verdict⟩] ∧
      (Outbound.message .reply).frame = "\x7b\"type\":\"pong\"\x7d" ∧ k.counters = h.counters) ∧
    (∀ refusal, Inbound.decode raw = .error refusal →
      (∃ o, tried = [⟨id, o, c.verdict⟩] ∧ Says o ⟨refusal.code, refusal.message⟩) ∧
      (∀ name, refusal = .unknownType name → refusal.message = "unknown message type: " ++ name ∧
        ∃ e, (Json.parse? raw).bind Inbound.Envelope.ofJson? = some e ∧ e.kind = name) ∧
      k.counters = h.counters) ∧
    (∀ r, Inbound.decode raw = .ok (.relay r) →
      (h.alive = false → tried = [] ∧ k.counters = h.counters) ∧
      (h.alive = true → h.registry.lookup c.user r.target = none →
        tried = [] ∧ k.counters = h.counters.afterCall none) ∧
      (h.alive = true → ∀ j, h.registry.lookup c.user r.target = some j →
        ∃ x, h.connection? j = some x ∧ x.user = c.user ∧ x.device = r.target ∧
          tried = [⟨j, .message (.relay (r.sentBy c.device)), x.verdict⟩] ∧
          k.counters = h.counters.afterCall (some x.verdict))) ∧
    (∀ j, k.connection? j = (h.connection? j).map fun x =>
      { x with
        phase := if j = id ∧ x.phase = .registered then .active else x.phase
        queue := x.queue ++ accepted j tried }) ∧
    k.registry = h.registry ∧ k.reports = h.reports ∧ k.pending = h.pending ∧
      k.stopping = h.stopping ∧ k.alive = h.alive := by
  intro h k tried
  have known : h.verdict id = c.verdict := verdict_of_found found
  refine ⟨fun asked => ?_, fun refusal refused => ?_, fun r asked => ?_,
    connection?_handleText h id raw, ?_⟩
  · refine ⟨?_, by decide +kernel, ?_⟩
    · rw [← known]
      exact attempts_of_ping found asked
    · change (h.handleText id raw).counters = _
      rw [handleText_of_ping found asked]
      rfl
  · refine ⟨⟨.message (.error refusal.report), ?_, says_report refusal.report⟩, ?_, ?_⟩
    · rw [← known]
      exact attempts_of_refusal found refused
    · rintro name rfl
      exact ⟨rfl, Inbound.kind_of_unknownType refused⟩
    · change (h.handleText id raw).counters = _
      rw [handleText_of_refusal found refused]
      rfl
  · have attempted : tried = _ := attempts_of_relay (h := h) found asked
    have counted : k.counters = _ := counters_of_relay (h := h) found asked
    rw [attempted, counted]
    refine ⟨fun gone => ?_, fun alive missing => ?_, fun alive j stored => ?_⟩
    · simp [gone]
    · simp [alive, missing]
    · obtain ⟨x, there, user, device⟩ := (consistent_run reports steps).keyed _ _ _ stored
      have verdict : h.verdict j = x.verdict := verdict_of_found there
      exact ⟨x, there, user, device, by simp [alive, stored, verdict],
        by simp [alive, stored, verdict]⟩
  · have same := handleText_alike h id raw
    have silent := silent_handleText h id raw
    exact ⟨same.registry.trans (registry_sendAll _ _), silent.reports,
      by simpa using silent.pending, same.stopping.trans (stopping_sendAll _ _),
      same.alive.trans (alive_sendAll _ _)⟩

/-- A request that finds the queue of its device full, which still holds the list of devices. -/
theorem text_has_one_effect_full :
    let phone := Step.connect (.repeated 0) (.repeated 1) (.plain (.repeated 1) "phone") 4
    let laptop := Step.connect (.repeated 0) (.repeated 2) (.plain (.repeated 2) "laptop") 1
    let raw := "\x7b\"type\":\"webrtc:offer\",\"payload\":\x7b\"sdp\":\"v=0\"," ++
      "\"to_device_id\":\"22222222-2222-2222-2222-222222222222\"\x7d\x7d"
    let relayed := Relay.offer ⟨.repeated 1, .repeated 2, "v=0"⟩
    let h := (new false).run [phone, laptop, .register 0, .register 1]
    let k := h.handleText 0 raw
    h.attempts (.text 0 raw) = [⟨1, .message (.relay relayed), .full⟩] ∧
      k.counters = { h.counters with dropped := 1 } ∧
      (h.connection? 0).map Connection.phase = some .registered ∧
      (k.connection? 0).map Connection.phase = some .active := by
  intro phone laptop raw relayed h k
  have sender : (h.connection? 0).map (fun c => (c.user, c.device, c.phase)) =
      some (.repeated 0, .repeated 1, .registered) := by decide +kernel
  obtain ⟨c, found, own⟩ := Option.map_eq_some_iff.mp sender
  obtain ⟨user, own⟩ := Prod.mk.inj own
  obtain ⟨device, phase⟩ := Prod.mk.inj own
  have read : (Inbound.decode raw).toOption =
      some (.relay (.offer ⟨.nil, .repeated 2, "v=0"⟩)) := by decide +kernel
  have asked : Inbound.decode raw = .ok (.relay (.offer ⟨.nil, .repeated 2, "v=0"⟩)) := by
    cases decoded : Inbound.decode raw with
    | error _ => rw [decoded] at read; cases read
    | ok _ => rw [decoded] at read; exact congrArg Except.ok (Option.some.inj read)
  obtain ⟨-, -, relay, frame, -⟩ := text_has_one_effect false _ 0 c raw found
  have stored : h.registry.lookup c.user (.repeated 2) = some 1 := by
    rw [user]
    decide +kernel
  obtain ⟨x, there, -, -, tried, counted⟩ :=
    (relay _ asked).2.2 (by decide +kernel) 1 stored
  have full : x.verdict = .full := (verdict_of_found there).symm.trans (by decide +kernel)
  rw [full] at tried counted
  rw [device] at tried
  have after : k.connection? 0 = (h.connection? 0).map _ := frame 0
  refine ⟨tried, counted.trans (by decide +kernel), by rw [found, Option.map_some, phase], ?_⟩
  rw [after, found, Option.map_some, Option.map_some, phase]
  rfl

end Hub
end SignalHub
