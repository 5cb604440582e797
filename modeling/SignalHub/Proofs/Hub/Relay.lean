import SignalHub.Proofs.Hub.Live
import SignalHub.Proofs.Hub.Queue

/-! A relay frame that a queue takes was sent by a client of the same user. It names its true sender
and the device that it is for, and otherwise says what the client said. What a queue takes is
numbered by the steps of the run that brought it; the numbers of relay frames increase, so each is
taken once and in the order of sending. -/
namespace SignalHub

open Device (Info)

namespace Relay

/-- What a relay says apart from who it is from and who it is for. -/
inductive Content where
  | session (sdp : String)
  | candidate (candidate : String) (lineIndex : Option (Fin 65536)) (mid : Option String)
  deriving DecidableEq, Repr

def content : Relay → Content
  | .offer p | .answer p => .session p.sdp
  | .candidate p => .candidate p.candidate p.lineIndex p.mid

@[simp] theorem kind_sentBy (device : Uuid) (r : Relay) : (r.sentBy device).kind = r.kind := by
  cases r <;> rfl

@[simp] theorem sender_sentBy (device : Uuid) (r : Relay) : (r.sentBy device).sender = device := by
  cases r <;> rfl

@[simp] theorem target_sentBy (device : Uuid) (r : Relay) : (r.sentBy device).target = r.target := by
  cases r <;> rfl

@[simp] theorem content_sentBy (device : Uuid) (r : Relay) :
    (r.sentBy device).content = r.content := by
  cases r <;> rfl

end Relay

def Message.Kind.isRelay : Message.Kind → Bool
  | .offer | .answer | .candidate => true
  | _ => false

/-- The kind of a frame as its reader sees it. -/
def Outbound.kind? : Outbound → Option Message.Kind
  | .message m => some m.kind
  | .text raw =>
    ((Json.parse? raw).bind Inbound.Envelope.ofJson?).bind fun e => Message.Kind.parse? e.kind

def Outbound.isRelay (o : Outbound) : Bool := o.kind?.any Message.Kind.isRelay

namespace Hub

/-- The step brings in a relay frame that no client has sent. -/
def Step.forges : Step → Bool
  | .forward _ _ _ m | .broadcast _ _ _ m => (Outbound.message m).isRelay
  | .send _ o => o.isRelay
  | _ => false

/-- A frame that a queue took, with the place in the run of the step that brought it. -/
structure Delivery where
  position : Nat
  frame : Outbound
  deriving DecidableEq, Repr

/-- What a queue took in a run whose first step has this place. -/
def deliveriesFrom (id : ConnId) : Nat → Hub → List Step → List Delivery
  | _, _, [] => []
  | n, h, s :: rest =>
    (accepted id (h.attempts s)).map (Delivery.mk n) ++ deliveriesFrom id (n + 1) (h.step s) rest

def deliveries (h : Hub) (id : ConnId) (steps : List Step) : List Delivery :=
  deliveriesFrom id 0 h steps

variable {h : Hub} {id : ConnId} {s : Step} {steps : List Step}

theorem frames_deliveriesFrom (id : ConnId) (n : Nat) (h : Hub) (steps : List Step) :
    (deliveriesFrom id n h steps).map Delivery.frame = accepted id (h.log steps) := by
  induction steps generalizing n h with
  | nil => rfl
  | cons s rest ih =>
    have here : ((accepted id (h.attempts s)).map (Delivery.mk n)).map Delivery.frame =
        accepted id (h.attempts s) := by simp [Function.comp_def]
    rw [deliveriesFrom, List.map_append, here, ih, log]
    simp [accepted]

/-- Whatever a queue took was taken in the step that it is numbered by. -/
theorem origin_of_delivery {n : Nat} {d : Delivery} (taken : d ∈ deliveriesFrom id n h steps) :
    ∃ past s rest, steps = past ++ s :: rest ∧ d.position = n + past.length ∧
      d.frame ∈ accepted id ((h.run past).attempts s) := by
  induction steps generalizing n h with
  | nil => simp [deliveriesFrom] at taken
  | cons s rest ih =>
    rcases List.mem_append.mp taken with now | later
    · obtain ⟨o, accepted, rfl⟩ := List.mem_map.mp now
      exact ⟨[], s, rest, rfl, rfl, accepted⟩
    · obtain ⟨past, s', rest', rfl, position, accepted⟩ := ih later
      refine ⟨s :: past, s', rest', rfl, ?_, accepted⟩
      rw [position, List.length_cons]
      omega

theorem le_position_of_delivery {n : Nat} {d : Delivery}
    (taken : d ∈ deliveriesFrom id n h steps) : n ≤ d.position := by
  obtain ⟨past, -, -, -, position, -⟩ := origin_of_delivery taken
  omega

theorem offered_of_accepted {attempts : List Attempt} {o : Outbound}
    (taken : o ∈ accepted id attempts) : ∃ a ∈ attempts, a.conn = id ∧ a.item = o := by
  obtain ⟨a, kept, rfl⟩ := List.mem_map.mp taken
  obtain ⟨member, condition⟩ := List.mem_filter.mp kept
  rw [Bool.and_eq_true, beq_iff_eq] at condition
  exact ⟨a, member, condition.1, rfl⟩

theorem not_relay_of_registerOffer {conn : ConnId} {p : ConnId × Outbound}
    (offer : p ∈ h.registerOffers conn) : p.2.isRelay = false := by
  unfold registerOffers at offer
  split at offer
  · simp at offer
  rcases List.mem_cons.mp offer with rfl | news
  · rfl
  · rw [(of_mem_broadcastOffers news).2]
    rfl

theorem not_relay_of_unregisterOffer {conn : ConnId} {p : ConnId × Outbound}
    (offer : p ∈ h.unregisterOffers conn) : p.2.isRelay = false := by
  unfold unregisterOffers at offer
  split at offer
  · simp at offer
  split at offer
  · rw [(of_mem_broadcastOffers offer).2]
    rfl
  · simp at offer

/-- The only relay frame that a text frame leads to is the request in it, in its sender's name. -/
theorem relay_of_textOffer {conn : ConnId} {raw : String} {p : ConnId × Outbound}
    (offer : p ∈ h.textOffers conn raw) (relay : p.2.isRelay = true) :
    ∃ c r, h.connection? conn = some c ∧ Inbound.decode raw = .ok (.relay r) ∧
      h.registry.lookup c.user r.target = some p.1 ∧
      p.2 = .message (.relay (r.sentBy c.device)) := by
  unfold textOffers at offer
  cases found : h.connection? conn with
  | none => simp [found] at offer
  | some c =>
    rw [found] at offer
    dsimp only at offer
    split at offer
    · rw [List.mem_singleton.mp offer] at relay
      contradiction
    · rename_i r asked
      obtain ⟨stored, item⟩ := of_mem_forwardOffers offer
      exact ⟨c, r, rfl, asked, stored, item⟩
    · rw [List.mem_singleton.mp offer] at relay
      contradiction

theorem relay_of_offer {p : ConnId × Outbound} (honest : s.forges = false)
    (offer : p ∈ h.offers s) (relay : p.2.isRelay = true) :
    ∃ sender raw c r, s = .text sender raw ∧ h.connection? sender = some c ∧
      Inbound.decode raw = .ok (.relay r) ∧ h.registry.lookup c.user r.target = some p.1 ∧
      p.2 = .message (.relay (r.sentBy c.device)) := by
  have impossible {goal : Prop} (silent : p.2.isRelay = false) : goal := by
    rw [silent] at relay
    contradiction
  cases s with
  | text sender raw =>
    obtain ⟨c, r, found, asked, stored, item⟩ := relay_of_textOffer offer relay
    exact ⟨sender, raw, c, r, rfl, found, asked, stored, item⟩
  | register conn => exact impossible (not_relay_of_registerOffer offer)
  | unregister conn => exact impossible (not_relay_of_unregisterOffer offer)
  | join conn =>
    simp only [offers] at offer
    split at offer
    · exact impossible (not_relay_of_registerOffer offer)
    · simp at offer
  | leave conn =>
    simp only [offers] at offer
    split at offer
    · exact impossible (not_relay_of_unregisterOffer offer)
    · simp at offer
  | forward weak user target m =>
    apply impossible
    rw [(of_mem_forwardOffers offer).2]
    exact honest
  | broadcast weak user exclude m =>
    apply impossible
    rw [(of_mem_broadcastOffers offer).2]
    exact honest
  | streamStart user start =>
    apply impossible
    rw [(of_mem_broadcastOffers offer).2]
    rfl
  | streamEnd user stream =>
    apply impossible
    rw [(of_mem_broadcastOffers offer).2]
    rfl
  | send target item =>
    obtain rfl := List.mem_singleton.mp offer
    exact impossible honest
  | connect | close | receive | dropReceiver | finish | halt | release | closeAll =>
    simp [offers] at offer

theorem relay_of_accepted {o : Outbound} (honest : s.forges = false)
    (taken : o ∈ accepted id (h.attempts s)) (relay : o.isRelay = true) :
    ∃ sender raw c r, s = .text sender raw ∧ h.connection? sender = some c ∧
      Inbound.decode raw = .ok (.relay r) ∧ h.registry.lookup c.user r.target = some id ∧
      o = .message (.relay (r.sentBy c.device)) := by
  obtain ⟨a, attempted, rfl, rfl⟩ := offered_of_accepted taken
  exact relay_of_offer honest (mem_trials attempted) relay

@[simp] theorem length_trials (h : Hub) (offers : Offers) :
    (h.trials offers).length = offers.length := by
  induction offers generalizing h with
  | nil => rfl
  | cons p rest ih => simp [trials, ih]

/-- A text frame leads to one offer at most. -/
theorem length_textOffers (h : Hub) (conn : ConnId) (raw : String) :
    (h.textOffers conn raw).length ≤ 1 := by
  unfold textOffers
  cases h.connection? conn with
  | none => simp
  | some c =>
    dsimp only
    split
    · simp
    · unfold forwardOffers
      split
      · simp
      · cases h.registry.lookup c.user _ <;> simp [Offers.ofMessage]
    · simp

/-- A text frame changes one queue at most, and that by one frame. -/
theorem queues_of_text (h : Hub) (conn : ConnId) (raw : String) :
    (∀ id, (h.step (.text conn raw)).queue id = h.queue id) ∨
    ∃ id o, (h.step (.text conn raw)).queue id = h.queue id ++ [o] ∧
      ∀ other, other ≠ id → (h.step (.text conn raw)).queue other = h.queue other := by
  have after (id) : (h.step (.text conn raw)).queue id =
      h.queue id ++ accepted id (h.attempts (.text conn raw)) := queue_step h (.text conn raw) id
  have few : (h.attempts (.text conn raw)).length ≤ 1 := by
    rw [attempts, length_trials]
    exact length_textOffers h conn raw
  rcases attempted : h.attempts (.text conn raw) with - | ⟨a, - | ⟨b, rest⟩⟩
  · left
    intro id
    simp [after, attempted, accepted]
  · rcases taken : a.verdict with - | - | -
    · right
      refine ⟨a.conn, a.item, ?_, ?_⟩
      · simp [after, attempted, accepted, taken]
      · intro other apart
        simp [after, attempted, accepted, Ne.symm apart]
    all_goals
      left
      intro id
      simp [after, attempted, accepted, taken]
  · simp [attempted] at few

/-- A step brings a queue one relay frame at most. -/
theorem length_relays (h : Hub) (id : ConnId) (honest : s.forges = false) :
    ((accepted id (h.attempts s)).filter Outbound.isRelay).length ≤ 1 := by
  cases relays : (accepted id (h.attempts s)).filter Outbound.isRelay with
  | nil => simp
  | cons o others =>
    obtain ⟨taken, relay⟩ := List.mem_filter.mp (relays ▸ List.mem_cons_self)
    obtain ⟨conn, raw, -, -, rfl, -⟩ := relay_of_accepted honest taken relay
    calc (o :: others).length
        ≤ (accepted id (h.attempts (.text conn raw))).length := by
          rw [← relays]
          exact List.length_filter_le _ _
      _ ≤ (h.attempts (.text conn raw)).length := by
          rw [accepted, List.length_map]
          exact List.length_filter_le _ _
      _ ≤ 1 := by
          rw [attempts, length_trials]
          exact length_textOffers h conn raw

/-- Relay frames come to a queue in different steps, the later ones in later steps. -/
theorem relays_ordered (honest : ∀ s ∈ steps, s.forges = false) (n : Nat) :
    ((deliveriesFrom id n h steps).filter fun d => d.frame.isRelay).Pairwise
      fun d e => d.position < e.position := by
  induction steps generalizing n h with
  | nil => exact .nil
  | cons s rest ih =>
    have single := length_relays h id (honest s List.mem_cons_self)
    rw [deliveriesFrom, List.filter_append, List.filter_map, List.pairwise_append]
    refine ⟨?_, ih (fun s' member => honest s' (List.mem_cons_of_mem s member)) (n + 1), ?_⟩
    · change (((accepted id (h.attempts s)).filter Outbound.isRelay).map (Delivery.mk n)).Pairwise _
      rcases relays : (accepted id (h.attempts s)).filter Outbound.isRelay with
        - | ⟨o, - | ⟨o', others⟩⟩
      · exact .nil
      · exact List.pairwise_singleton _ _
      · simp [relays] at single
    · intro d now e later
      obtain ⟨o, -, rfl⟩ := List.mem_map.mp now
      exact le_position_of_delivery (List.mem_filter.mp later).1

/-- The client whose request a relay frame carries is of the same user as the one who gets it, which
is registered for the device that the request names. -/
theorem relay_of_delivery (reports : Bool) (honest : ∀ s ∈ steps, s.forges = false) {d : Delivery}
    (taken : d ∈ (new reports).deliveries id steps) (relay : d.frame.isRelay = true) :
    ∃ sender raw r c c', steps[d.position]? = some (.text sender raw) ∧
      Inbound.decode raw = .ok (.relay r) ∧
      ((new reports).run steps).connection? sender = some c ∧
      ((new reports).run steps).connection? id = some c' ∧
      c.user = c'.user ∧ r.target = c'.device ∧ d.frame = .message (.relay (r.sentBy c.device)) := by
  obtain ⟨past, s, rest, rfl, position, accepted⟩ := origin_of_delivery taken
  obtain ⟨sender, raw, x, r, rfl, found, asked, stored, frame⟩ :=
    relay_of_accepted (honest s (by simp)) accepted relay
  obtain ⟨x', found', sameUser, device⟩ := (consistent_run reports past).keyed _ _ _ stored
  have later := ages_run ((new reports).run past) (.text sender raw :: rest)
  rw [← run_append] at later
  obtain ⟨c, nowFound, aged⟩ := later sender x found
  obtain ⟨c', nowFound', aged'⟩ := later id x' found'
  refine ⟨sender, raw, r, c, c', ?_, asked, nowFound, nowFound', ?_, ?_, ?_⟩
  · simp [position]
  · rw [aged.user, aged'.user, sameUser]
  · rw [aged'.device, device]
  · rw [aged.device, frame]

/-- As long as relay frames come from clients only, every relay frame that a queue ever took was
brought by one text frame of a client of the same user. It is of the kind that this client asked for
and has the content that it gave, whoever it claimed to be; and it reached the device that it named.
Relay frames are taken once each, in the order in which they were sent, and a text frame adds one
frame to one queue at most. -/
theorem relays_authentic (reports : Bool) (steps : List Step)
    (honest : ∀ s ∈ steps, s.forges = false) :
    (∀ id,
      let deliveries := (new reports).deliveries id steps
      deliveries.map Delivery.frame = accepted id ((new reports).log steps) ∧
      ((deliveries.filter fun d => d.frame.isRelay).Pairwise fun d e => d.position < e.position) ∧
      ∀ d ∈ deliveries, d.frame.isRelay = true → ∃ sender raw asked c c' relayed,
        steps[d.position]? = some (.text sender raw) ∧
        Inbound.decode raw = .ok (.relay asked) ∧
        ((new reports).run steps).connection? sender = some c ∧
        ((new reports).run steps).connection? id = some c' ∧ c.user = c'.user ∧
        d.frame = .message (.relay relayed) ∧ relayed.kind = asked.kind ∧
        relayed.sender = c.device ∧ relayed.target = c'.device ∧
        relayed.content = asked.content) ∧
    ∀ past s rest, steps = past ++ s :: rest →
      let h := (new reports).run past
      (∀ id, (h.step s).queue id = s.leaves id (h.queue id) ++ accepted id (h.attempts s)) ∧
      ∀ conn raw, s = .text conn raw →
        (∀ id, (h.step s).queue id = h.queue id) ∨
        ∃ id o, (h.step s).queue id = h.queue id ++ [o] ∧
          ∀ other, other ≠ id → (h.step s).queue other = h.queue other := by
  refine ⟨?_, ?_⟩
  · intro id
    refine ⟨frames_deliveriesFrom id 0 _ steps, relays_ordered honest 0, ?_⟩
    intro d taken relay
    obtain ⟨sender, raw, r, c, c', place, asked, found, found', user, device, frame⟩ :=
      relay_of_delivery reports honest taken relay
    refine ⟨sender, raw, r, c, c', r.sentBy c.device, place, asked, found, found', user, frame, ?_⟩
    simp [device]
  · intro past s rest _
    refine ⟨queue_step _ s, ?_⟩
    rintro conn raw rfl
    exact queues_of_text _ conn raw

/-- A client that claims to be a third device is relayed in its own name. -/
theorem relays_authentic_forged :
    let user := Uuid.repeated 0
    let phone := Info.plain (.repeated 1) "phone"
    let laptop := Info.plain (.repeated 2) "laptop"
    let raw := "[\"webrtc:offer\",[\"" ++ (Uuid.repeated 3).text ++ "\",\"" ++ laptop.id.text ++
      "\",\"v=0\"]]"
    let steps : List Step := [.connect user phone.id phone 4, .connect user laptop.id laptop 4,
      .register 0, .register 1, .text 0 raw]
    let relayed : Relay := .offer ⟨phone.id, laptop.id, "v=0"⟩
    (∀ s ∈ steps, s.forges = false) ∧
      ⟨4, .message (.relay relayed)⟩ ∈ (new false).deliveries 1 steps ∧
      ∃ asked : Relay, Inbound.decode raw = .ok (.relay asked) ∧ relayed.kind = asked.kind ∧
        relayed.content = asked.content := by
  intro user phone laptop raw steps relayed
  have honest : ∀ s ∈ steps, s.forges = false := by decide +kernel
  have taken : ⟨4, .message (.relay relayed)⟩ ∈ (new false).deliveries 1 steps := by decide +kernel
  have sent := ((relays_authentic false steps honest).1 1).2.2 _ taken rfl
  obtain ⟨_, _, asked, _, _, _, place, decoded, -, -, -, frame, kind, -, -, content⟩ := sent
  obtain ⟨rfl, rfl⟩ := Step.text.inj (Option.some.inj place)
  obtain rfl := Message.relay.inj (Outbound.message.inj frame)
  exact ⟨honest, taken, asked, decoded, kind, content⟩

end Hub
end SignalHub
