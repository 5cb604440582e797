import SignalHub.Proofs.Json.Grammar
import SignalHub.Proofs.Json.Keeping
import SignalHub.Proofs.Message.Frames

/-! A frame is decoded by the type and the payload of the envelope that its text spells, whatever
the order of the members, the blanks and escapes, and the members with other names. A text that
spells no envelope is refused (`decode_by_meaning`). -/
namespace SignalHub.Inbound

open Json (Spells Keepable named)

/-- The value is an envelope of this type, with this payload or none: an object with sound names, in
which other members do not matter, or an array. -/
inductive Carries : Json → String → Option Json → Prop where
  | object {members : List (Option String × Json)} {type : String} {payload : Option Json}
      (names : ∀ m ∈ members, m.1.isSome = true)
      (typed : named "type" members = [.text (some type)])
      (held : named "payload" members = payload.toList) : Carries (.object members) type payload
  | bare (type : String) : Carries (.array [.text (some type)]) type none
  | pair (type : String) (payload : Json) :
      Carries (.array [.text (some type), payload]) type (some payload)

/-- The payload, if there is one, can be kept inside the envelope. -/
def Fits (payload : Option Json) : Prop := ∀ p, payload = some p → Keepable payloadRoom p

/-- The text spells an envelope of this type and payload. -/
def IsEnvelope (raw type : String) (payload : Option Json) : Prop :=
  ∃ v, Spells raw v ∧ Carries v type payload ∧ Fits payload

namespace RelayKind

def kind : RelayKind → Message.Kind
  | .offer => .offer
  | .answer => .answer
  | .candidate => .candidate

/-- The type of the frames that ask for a relay of this kind. -/
def type (k : RelayKind) : String := k.kind.name

/-- The names of the members that a payload of this kind is read from. -/
def fields : RelayKind → List String
  | .offer | .answer => ["from_device_id", "to_device_id", "sdp"]
  | .candidate => ["from_device_id", "to_device_id", "candidate", "sdp_mline_index", "sdp_mid"]

def read : RelayKind → Json → Option Relay
  | .offer, v => (Sdp.ofJson? v).map .offer
  | .answer, v => (Sdp.ofJson? v).map .answer
  | .candidate, v => (Candidate.ofJson? v).map .candidate

/-- The request in a payload, as it is kept. -/
def request? (k : RelayKind) (payload : Option Json) : Option Relay :=
  (payload.bind (Json.keep payloadRoom)).bind k.read

end RelayKind

/-- The payload as the reader of an envelope keeps it. -/
def kept : Option Json → Option Json
  | none => some .null
  | some p => Json.keep payloadRoom p

theorem isSome_kept_iff {payload : Option Json} : (kept payload).isSome = true ↔ Fits payload := by
  cases payload with
  | none => simp [kept, Fits]
  | some p => simp [kept, Fits, Json.keep_isSome_iff]

/-- An envelope is what has the fields of one. -/
theorem carries_iff {v : Json} {type : String} {payload : Option Json} :
    Carries v type payload ↔ ∃ fields, v.fields? ["type", "payload"] = some fields ∧
      fields "type" = some (.text (some type)) ∧ fields "payload" = payload := by
  constructor
  · rintro (@⟨members, type, payload, names, typed, held⟩ | type | ⟨type, payload⟩)
    · refine ⟨_, Json.fieldsOfMembers_eq_some_iff.mpr ⟨⟨names, fun name known => ?_⟩, rfl⟩, ?_, ?_⟩
      · obtain rfl | rfl : name = "type" ∨ name = "payload" := by simpa using known
        · simp [typed]
        · rw [held]
          cases payload <;> simp
      · simp [Json.firstNamed, typed]
      · cases payload <;> simp [Json.firstNamed, held]
    · exact ⟨_, rfl, rfl, rfl⟩
    · exact ⟨_, rfl, rfl, rfl⟩
  · rintro ⟨fields, read, typed, held⟩
    cases v with
    | null | bool | number | text => cases read
    | object members =>
      have typed' := Json.fields?_named read "type" (by simp)
      have held' := Json.fields?_named read "payload" (by simp)
      rw [typed] at typed'
      rw [held] at held'
      exact .object (Json.fieldsOfMembers_eq_some_iff.mp read).1.sound typed' held'
    | array items =>
      obtain _ | ⟨t, _ | ⟨p, _ | _⟩⟩ := items
      · cases read
        cases typed
      · cases read
        cases typed
        cases held
        exact .bare type
      · cases read
        cases typed
        cases held
        exact .pair type p
      · cases read

theorem string?_eq_some_iff {v : Json} {s : String} : v.string? = some s ↔ v = .text (some s) := by
  cases v <;> simp [Json.string?]

theorem ofJson?_eq_some_iff {v : Json} {e : Envelope} : Envelope.ofJson? v = some e ↔
    ∃ payload, Carries v e.kind payload ∧ kept payload = some e.payload := by
  have held (fields : Json.Fields) :
      fields.withDefault "payload" (Json.keep payloadRoom) .null = kept (fields "payload") := by
    unfold Json.Fields.withDefault kept
    cases fields "payload" <;> rfl
  simp only [Envelope.ofJson?, Option.bind_eq_bind, Option.bind_eq_some_iff, Option.pure_def,
    Option.some.injEq, Json.Fields.required, string?_eq_some_iff, held, carries_iff]
  constructor
  · rintro ⟨fields, read, kind, ⟨_, typed, rfl⟩, p, keeps, rfl⟩
    exact ⟨_, ⟨fields, read, typed, rfl⟩, keeps⟩
  · rintro ⟨_, ⟨fields, read, typed, rfl⟩, keeps⟩
    exact ⟨fields, read, e.kind, ⟨_, typed, rfl⟩, e.payload, keeps, rfl⟩

/-- A frame is an envelope exactly if it spells one. -/
theorem envelope?_eq_some_iff {raw : String} {e : Envelope} :
    (Json.parse? raw).bind Envelope.ofJson? = some e ↔
      ∃ v payload, Spells raw v ∧ Carries v e.kind payload ∧ kept payload = some e.payload := by
  simp only [Option.bind_eq_some_iff, Json.parse?_eq_some_iff, ofJson?_eq_some_iff]
  constructor
  · rintro ⟨v, spelled, payload, carries, keeps⟩
    exact ⟨v, payload, spelled, carries, keeps⟩
  · rintro ⟨v, payload, spelled, carries, keeps⟩
    exact ⟨v, spelled, payload, carries, keeps⟩

/-- What becomes of a frame of this kind. -/
def RelayKind.outcome (k : RelayKind) (payload : Option Json) : Except Refusal Inbound :=
  match k.request? payload with
  | some r => .ok (.relay r)
  | none => .error (.badPayload k)

theorem request?_of_kept (k : RelayKind) {payload : Option Json} {p : Json}
    (keeps : kept payload = some p) : k.request? payload = k.read p := by
  cases payload with
  | none =>
    obtain rfl := Option.some.inj keeps
    cases k <;> rfl
  | some v =>
    have same : Json.keep payloadRoom v = some p := keeps
    rw [RelayKind.request?, Option.bind_some, same, Option.bind_some]

theorem ofEnvelope_type (k : RelayKind) {payload : Option Json} {p : Json}
    (keeps : kept payload = some p) : ofEnvelope ⟨k.type, p⟩ = k.outcome payload := by
  unfold ofEnvelope RelayKind.outcome
  rw [request?_of_kept k keeps]
  simp only [RelayKind.type, Message.Kind.parse?_name]
  cases k <;> rfl

theorem name_of_parse? {text : String} {kind : Message.Kind}
    (known : Message.Kind.parse? text = some kind) : text = kind.name := by
  have same := List.find?_some known
  exact (beq_iff_eq.mp same).symm

theorem ofEnvelope_unknown {type : String} (ping : type ≠ "ping")
    (other : ∀ k : RelayKind, type ≠ k.type) (p : Json) :
    ofEnvelope ⟨type, p⟩ = .error (.unknownType type) := by
  unfold ofEnvelope
  cases known : Message.Kind.parse? type with
  | none => rfl
  | some kind =>
    have name := name_of_parse? known
    cases kind with
    | ping => exact absurd name ping
    | offer => exact absurd name (other .offer)
    | answer => exact absurd name (other .answer)
    | candidate => exact absurd name (other .candidate)
    | deviceOnline | deviceOffline | deviceList | streamStart | streamEnd | error | pong => rfl

theorem decode_of_envelope {raw type : String} {payload : Option Json}
    (envelope : IsEnvelope raw type payload) :
    ∃ p, kept payload = some p ∧ decode raw = ofEnvelope ⟨type, p⟩ := by
  obtain ⟨v, spelled, carries, fits⟩ := envelope
  obtain ⟨p, keeps⟩ := Option.isSome_iff_exists.mp (isSome_kept_iff.mpr fits)
  have read : (Json.parse? raw).bind Envelope.ofJson? = some ⟨type, p⟩ :=
    envelope?_eq_some_iff.mpr ⟨v, payload, spelled, carries, keeps⟩
  exact ⟨p, keeps, by rw [decode, read]⟩

theorem decode_of_no_envelope {raw : String}
    (none_ : ∀ type payload, ¬ IsEnvelope raw type payload) :
    decode raw = .error .notAnEnvelope := by
  unfold decode
  cases read : (Json.parse? raw).bind Envelope.ofJson? with
  | none => rfl
  | some e =>
    obtain ⟨v, payload, spelled, carries, keeps⟩ := envelope?_eq_some_iff.mp read
    have fits : Fits payload := isSome_kept_iff.mp (by rw [keeps]; rfl)
    exact absurd ⟨v, spelled, carries, fits⟩ (none_ e.kind payload)

theorem ofEnvelope_ne_notAnEnvelope (e : Envelope) : ofEnvelope e ≠ .error .notAnEnvelope := by
  unfold ofEnvelope payload
  repeat' split
  all_goals simp

theorem read_congr (k : RelayKind) {v u : Json} (same : v.fields? k.fields = u.fields? k.fields) :
    k.read v = k.read u := by
  cases k with
  | offer | answer =>
    simp only [RelayKind.fields] at same
    simp only [RelayKind.read, Sdp.ofJson?, same]
  | candidate =>
    simp only [RelayKind.fields] at same
    simp only [RelayKind.read, Candidate.ofJson?, same]

/-- A request is read from the members that it knows, wherever they are and whatever is beside them. -/
theorem request?_congr (k : RelayKind) {members others : List (Option String × Json)}
    (distinct : (members.map Prod.fst).Nodup) (distinct' : (others.map Prod.fst).Nodup)
    (fits : Fits (some (.object members))) (fits' : Fits (some (.object others)))
    (same : ∀ name ∈ k.fields, named name members = named name others) :
    k.request? (some (.object members)) = k.request? (some (.object others)) := by
  obtain ⟨v, keeps, read⟩ := Json.fields?_keep distinct (fits _ rfl) k.fields
  obtain ⟨u, keeps', read'⟩ := Json.fields?_keep distinct' (fits' _ rfl) k.fields
  have first : k.request? (some (.object members)) = k.read v := request?_of_kept k keeps
  have second : k.request? (some (.object others)) = k.read u := request?_of_kept k keeps'
  rw [first, second]
  apply read_congr
  rw [read, read']
  congr 1
  funext name
  split
  · rename_i known
    rw [same name known]
  · rfl

/-- A frame is decoded by what it means. A ping is one whatever its payload. A request to relay is the
one in the payload, or refused for the payload, and an absent payload counts as null. Any other type
is refused as it was read, and a text that is no envelope is refused as such. So two texts that spell
envelopes of one type and payload are decoded alike, and so are two requests whose payloads are
objects without repetition that agree on the members that the request is read from. -/
theorem decode_by_meaning (raw : String) :
    (∀ type payload, IsEnvelope raw type payload →
      (type = "ping" → decode raw = .ok .ping) ∧
      (∀ k : RelayKind, type = k.type → decode raw = k.outcome payload) ∧
      (type ≠ "ping" → (∀ k : RelayKind, type ≠ k.type) →
        decode raw = .error (.unknownType type))) ∧
    (∀ k : RelayKind, k.outcome none = .error (.badPayload k) ∧
      k.outcome (some .null) = .error (.badPayload k)) ∧
    (decode raw = .error .notAnEnvelope ↔ ∀ type payload, ¬ IsEnvelope raw type payload) ∧
    (∀ raw' type payload, IsEnvelope raw type payload → IsEnvelope raw' type payload →
      decode raw' = decode raw) ∧
    ∀ raw' (k : RelayKind) members others,
      IsEnvelope raw k.type (some (.object members)) →
      IsEnvelope raw' k.type (some (.object others)) →
      (members.map Prod.fst).Nodup → (others.map Prod.fst).Nodup →
      (∀ name ∈ k.fields, named name members = named name others) → decode raw' = decode raw := by
  have outcome (raw : String) (k : RelayKind) {payload : Option Json}
      (envelope : IsEnvelope raw k.type payload) : decode raw = k.outcome payload := by
    obtain ⟨p, keeps, decoded⟩ := decode_of_envelope envelope
    rw [decoded, ofEnvelope_type k keeps]
  refine ⟨fun type payload envelope => ⟨?_, ?_, ?_⟩, fun k => ⟨?_, ?_⟩, ⟨?_, decode_of_no_envelope⟩,
    ?_, ?_⟩
  · rintro rfl
    obtain ⟨p, -, decoded⟩ := decode_of_envelope envelope
    exact decoded
  · rintro k rfl
    exact outcome raw k envelope
  · intro ping other
    obtain ⟨p, -, decoded⟩ := decode_of_envelope envelope
    rw [decoded, ofEnvelope_unknown ping other]
  · cases k <;> rfl
  · cases k <;> rfl
  · intro refused type payload envelope
    obtain ⟨p, -, decoded⟩ := decode_of_envelope envelope
    exact ofEnvelope_ne_notAnEnvelope _ (decoded.symm.trans refused)
  · intro raw' type payload envelope envelope'
    obtain ⟨p, keeps, decoded⟩ := decode_of_envelope envelope
    obtain ⟨p', keeps', decoded'⟩ := decode_of_envelope envelope'
    obtain rfl := Option.some.inj (keeps.symm.trans keeps')
    rw [decoded, decoded']
  · intro raw' k members others envelope envelope' distinct distinct' same
    obtain ⟨-, -, -, fits⟩ := id envelope
    obtain ⟨-, -, -, fits'⟩ := id envelope'
    rw [outcome raw k envelope, outcome raw' k envelope', RelayKind.outcome, RelayKind.outcome,
      request?_congr k distinct distinct' fits fits' same]

theorem spells_of_tokens? {raw : String} {v : Json}
    (found : Json.tokens? (raw.toList.map some) = some (Json.tokens v)) : Spells raw v :=
  (Json.tokens?_eq_some_iff (Json.spaced_value v) _).mp found

/-- One request in two spellings: with the members in another order, blanks, an escaped letter, and
members with other names, one of which holds a number that nobody can keep. -/
theorem decode_by_meaning_respelled :
    let raw := "\x7b\"type\":\"webrtc:offer\",\"payload\":\x7b\"sdp\":\"v=0\"," ++
      "\"to_device_id\":\"22222222-2222-2222-2222-222222222222\"\x7d\x7d"
    let raw' := "\x7b \"x\": 1e400, \"p\\u0061yload\": \x7b\"y\": [], " ++
      "\"to_device_id\": \"22222222-2222-2222-2222-222222222222\", \"sdp\": \"v=0\"\x7d, " ++
      "\"type\": \"webrtc:offer\"\x7d"
    decode raw' = decode raw := by
  intro raw raw'
  let sdp := (some "sdp", Json.ofString "v=0")
  let target := (some "to_device_id", Json.ofString "22222222-2222-2222-2222-222222222222")
  let members := [sdp, target]
  let others := [(some "y", Json.array []), target, sdp]
  have envelope : IsEnvelope raw "webrtc:offer" (some (.object members)) := by
    refine ⟨.object [(some "type", .ofString "webrtc:offer"), (some "payload", .object members)],
      spells_of_tokens? (by decide +kernel), .object (by simp) rfl rfl, ?_⟩
    rintro p ⟨⟩
    exact ⟨by decide, by decide +kernel⟩
  have envelope' : IsEnvelope raw' "webrtc:offer" (some (.object others)) := by
    refine ⟨.object [(some "x", .number ⟨false, 1, [], some 400⟩),
      (some "payload", .object others), (some "type", .ofString "webrtc:offer")],
      spells_of_tokens? (by decide +kernel), .object (by simp) rfl rfl, ?_⟩
    rintro p ⟨⟩
    exact ⟨by decide, by decide +kernel⟩
  refine (decode_by_meaning raw).2.2.2.2 raw' .offer members others envelope envelope' (by decide)
    (by decide) ?_
  intro name known
  obtain rfl | rfl | rfl : name = "from_device_id" ∨ name = "to_device_id" ∨ name = "sdp" := by
    simpa [RelayKind.fields] using known
  all_goals rfl

/-- A name that is no text makes a frame unreadable, though it is not the name of anything known; so
does a type that is no text. -/
theorem unsound_name_refused :
    let raw := "\x7b\"type\":\"ping\",\"\\ud800\":0\x7d"
    let members := [(some "type", .text (some "ping")), (none, Json.ofNat 0)]
    let raw' := "\x7b\"type\":\"\\ud800\"\x7d"
    (Spells raw (.object members) ∧ named "type" members = [.text (some "ping")] ∧
      named "payload" members = [] ∧ decode raw = .error .notAnEnvelope) ∧
      Spells raw' (.object [(some "type", .text none)]) ∧
      decode raw' = .error .notAnEnvelope := by
  intro raw members raw'
  have spelled : Spells raw (.object members) := spells_of_tokens? (by decide +kernel)
  have spelled' : Spells raw' (.object [(some "type", .text none)]) :=
    spells_of_tokens? (by decide +kernel)
  refine ⟨⟨spelled, rfl, rfl, ?_⟩, spelled', ?_⟩
  · rw [decode, Json.parse?_eq_some_iff.mpr spelled]
    rfl
  · rw [decode, Json.parse?_eq_some_iff.mpr spelled']
    rfl

end SignalHub.Inbound
