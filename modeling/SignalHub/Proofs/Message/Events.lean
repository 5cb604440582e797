import SignalHub.Proofs.Message.Frames

/-! A frame with a payload is an object that names the kind of its message and holds the payload,
and nothing else (`parse?_encode`). Every payload is read as what it was written from
(`ofPayload?_payload`), also by a reader that has kept the frame as a value of any shape
(`keep_toJson`). Records of the directory are read back from their texts as well. -/
namespace SignalHub

namespace Json

theorem keepItems_of_kept {room : Nat} {items : List Json}
    (kept : ∀ v ∈ items, keep room v = some v) : keepItems room items = some items := by
  induction items with
  | nil => rfl
  | cons v items ih =>
    have first := kept v List.mem_cons_self
    have rest := ih fun other found => kept other (List.mem_cons_of_mem v found)
    simp [keepItems, first, rest]

/-- An array is kept as it is when its items are. -/
theorem keep_array {room : Nat} {items : List Json} (kept : ∀ v ∈ items, keep room v = some v) :
    keep (room + 1) (.array items) = some (.array items) := by
  rw [keep, keepItems_of_kept kept, Option.map_some]

theorem keep_bool (room : Nat) (b : Bool) : keep room (.bool b) = some (.bool b) := by
  cases room <;> rfl

theorem keep_null (room : Nat) : keep room .null = some .null := by
  cases room <;> rfl

/-- A list is read back if each of its items is. -/
theorem list?_map {α : Type} {read : Json → Option α} {write : α → Json}
    (back : ∀ a, read (write a) = some a) (items : List α) :
    list? read (.array (items.map write)) = some items := by
  induction items with
  | nil => rfl
  | cons a items ih =>
    simp only [list?, List.map_cons, List.mapM_cons, back] at ih ⊢
    simp [ih]

theorem lookup_of_mem {members : List (String × Json)} (distinct : Distinct members)
    {m : String × Json} (member : m ∈ members) : members.lookup m.1 = some m.2 := by
  induction members with
  | nil => cases member
  | cons first members ih =>
    obtain ⟨fresh, distinct⟩ := List.nodup_cons.mp distinct
    rcases List.mem_cons.mp member with rfl | later
    · exact List.lookup_cons_self
    · have other : m.1 ≠ first.1 := fun same => fresh (same ▸ List.mem_map_of_mem later)
      rw [List.lookup_cons, beq_false_of_ne other]
      exact ih distinct later

/-- A record of known members finds each of them under its name. -/
theorem fields?_of_distinct {members : List (String × Json)} (distinct : Distinct members) :
    ∃ fields, (ofMembers members).fields? (members.map Prod.fst) = some fields ∧
      ∀ m ∈ members, fields m.1 = some m.2 := by
  obtain ⟨fields, read, found⟩ := fields?_ofMembers (members.map Prod.fst) distinct
  refine ⟨fields, read, fun m member => ?_⟩
  rw [found m.1 (List.mem_map_of_mem member), lookup_of_mem distinct member]

end Json

theorem Uuid.keep_toJson (id : Uuid) (room : Nat) : Json.keep room id.toJson = some id.toJson :=
  Json.keep_ofString room id.text

namespace Device

namespace Info

def members (d : Info) : List (String × Json) :=
  [("id", d.id.toJson), ("device_id", .ofString d.deviceId), ("device_name", .ofString d.name),
    ("device_type", .ofString d.kind), ("has_camera", .bool d.hasCamera),
    ("has_microphone", .bool d.hasMicrophone), ("is_online", .bool d.isOnline)]

theorem distinct_members (d : Info) : Json.Distinct d.members := by
  simp [Json.Distinct, members]

theorem ofJson?_toJson (d : Info) : ofJson? d.toJson = some d := by
  obtain ⟨fields, read, held⟩ := Json.fields?_of_distinct d.distinct_members
  have known : d.toJson.fields? fieldNames = some fields := read
  simp only [members, List.forall_mem_cons] at held
  obtain ⟨id, deviceId, name, kind, camera, microphone, online, -⟩ := held
  rw [ofJson?, known]
  simp [Json.Fields.required, Json.Fields.withDefault, id, deviceId, name, kind, camera, microphone,
    online, Uuid.ofJson?_toJson, Json.string?_ofString, Json.bool?]

theorem keep_toJson (d : Info) (room : Nat) : Json.keep (room + 1) d.toJson = some d.toJson := by
  refine Json.keep_ofMembers d.distinct_members ?_
  simp [Uuid.keep_toJson, Json.keep_ofString, Json.keep_bool]

end Info

namespace Record

def members (r : Record) : List (String × Json) :=
  [("id", r.id.toJson), ("user_id", r.user.toJson), ("device_id", .ofString r.deviceId),
    ("device_name", .ofString r.name), ("device_type", .ofString r.kind),
    ("has_camera", .bool r.hasCamera), ("has_microphone", .bool r.hasMicrophone),
    ("is_online", .bool r.isOnline)]

theorem distinct_members (r : Record) : Json.Distinct r.members := by
  simp [Json.Distinct, members]

theorem ofJson?_toJson (r : Record) : ofJson? r.toJson = some r := by
  obtain ⟨fields, read, held⟩ := Json.fields?_of_distinct r.distinct_members
  have known : r.toJson.fields? fieldNames = some fields := read
  simp only [members, List.forall_mem_cons] at held
  obtain ⟨id, user, deviceId, name, kind, camera, microphone, online, -⟩ := held
  rw [ofJson?, known]
  simp [Json.Fields.required, Json.Fields.withDefault, id, user, deviceId, name, kind, camera,
    microphone, online, Uuid.ofJson?_toJson, Json.string?_ofString, Json.bool?]

theorem parse?_render (r : Record) : parse? r.toJson.render = some r := by
  rw [parse?, Json.parse?_render, Option.bind_some, ofJson?_toJson]

end Record

end Device

namespace StreamStart

def members (s : StreamStart) : List (String × Json) :=
  [("stream_id", s.stream.toJson), ("source_device_id", s.source.toJson),
    ("stream_type", .ofString s.kind), ("quality", .ofString s.quality)]

theorem distinct_members (s : StreamStart) : Json.Distinct s.members := by
  simp [Json.Distinct, members]

theorem ofJson?_toJson (s : StreamStart) : ofJson? s.toJson = some s := by
  obtain ⟨fields, read, held⟩ := Json.fields?_of_distinct s.distinct_members
  have known : s.toJson.fields? ["stream_id", "source_device_id", "stream_type", "quality"] =
      some fields := read
  simp only [members, List.forall_mem_cons] at held
  obtain ⟨stream, source, kind, quality, -⟩ := held
  rw [ofJson?, known]
  simp [Json.Fields.required, stream, source, kind, quality, Uuid.ofJson?_toJson,
    Json.string?_ofString]

theorem keep_toJson (s : StreamStart) (room : Nat) :
    Json.keep (room + 1) s.toJson = some s.toJson := by
  refine Json.keep_ofMembers s.distinct_members ?_
  simp [Uuid.keep_toJson, Json.keep_ofString]

end StreamStart

namespace Report

def members (r : Report) : List (String × Json) :=
  [("code", .ofString r.code), ("message", .ofString r.message)]

theorem distinct_members (r : Report) : Json.Distinct r.members := by
  simp [Json.Distinct, members]

theorem ofJson?_toJson (r : Report) : ofJson? r.toJson = some r := by
  obtain ⟨fields, read, held⟩ := Json.fields?_of_distinct r.distinct_members
  have known : r.toJson.fields? ["code", "message"] = some fields := read
  simp only [members, List.forall_mem_cons] at held
  obtain ⟨code, message, -⟩ := held
  rw [ofJson?, known]
  simp [Json.Fields.required, code, message, Json.string?_ofString]

theorem keep_toJson (r : Report) (room : Nat) : Json.keep (room + 1) r.toJson = some r.toJson := by
  refine Json.keep_ofMembers r.distinct_members ?_
  simp [Json.keep_ofString]

end Report

namespace Message

theorem single?_ofMembers {α : Type} {name : String} {read : Json → Option α} {v : Json} {a : α}
    (back : read v = some a) : single? name read (.ofMembers [(name, v)]) = some a := by
  have found : (Json.ofMembers [(name, v)]).fields? [name] = _ :=
    Json.fieldsOfMembers_of_distinct (by simp [Json.Distinct])
  rw [single?, found]
  simp [Json.Fields.required, back]

theorem keep_single {name : String} {room : Nat} {v : Json} (kept : Json.keep room v = some v) :
    Json.keep (room + 1) (.ofMembers [(name, v)]) = some (.ofMembers [(name, v)]) :=
  Json.keep_ofMembers (by simp [Json.Distinct]) (by simp [kept])

/-- A payload is read as what it was written from. -/
theorem ofPayload?_payload {m : Message} {payload : Json} (carried : m.payload? = some payload) :
    ofPayload? m.kind payload = some m := by
  cases m with
  | deviceOnline device =>
    obtain rfl := Option.some.inj carried
    simp [kind, ofPayload?, single?_ofMembers device.ofJson?_toJson]
  | deviceOffline device =>
    obtain rfl := Option.some.inj carried
    simp [kind, ofPayload?, single?_ofMembers device.ofJson?_toJson]
  | deviceList devices =>
    obtain rfl := Option.some.inj carried
    simp [kind, ofPayload?, single?_ofMembers (Json.list?_map Device.Info.ofJson?_toJson devices)]
  | streamStart start =>
    obtain rfl := Option.some.inj carried
    simp [kind, ofPayload?, start.ofJson?_toJson]
  | streamEnd stream =>
    obtain rfl := Option.some.inj carried
    simp [kind, ofPayload?, single?_ofMembers stream.ofJson?_toJson]
  | relay r =>
    obtain rfl := Option.some.inj carried
    cases r with
    | offer p | answer p => simp [kind, Relay.kind, Relay.payload, ofPayload?, p.ofJson?_toJson]
    | candidate c => simp [kind, Relay.kind, Relay.payload, ofPayload?, c.ofJson?_toJson]
  | error report =>
    obtain rfl := Option.some.inj carried
    simp [kind, ofPayload?, report.ofJson?_toJson]
  | ping nullPayload | pong nullPayload =>
    cases nullPayload with
    | true => rfl
    | false => cases carried

/-- Three arrays and objects in each other are as deep as a payload goes. -/
theorem keep_payload {m : Message} {payload : Json} (carried : m.payload? = some payload)
    (room : Nat) : Json.keep (room + 3) payload = some payload := by
  cases m with
  | deviceOnline device =>
    obtain rfl := Option.some.inj carried
    exact keep_single (device.keep_toJson (room + 1))
  | deviceOffline id | streamEnd id =>
    obtain rfl := Option.some.inj carried
    exact keep_single (id.keep_toJson (room + 2))
  | deviceList devices =>
    obtain rfl := Option.some.inj carried
    refine keep_single (Json.keep_array fun v listed => ?_)
    obtain ⟨device, -, rfl⟩ := List.mem_map.mp listed
    exact device.keep_toJson room
  | streamStart start =>
    obtain rfl := Option.some.inj carried
    exact start.keep_toJson (room + 2)
  | relay r =>
    obtain rfl := Option.some.inj carried
    cases r with
    | offer p | answer p => exact p.keep_toJson (room + 2)
    | candidate c => exact c.keep_toJson (room + 2)
  | error report =>
    obtain rfl := Option.some.inj carried
    exact report.keep_toJson (room + 2)
  | ping nullPayload | pong nullPayload =>
    cases nullPayload with
    | true =>
      obtain rfl := Option.some.inj carried
      exact Json.keep_null (room + 3)
    | false => cases carried

/-- The object that a frame with a payload stands for. -/
def envelope (kind : String) (payload : Json) : Json :=
  .object [(some "type", .ofString kind), (some "payload", payload)]

theorem toJson_of_payload {m : Message} {payload : Json} (carried : m.payload? = some payload) :
    m.toJson = envelope m.kind.name payload := by
  rw [toJson, carried]
  rfl

theorem parse?_encode {m : Message} {payload : Json} (carried : m.payload? = some payload) :
    Json.parse? m.encode = some (envelope m.kind.name payload) := by
  rw [encode, Json.parse?_render, toJson_of_payload carried]

theorem keep_envelope {kind : String} {room : Nat} {payload : Json}
    (kept : Json.keep room payload = some payload) :
    Json.keep (room + 1) (envelope kind payload) = some (envelope kind payload) := by
  have distinct : Json.Distinct [("type", .ofString kind), ("payload", payload)] := by
    simp [Json.Distinct]
  exact Json.keep_ofMembers distinct (by simp [Json.keep_ofString, kept])

/-- The frame is one object, with this name for its type, a payload, and nothing else. A reader that
keeps values of any shape keeps it as it is, and the payload is read as what the message holds. -/
def ReadBack (m : Message) (name : String) : Prop :=
  m.kind.name = name ∧ ∃ payload,
    Json.parse? m.encode =
      some (.object [(some "type", .text (some name)), (some "payload", payload)]) ∧
    (Json.parse? m.encode).bind (Json.keep (Inbound.payloadRoom + 1)) = Json.parse? m.encode ∧
    ofPayload? m.kind payload = some m

theorem readBack_of_payload {m : Message} {payload : Json} (carried : m.payload? = some payload) :
    ReadBack m m.kind.name := by
  refine ⟨rfl, payload, parse?_encode carried, ?_, ofPayload?_payload carried⟩
  rw [parse?_encode carried, Option.bind_some]
  exact keep_envelope (keep_payload carried 123)

/-- Everything that the hub tells devices on its own account is read back as it was said, whatever
identifiers, texts, flags and lists are in it, and so is every record of the directory. -/
theorem events_read_back :
    (∀ device, ReadBack (.deviceOnline device) "device:online") ∧
    (∀ device, ReadBack (.deviceOffline device) "device:offline") ∧
    (∀ devices, ReadBack (.deviceList devices) "device:list") ∧
    (∀ start, ReadBack (.streamStart start) "stream:start") ∧
    (∀ stream, ReadBack (.streamEnd stream) "stream:end") ∧
    (∀ report, ReadBack (.error report) "error") ∧
    ∀ record : Device.Record, Device.Record.parse? record.toJson.render = some record :=
  ⟨fun _ => readBack_of_payload rfl, fun _ => readBack_of_payload rfl,
    fun _ => readBack_of_payload rfl, fun _ => readBack_of_payload rfl,
    fun _ => readBack_of_payload rfl, fun _ => readBack_of_payload rfl,
    Device.Record.parse?_render⟩

end Message
end SignalHub
