import SignalHub.Json.Reader
import SignalHub.Uuid

/-! A record is what the directory holds of a device; `Info` is what the siblings of a connected
device are told about it. A device goes online as its record says, and is then called online. -/
namespace SignalHub.Device

structure Info where
  id : Uuid
  deviceId : String
  name : String
  kind : String
  hasCamera : Bool
  hasMicrophone : Bool
  isOnline : Bool
  deriving DecidableEq, Repr

structure Record where
  id : Uuid
  user : Uuid
  deviceId : String
  name : String
  kind : String
  hasCamera : Bool
  hasMicrophone : Bool
  isOnline : Bool
  deriving DecidableEq, Repr

def Record.onlineSnapshot (r : Record) : Info :=
  ⟨r.id, r.deviceId, r.name, r.kind, r.hasCamera, r.hasMicrophone, true⟩

namespace Info

def toJson (d : Info) : Json :=
  .ofMembers [("id", d.id.toJson), ("device_id", .ofString d.deviceId),
    ("device_name", .ofString d.name), ("device_type", .ofString d.kind),
    ("has_camera", .bool d.hasCamera), ("has_microphone", .bool d.hasMicrophone),
    ("is_online", .bool d.isOnline)]

def fieldNames : List String :=
  ["id", "device_id", "device_name", "device_type", "has_camera", "has_microphone", "is_online"]

def ofJson? (v : Json) : Option Info := do
  let fields ← v.fields? fieldNames
  let id ← fields.required "id" Uuid.ofJson?
  let deviceId ← fields.required "device_id" Json.string?
  let name ← fields.required "device_name" Json.string?
  let kind ← fields.required "device_type" Json.string?
  let hasCamera ← fields.withDefault "has_camera" Json.bool? false
  let hasMicrophone ← fields.withDefault "has_microphone" Json.bool? false
  let isOnline ← fields.withDefault "is_online" Json.bool? false
  return ⟨id, deviceId, name, kind, hasCamera, hasMicrophone, isOnline⟩

/-- Devices are listed by name, and by identifier where names agree. -/
def before (a b : Info) : Bool := a.name < b.name || (a.name == b.name && a.id.before b.id)

def listed (devices : List Info) : List Info := devices.mergeSort fun a b => !b.before a

end Info

namespace Record

def toJson (r : Record) : Json :=
  .ofMembers [("id", r.id.toJson), ("user_id", r.user.toJson), ("device_id", .ofString r.deviceId),
    ("device_name", .ofString r.name), ("device_type", .ofString r.kind),
    ("has_camera", .bool r.hasCamera), ("has_microphone", .bool r.hasMicrophone),
    ("is_online", .bool r.isOnline)]

def fieldNames : List String :=
  ["id", "user_id", "device_id", "device_name", "device_type", "has_camera", "has_microphone",
    "is_online"]

/-- A record that does not say what kind of device it is describes a desktop. -/
def ofJson? (v : Json) : Option Record := do
  let fields ← v.fields? fieldNames
  let id ← fields.required "id" Uuid.ofJson?
  let user ← fields.required "user_id" Uuid.ofJson?
  let deviceId ← fields.required "device_id" Json.string?
  let name ← fields.required "device_name" Json.string?
  let kind ← fields.withDefault "device_type" Json.string? "desktop"
  let hasCamera ← fields.withDefault "has_camera" Json.bool? false
  let hasMicrophone ← fields.withDefault "has_microphone" Json.bool? false
  let isOnline ← fields.withDefault "is_online" Json.bool? false
  return ⟨id, user, deviceId, name, kind, hasCamera, hasMicrophone, isOnline⟩

def parse? (text : String) : Option Record := (Json.parse? text).bind ofJson?

end Record
end SignalHub.Device
