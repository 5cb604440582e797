import SignalHub.Device

/-! The directory holds one record for each device identifier. It is told which devices are online;
a device it does not know cannot change. -/
namespace SignalHub

structure Directory where
  records : List Device.Record
  deriving DecidableEq, Repr

namespace Directory

open Device (Record)

inductive Error where
  | unknownDevice (id : Uuid)
  deriving DecidableEq, Repr

def Error.message : Error → String
  | .unknownDevice id => "device " ++ id.text ++ " not found"

def empty : Directory := ⟨[]⟩

def find? (d : Directory) (id : Uuid) : Option Record := d.records.find? fun r => r.id == id

/-- Puts a record in the place of the one with its identifier, or at the end. -/
def put (record : Record) : List Record → List Record
  | [] => [record]
  | r :: rest => if r.id = record.id then record :: rest else r :: put record rest

def insert (d : Directory) (record : Record) : Directory := ⟨put record d.records⟩

def ofRecords (records : List Record) : Directory := records.foldl insert empty

def setOnline (d : Directory) (id : Uuid) (online : Bool) : Except Error Directory :=
  match d.find? id with
  | some record => .ok (d.insert { record with isOnline := online })
  | none => .error (.unknownDevice id)

end Directory
end SignalHub
