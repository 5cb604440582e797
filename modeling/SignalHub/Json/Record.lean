import SignalHub.Json.Basic

/-! A record in JSON is an object with known member names, or an array with its fields in order. In
an object other members are ignored and a known member comes at most once; in an array nothing may
follow the last field. `Fields` tells what each field holds, `none` for an absent one. -/
namespace SignalHub.Json

abbrev Fields := String → Option Json

def Fields.none : Fields := fun _ => Option.none

def Fields.insert (name : String) (v : Json) (fields : Fields) : Fields :=
  fun other => if other = name then some v else fields other

def fieldsOfItems : List String → List Json → Option Fields
  | _, [] => some .none
  | [], _ :: _ => none
  | name :: names, v :: items => (fieldsOfItems names items).map (.insert name v)

def fieldsOfMembers (names : List String) : List (Option String × Json) → Option Fields
  | [] => some .none
  | (name, v) :: rest => do
    let name ← name
    let fields ← fieldsOfMembers names rest
    if name ∈ names then
      if (fields name).isSome then none else return fields.insert name v
    else return fields

/-- The fields of a record with these names. -/
def fields? (names : List String) : Json → Option Fields
  | .array items => fieldsOfItems names items
  | .object members => fieldsOfMembers names members
  | _ => none

namespace Fields

def required (fields : Fields) (name : String) (read : Json → Option α) : Option α :=
  (fields name).bind read

/-- A field that may be absent, but holds a readable value if it is there. -/
def withDefault (fields : Fields) (name : String) (read : Json → Option α) (default : α) :
    Option α :=
  match fields name with
  | some v => read v
  | Option.none => some default

end Fields
end SignalHub.Json
