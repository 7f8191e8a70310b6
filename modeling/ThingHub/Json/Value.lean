import ThingHub.Data.Entries
import ThingHub.Number.Double

/-! JSON values. -/

namespace ThingHub

/-- An integer that fits 64 bits, with or without sign, or a double. -/
inductive JsonNumber
  | int (value : Int)
  | real (value : Double)
  deriving DecidableEq, Repr

/-- A JSON value; the members of an object stand in ascending order of their names. -/
inductive Json
  | null
  | bool (value : Bool)
  | number (value : JsonNumber)
  | string (value : String)
  | array (items : List Json)
  | object (members : List (String × Json))

/-- The members of a JSON object. -/
abbrev JsonObject := Entries Json

def Json.string? : Json → Option String
  | .string value => some value
  | _ => none

end ThingHub
