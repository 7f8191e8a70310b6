/-! The five kinds of message a thing exchanges with the hub, and their names. -/

namespace ThingHub

/-- What a message says about a thing: its description, its property values, an
event, requested actions or requested configuration changes. -/
inductive Kind
  | description
  | values
  | event
  | action
  | config
  deriving DecidableEq, Repr

namespace Kind

/-- Every kind, in the order in which the hub lists them. -/
def all : List Kind := [.description, .values, .event, .action, .config]

/-- The name of a kind in topics and documents. -/
def name : Kind → String
  | .description => "td"
  | .values => "values"
  | .event => "event"
  | .action => "action"
  | .config => "config"

/-- The kind of that exact name. -/
def ofName? (name : String) : Option Kind :=
  all.find? (·.name == name)

theorem name_injective {k l : Kind} (h : k.name = l.name) : k = l := by
  cases k <;> cases l <;> simp_all [name]

theorem ofName?_name (k : Kind) : ofName? k.name = some k := by
  cases k <;> decide

theorem name_of_ofName? {name : String} {k : Kind} (h : ofName? name = some k) :
    k.name = name := by
  simpa using List.find?_some h

end Kind

end ThingHub
