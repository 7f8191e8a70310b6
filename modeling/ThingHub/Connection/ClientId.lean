import ThingHub.Text.Blank

/-! The name under which a client appears at the broker. -/

namespace ThingHub

/-- The name of the host as it is configured, without blanks around it. -/
def hostName (configured : String) : String :=
  let name := Text.trim configured
  if name = "" then "localhost" else name

/-- Host, identity and the time of the connect in milliseconds, so that a restart on the
same host gets a new name. -/
def clientId (host identity : String) (millis : Nat) : String :=
  host ++ "-" ++ identity ++ "-" ++ millis.repr

/-- A thing id that a random number makes unique: eight hexadecimal digits follow. -/
def uniqueId (stem : String) (random : UInt32) : String :=
  let digits := Nat.toDigits 16 random.toNat
  stem ++ "-" ++ String.ofList (List.replicate (8 - digits.length) '0' ++ digits)

end ThingHub
