import ThingHub.Settings.Connection
import ThingHub.Text.Parts

/-! Settings from an address such as `localhost:1883`. -/

namespace ThingHub

/-- A port number: decimal digits, after a plus sign or none, below `2 ^ 16`. -/
def parsePort? (text : String) : Option UInt16 :=
  let digits := match text.toList with
    | '+' :: rest => rest
    | all => all
  if digits.isEmpty || !digits.all Char.isDigit then none
  else
    let n := digits.foldl (fun n d => n * 10 + (d.toNat - '0'.toNat)) 0
    if n < Nat.pow 2 16 then some (UInt16.ofNat n) else none

/-- The port of a broker whose address names none. -/
def defaultPort : UInt16 := 1883

/-- The host is what stands before the last colon. A port that cannot be read is the
default one. -/
def splitAddress (address : String) : String × UInt16 :=
  match Text.cutLast? ':' address with
  | some (host, port) => (host, (parsePort? port).getD defaultPort)
  | none => (address, defaultPort)

/-- Settings for the broker at an address, or at the usual one. -/
def ConnectionSettings.ofAddress (address caCert : Option String) : ConnectionSettings :=
  let (host, port) := splitAddress (address.getD "localhost:1883")
  let settings := ConnectionSettings.forBroker host port
  match caCert with
  | some path => settings.withCaCert path
  | none => settings

end ThingHub
