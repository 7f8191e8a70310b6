import ThingHub.Connection.Error
import ThingHub.Registry.Basic

/-! Why a client's call fails. -/

namespace ThingHub

inductive ClientError
  | credential (reason : CredentialError)
  | connect (reason : ConnectError)
  | publish (reason : PublishError)
  | subscription (reason : SubscriptionError)
  | serialization (text : String)
  /-- Publishing needs one concrete thing. -/
  | invalidThingId (id : String)
  deriving DecidableEq, Repr

def ClientError.message : ClientError → String
  | .credential reason => "Credential error: " ++ reason.message
  | .connect reason => "Connect failed: " ++ reason.message
  | .publish reason => "Publish failed: " ++ reason.message
  | .subscription reason => "Subscription error: " ++ reason.message
  | .serialization text => "Serialization error: " ++ text
  | .invalidThingId id => "Invalid thing ID for publishing: '" ++ id ++ "'"

end ThingHub
