import ThingHub.Credential.Error
import ThingHub.Time.Duration

/-! Why a connection does not come about, and why a message does not leave. -/

namespace ThingHub

/-- The broker's answer to a connect. -/
inductive ReturnCode
  | success
  | refusedProtocolVersion
  | badClientId
  | serviceUnavailable
  | badUserNamePassword
  | notAuthorized
  deriving DecidableEq, Repr

def ReturnCode.all : List ReturnCode :=
  [.success, .refusedProtocolVersion, .badClientId, .serviceUnavailable, .badUserNamePassword,
    .notAuthorized]

def ReturnCode.name : ReturnCode → String
  | .success => "Success"
  | .refusedProtocolVersion => "RefusedProtocolVersion"
  | .badClientId => "BadClientId"
  | .serviceUnavailable => "ServiceUnavailable"
  | .badUserNamePassword => "BadUserNamePassword"
  | .notAuthorized => "NotAuthorized"

def ReturnCode.ofName? (name : String) : Option ReturnCode :=
  all.find? (·.name == name)

inductive ConnectError
  | credential (reason : CredentialError)
  /-- The network fails before the broker answers. -/
  | network
  | brokerRejected (code : ReturnCode)
  | handshakeTimeout (limit : Duration)
  /-- The connection was closed while it came about. -/
  | cancelled
  deriving DecidableEq, Repr

def ConnectError.message : ConnectError → String
  | .credential reason => reason.message
  | .network => "Network error: connection failed"
  | .brokerRejected code => "Broker rejected connection: " ++ code.name
  | .handshakeTimeout limit => "No ConnAck within " ++ limit.text
  | .cancelled => "Connect cancelled"

inductive PublishError
  | notConnected
  /-- The queue of requests does not take the message. -/
  | client
  deriving DecidableEq, Repr

def PublishError.message : PublishError → String
  | .notConnected => "not connected"
  | .client => "Client request failed: Failed to send mqtt requests to eventloop"

end ThingHub
