import ThingHub.Json.Record
import ThingHub.Time.Duration

/-! What a client needs to know to reach the broker. -/

namespace ThingHub

/-- How the connection is protected. -/
structure TlsSettings where
  /-- The certificate file that the broker is verified with. -/
  caCertFile : Option String
  deriving DecidableEq, Repr

structure ConnectionSettings where
  host : String
  tcpPort : UInt16
  /-- How long connecting goes on, in seconds. Zero goes on forever. -/
  connectTimeoutSecs : UInt64
  /-- How long one attempt waits for the broker's answer, in seconds. -/
  handshakeTimeoutSecs : UInt64
  keepAliveSecs : UInt64
  /-- The longest wait between two reconnects, in seconds. -/
  maxReconnectIntervalSecs : UInt64
  /-- The pause before the goodbye, in which queued messages leave. -/
  closeGraceMillis : UInt64
  /-- How many requests may wait for the connection. -/
  requestChannelCapacity : UInt64
  websocket : Bool
  tls : TlsSettings
  deriving DecidableEq, Repr

namespace TlsSettings

def default : TlsSettings := ⟨none⟩

def fields : List (Json.Field TlsSettings) :=
  [.optionalText "ca_cert_file" fun path s => { s with caCertFile := path }]

def read : Json.Reader TlsSettings := Json.record fields default

def decode (bytes : Bytes) : Except Json.Fault TlsSettings := Json.readAll read bytes

def write (s : TlsSettings) : List Char :=
  Json.writeRecord [("ca_cert_file", match s.caCertFile with
    | some path => Json.writeText path
    | none => Json.write .null)]

end TlsSettings

namespace ConnectionSettings

def default : ConnectionSettings where
  host := "localhost"
  tcpPort := 1883
  connectTimeoutSecs := 3
  handshakeTimeoutSecs := 10
  keepAliveSecs := 10
  maxReconnectIntervalSecs := 60
  closeGraceMillis := 100
  requestChannelCapacity := 1024
  websocket := false
  tls := .default

/-- Settings for a broker, with every other value at its default. -/
def forBroker (host : String) (tcpPort : UInt16) : ConnectionSettings :=
  { default with host := host, tcpPort := tcpPort }

def withCaCert (path : String) (s : ConnectionSettings) : ConnectionSettings :=
  { s with tls := { s.tls with caCertFile := some path } }

def overWebsocket (s : ConnectionSettings) : ConnectionSettings :=
  { s with websocket := true }

/-- Sets how long connecting goes on. Only whole seconds count. -/
def withConnectTimeout (timeout : Duration) (s : ConnectionSettings) : ConnectionSettings :=
  { s with connectTimeoutSecs := UInt64.ofNat (Nat.min timeout.secs (Nat.pow 2 64 - 1)) }

def connectTimeout (s : ConnectionSettings) : Duration := .ofSecs s.connectTimeoutSecs.toNat

def handshakeTimeout (s : ConnectionSettings) : Duration := .ofSecs s.handshakeTimeoutSecs.toNat

def keepAlive (s : ConnectionSettings) : Duration := .ofSecs s.keepAliveSecs.toNat

def maxReconnectInterval (s : ConnectionSettings) : Duration :=
  .ofSecs s.maxReconnectIntervalSecs.toNat

def closeGrace (s : ConnectionSettings) : Duration := .ofMillis s.closeGraceMillis.toNat

/-- Host and port, as people write them. -/
def address (s : ConnectionSettings) : String :=
  s.host ++ ":" ++ s.tcpPort.toNat.repr

/-- Where the connection goes to: the host, or over WebSocket the full URL. -/
def brokerAddress (s : ConnectionSettings) : String :=
  if s.websocket then
    (if s.tls.caCertFile.isSome then "wss" else "ws") ++ "://" ++ s.address ++ "/"
  else s.host

def fields : List (Json.Field ConnectionSettings) := [
  .text "host" fun host s => { s with host := host },
  .word16 "port" fun n s => { s with tcpPort := n },
  .word64 "connect_timeout_secs" fun n s => { s with connectTimeoutSecs := n },
  .word64 "handshake_timeout_secs" fun n s => { s with handshakeTimeoutSecs := n },
  .word64 "keep_alive_secs" fun n s => { s with keepAliveSecs := n },
  .word64 "max_reconnect_interval_secs" fun n s => { s with maxReconnectIntervalSecs := n },
  .word64 "close_grace_millis" fun n s => { s with closeGraceMillis := n },
  .word64 "request_channel_capacity" fun n s => { s with requestChannelCapacity := n },
  .boolean "websocket" fun b s => { s with websocket := b },
  .of "tls" TlsSettings.read fun tls s => { s with tls := tls }]

def read : Json.Reader ConnectionSettings := Json.record fields default

def decode (bytes : Bytes) : Except Json.Fault ConnectionSettings := Json.readAll read bytes

def write (s : ConnectionSettings) : List Char :=
  Json.writeRecord [
    ("host", Json.writeText s.host),
    ("port", Json.writeInt s.tcpPort.toNat),
    ("connect_timeout_secs", Json.writeInt s.connectTimeoutSecs.toNat),
    ("handshake_timeout_secs", Json.writeInt s.handshakeTimeoutSecs.toNat),
    ("keep_alive_secs", Json.writeInt s.keepAliveSecs.toNat),
    ("max_reconnect_interval_secs", Json.writeInt s.maxReconnectIntervalSecs.toNat),
    ("close_grace_millis", Json.writeInt s.closeGraceMillis.toNat),
    ("request_channel_capacity", Json.writeInt s.requestChannelCapacity.toNat),
    ("websocket", Json.write (.bool s.websocket)),
    ("tls", s.tls.write)]

end ConnectionSettings

end ThingHub
