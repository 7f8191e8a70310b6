import ThingHub.Settings.Connection
import ThingHub.Settings.Path

/-! The part of a hub's configuration that its clients use. -/

namespace ThingHub

structure HubConfig where
  mqttAddress : String
  /-- Where clients with a certificate connect. -/
  mqttCertPort : UInt16
  /-- Where clients with a password connect. -/
  mqttPasswordPort : UInt16
  /-- How long connecting goes on, in seconds. Zero goes on forever. -/
  mqttTimeout : UInt64
  certsFolder : String
  deriving DecidableEq, Repr

namespace HubConfig

def default : HubConfig where
  mqttAddress := "localhost"
  mqttCertPort := 8884
  mqttPasswordPort := 8883
  mqttTimeout := 3
  certsFolder := "./certs"

def fields : List (Json.Field HubConfig) := [
  .text "mqttAddress" fun address c => { c with mqttAddress := address },
  .word16 "mqttCertPort" fun n c => { c with mqttCertPort := n },
  .word16 "mqttUnpwPortWS" fun n c => { c with mqttPasswordPort := n },
  .word64 "mqttTimeout" fun n c => { c with mqttTimeout := n },
  .text "certsFolder" fun folder c => { c with certsFolder := folder }]

def read : Json.Reader HubConfig := Json.record fields default

def decode (bytes : Bytes) : Except Json.Fault HubConfig := Json.readAll read bytes

def write (c : HubConfig) : List Char :=
  Json.writeRecord [
    ("mqttAddress", Json.writeText c.mqttAddress),
    ("mqttCertPort", Json.writeInt c.mqttCertPort.toNat),
    ("mqttUnpwPortWS", Json.writeInt c.mqttPasswordPort.toNat),
    ("mqttTimeout", Json.writeInt c.mqttTimeout.toNat),
    ("certsFolder", Json.writeText c.certsFolder)]

/-- Makes a relative certificate folder absolute. -/
def resolvePaths (home : String) (c : HubConfig) : HubConfig :=
  if Path.isAbsolute c.certsFolder then c
  else { c with certsFolder := Path.join home c.certsFolder }

def caCertPath (c : HubConfig) : String := Path.join c.certsFolder "ca.crt"

def clientCertPath (c : HubConfig) : String := Path.join c.certsFolder "client.crt"

def clientKeyPath (c : HubConfig) : String := Path.join c.certsFolder "client.key"

/-- Settings for clients with a certificate. -/
def certSettings (c : HubConfig) : ConnectionSettings :=
  { ConnectionSettings.forBroker c.mqttAddress c.mqttCertPort with
    connectTimeoutSecs := c.mqttTimeout }.withCaCert c.caCertPath

/-- Settings for clients with a password, which the hub serves over WebSocket. -/
def passwordSettings (c : HubConfig) : ConnectionSettings :=
  ({ ConnectionSettings.forBroker c.mqttAddress c.mqttPasswordPort with
    connectTimeoutSecs := c.mqttTimeout }.withCaCert c.caCertPath).overWebsocket

end HubConfig

end ThingHub
