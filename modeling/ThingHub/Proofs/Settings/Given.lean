import ThingHub.Proofs.Json.Records
import ThingHub.Settings.Hub

/-! # The fields of settings

Which fields a text may give for connection settings and for a hub's configuration, under which
name, how their values are spelled and written, and what they put into the record. -/

namespace ThingHub

namespace Json.Field

variable {ρ α : Type}

/-- A field with a scalar value is read from each spelling of it. -/
theorem gives_of_scalar {value : Json} {octets : Bytes} (h : Scalar value octets)
    {take : Json → Option α} {a : α} (htake : take value = some a) (name : String)
    (put : α → ρ → ρ) {gap : Bytes} (hgap : Blanks gap) :
    Gives (of name (readKind take) put).read (gap ++ octets) (.ok (put a)) := by
  intro rest hrest
  rw [of]
  dsimp only
  rw [h.gives_readKind htake hgap rest hrest]
  rfl

theorem natural?_toNat {bits n : Nat} (h : n < Nat.pow 2 bits) :
    natural? bits (.number (.int n)) = some n := by
  have hrange : (0 : Int) ≤ n ∧ (n : Int) < Nat.pow 2 bits :=
    ⟨Int.natCast_nonneg n, Int.ofNat_lt.mpr h⟩
  rw [natural?, if_pos hrange, Int.toNat_natCast]

section

variable {name : String} {gap octets : Bytes} (hgap : Blanks gap)

include hgap

theorem gives_word16 {n : UInt16} (h : Scalar (.number (.int n.toNat)) octets)
    (put : UInt16 → ρ → ρ) : Gives (word16 name put).read (gap ++ octets) (.ok (put n)) := by
  refine gives_of_scalar h ?_ name put hgap
  rw [natural?_toNat n.toNat_lt, Option.map_some, UInt16.ofNat_toNat]

theorem gives_word64 {n : UInt64} (h : Scalar (.number (.int n.toNat)) octets)
    (put : UInt64 → ρ → ρ) : Gives (word64 name put).read (gap ++ octets) (.ok (put n)) := by
  refine gives_of_scalar h ?_ name put hgap
  rw [natural?_toNat n.toNat_lt, Option.map_some, UInt64.ofNat_toNat]

theorem gives_boolean {b : Bool} (h : Scalar (.bool b) octets) (put : Bool → ρ → ρ) :
    Gives (boolean name put).read (gap ++ octets) (.ok (put b)) := by
  refine gives_of_scalar h ?_ name put hgap
  rfl

theorem gives_text {text : String} (h : Scalar (.string text) octets) (put : String → ρ → ρ) :
    Gives (Field.text name put).read (gap ++ octets) (.ok (put text)) := by
  refine gives_of_scalar h ?_ name put hgap
  rfl

end

end Json.Field

open Json (Scalar Vocabulary Blanks)

namespace TlsSettings

/-- The one field, with a path or with null. -/
inductive Given
  | caCertFile (path : Option String)
  deriving DecidableEq, Repr

/-- A path as a value, null for none. -/
def pathValue : Option String → Json
  | none => .null
  | some path => .string path

def vocabulary : Vocabulary TlsSettings Given where
  name
    | .caCertFile _ => "ca_cert_file"
  put
    | .caCertFile path => fun s => { s with caCertFile := path }
  Spelled
    | .caCertFile path => Scalar (pathValue path)
  sound _ := true

theorem vocabulary_describes : vocabulary.Describes fields where
  known given := by
    obtain ⟨path⟩ := given
    refine ⟨_, rfl, fun gap octets hgap hspelled => ?_⟩
    refine Json.Field.gives_of_scalar hspelled ?_ _ _ hgap
    cases path <;> rfl
  named field hm := by
    obtain rfl := List.mem_singleton.mp hm
    exact ⟨.caCertFile none, rfl⟩
  comm given other hne := by
    obtain ⟨path⟩ := given
    obtain ⟨other⟩ := other
    exact absurd rfl hne

end TlsSettings

namespace ConnectionSettings

/-- The fields. What protects the connection is given by an object with fields of its own. -/
inductive Given
  | host (host : String)
  | tcpPort (n : UInt16)
  | connectTimeoutSecs (n : UInt64)
  | handshakeTimeoutSecs (n : UInt64)
  | keepAliveSecs (n : UInt64)
  | maxReconnectIntervalSecs (n : UInt64)
  | closeGraceMillis (n : UInt64)
  | requestChannelCapacity (n : UInt64)
  | websocket (b : Bool)
  | tls (givens : List TlsSettings.Given)
  deriving DecidableEq, Repr

def vocabulary : Vocabulary ConnectionSettings Given where
  name
    | .host _ => "host"
    | .tcpPort _ => "port"
    | .connectTimeoutSecs _ => "connect_timeout_secs"
    | .handshakeTimeoutSecs _ => "handshake_timeout_secs"
    | .keepAliveSecs _ => "keep_alive_secs"
    | .maxReconnectIntervalSecs _ => "max_reconnect_interval_secs"
    | .closeGraceMillis _ => "close_grace_millis"
    | .requestChannelCapacity _ => "request_channel_capacity"
    | .websocket _ => "websocket"
    | .tls _ => "tls"
  put
    | .host host => fun s => { s with host := host }
    | .tcpPort n => fun s => { s with tcpPort := n }
    | .connectTimeoutSecs n => fun s => { s with connectTimeoutSecs := n }
    | .handshakeTimeoutSecs n => fun s => { s with handshakeTimeoutSecs := n }
    | .keepAliveSecs n => fun s => { s with keepAliveSecs := n }
    | .maxReconnectIntervalSecs n => fun s => { s with maxReconnectIntervalSecs := n }
    | .closeGraceMillis n => fun s => { s with closeGraceMillis := n }
    | .requestChannelCapacity n => fun s => { s with requestChannelCapacity := n }
    | .websocket b => fun s => { s with websocket := b }
    | .tls givens => fun s =>
      { s with tls := TlsSettings.vocabulary.overlay givens TlsSettings.default }
  Spelled
    | .host host => Scalar (.string host)
    | .tcpPort n => Scalar (.number (.int n.toNat))
    | .connectTimeoutSecs n => Scalar (.number (.int n.toNat))
    | .handshakeTimeoutSecs n => Scalar (.number (.int n.toNat))
    | .keepAliveSecs n => Scalar (.number (.int n.toNat))
    | .maxReconnectIntervalSecs n => Scalar (.number (.int n.toNat))
    | .closeGraceMillis n => Scalar (.number (.int n.toNat))
    | .requestChannelCapacity n => Scalar (.number (.int n.toNat))
    | .websocket b => Scalar (.bool b)
    | .tls givens => TlsSettings.vocabulary.Object givens
  sound
    | .tls givens => decide (TlsSettings.vocabulary.Distinct givens)
    | _ => true

theorem vocabulary_describes : vocabulary.Describes fields where
  known given := by
    cases given with
    | host host =>
        exact ⟨_, rfl, fun gap octets hgap hspelled => Json.Field.gives_text hgap hspelled _⟩
    | tcpPort n =>
        exact ⟨_, rfl, fun gap octets hgap hspelled => Json.Field.gives_word16 hgap hspelled _⟩
    | websocket b =>
        exact ⟨_, rfl, fun gap octets hgap hspelled => Json.Field.gives_boolean hgap hspelled _⟩
    | tls givens =>
        refine ⟨_, rfl, fun gap octets hgap hspelled rest hrest => ?_⟩
        have hread := TlsSettings.vocabulary_describes.gives_record hspelled hgap
          TlsSettings.default rest hrest
        show (TlsSettings.read (gap ++ octets ++ rest)).map _ = _
        rw [TlsSettings.read, hread]
        by_cases hdistinct : TlsSettings.vocabulary.Distinct givens
        · simp [Vocabulary.verdict_of_distinct hdistinct, vocabulary, hdistinct, Except.map]
        · simp [Vocabulary.verdict_of_not_distinct hdistinct, vocabulary, hdistinct, Except.map]
    | connectTimeoutSecs n | handshakeTimeoutSecs n | keepAliveSecs n | maxReconnectIntervalSecs n
    | closeGraceMillis n | requestChannelCapacity n =>
        exact ⟨_, rfl, fun gap octets hgap hspelled => Json.Field.gives_word64 hgap hspelled _⟩
  named := by
    simp only [fields, List.forall_mem_cons]
    exact ⟨⟨.host "", rfl⟩, ⟨.tcpPort 0, rfl⟩, ⟨.connectTimeoutSecs 0, rfl⟩,
      ⟨.handshakeTimeoutSecs 0, rfl⟩, ⟨.keepAliveSecs 0, rfl⟩, ⟨.maxReconnectIntervalSecs 0, rfl⟩,
      ⟨.closeGraceMillis 0, rfl⟩, ⟨.requestChannelCapacity 0, rfl⟩, ⟨.websocket false, rfl⟩,
      ⟨.tls [], rfl⟩, by simp⟩
  comm given other hne value := by
    cases given <;> cases other <;> first | rfl | exact absurd rfl hne

/-- All fields of settings, in the order in which they are written. -/
def givens (s : ConnectionSettings) : List Given :=
  [.host s.host, .tcpPort s.tcpPort, .connectTimeoutSecs s.connectTimeoutSecs,
    .handshakeTimeoutSecs s.handshakeTimeoutSecs, .keepAliveSecs s.keepAliveSecs,
    .maxReconnectIntervalSecs s.maxReconnectIntervalSecs, .closeGraceMillis s.closeGraceMillis,
    .requestChannelCapacity s.requestChannelCapacity, .websocket s.websocket,
    .tls [.caCertFile s.tls.caCertFile]]

end ConnectionSettings

namespace HubConfig

inductive Given
  | mqttAddress (address : String)
  | mqttCertPort (n : UInt16)
  | mqttPasswordPort (n : UInt16)
  | mqttTimeout (n : UInt64)
  | certsFolder (folder : String)
  deriving DecidableEq, Repr

def vocabulary : Vocabulary HubConfig Given where
  name
    | .mqttAddress _ => "mqttAddress"
    | .mqttCertPort _ => "mqttCertPort"
    | .mqttPasswordPort _ => "mqttUnpwPortWS"
    | .mqttTimeout _ => "mqttTimeout"
    | .certsFolder _ => "certsFolder"
  put
    | .mqttAddress address => fun c => { c with mqttAddress := address }
    | .mqttCertPort n => fun c => { c with mqttCertPort := n }
    | .mqttPasswordPort n => fun c => { c with mqttPasswordPort := n }
    | .mqttTimeout n => fun c => { c with mqttTimeout := n }
    | .certsFolder folder => fun c => { c with certsFolder := folder }
  Spelled
    | .mqttAddress address => Scalar (.string address)
    | .mqttCertPort n => Scalar (.number (.int n.toNat))
    | .mqttPasswordPort n => Scalar (.number (.int n.toNat))
    | .mqttTimeout n => Scalar (.number (.int n.toNat))
    | .certsFolder folder => Scalar (.string folder)
  sound _ := true

theorem vocabulary_describes : vocabulary.Describes fields where
  known given := by
    cases given with
    | mqttAddress text | certsFolder text =>
        exact ⟨_, rfl, fun gap octets hgap hspelled => Json.Field.gives_text hgap hspelled _⟩
    | mqttCertPort n | mqttPasswordPort n =>
        exact ⟨_, rfl, fun gap octets hgap hspelled => Json.Field.gives_word16 hgap hspelled _⟩
    | mqttTimeout n =>
        exact ⟨_, rfl, fun gap octets hgap hspelled => Json.Field.gives_word64 hgap hspelled _⟩
  named := by
    simp only [fields, List.forall_mem_cons]
    exact ⟨⟨.mqttAddress "", rfl⟩, ⟨.mqttCertPort 0, rfl⟩, ⟨.mqttPasswordPort 0, rfl⟩,
      ⟨.mqttTimeout 0, rfl⟩, ⟨.certsFolder "", rfl⟩, by simp⟩
  comm given other hne value := by
    cases given <;> cases other <;> first | rfl | exact absurd rfl hne

/-- All fields of a configuration, in the order in which they are written. -/
def givens (c : HubConfig) : List Given :=
  [.mqttAddress c.mqttAddress, .mqttCertPort c.mqttCertPort,
    .mqttPasswordPort c.mqttPasswordPort, .mqttTimeout c.mqttTimeout, .certsFolder c.certsFolder]

end HubConfig

end ThingHub
