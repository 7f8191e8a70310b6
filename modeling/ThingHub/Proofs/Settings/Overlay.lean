import ThingHub.Proofs.Settings.Given

/-! # Settings saved and loaded

Settings come back from the text they are written as. A text that gives only some of the fields is
read as the defaults with these fields put in, in whatever order they stand and whatever stands
between them. -/

namespace ThingHub

open Json (Scalar Vocabulary)

/-! ## Written texts -/

theorem Json.scalar_writeInt {n : Nat} (h : n < 2 ^ 64) :
    Scalar (.number (.int n)) (Bytes.ofChars (writeInt n)) := by
  rw [writeInt_natCast]
  exact .natural h

theorem Json.scalar_writeText (text : String) :
    Scalar (.string text) (Bytes.ofChars (writeText text)) :=
  .string (spellsText_writeText text)

namespace TlsSettings

def Given.written : Given → List Char
  | .caCertFile (some path) => Json.writeText path
  | .caCertFile none => Json.write .null

theorem spelled_written (given : Given) :
    vocabulary.Spelled given (Bytes.ofChars given.written) := by
  obtain ⟨_ | path⟩ := given
  · exact .null
  · exact Json.scalar_writeText path

end TlsSettings

namespace ConnectionSettings

def Given.written : Given → List Char
  | .host text => Json.writeText text
  | .tcpPort n => Json.writeInt n.toNat
  | .connectTimeoutSecs n => Json.writeInt n.toNat
  | .handshakeTimeoutSecs n => Json.writeInt n.toNat
  | .keepAliveSecs n => Json.writeInt n.toNat
  | .maxReconnectIntervalSecs n => Json.writeInt n.toNat
  | .closeGraceMillis n => Json.writeInt n.toNat
  | .requestChannelCapacity n => Json.writeInt n.toNat
  | .websocket b => Json.write (.bool b)
  | .tls givens => Json.writeRecord
      (givens.map fun given => (TlsSettings.vocabulary.name given, given.written))

theorem spelled_written (given : Given) :
    vocabulary.Spelled given (Bytes.ofChars given.written) := by
  cases given with
  | host text => exact Json.scalar_writeText text
  | tcpPort n => exact Json.scalar_writeInt (n.toNat_lt.trans (by decide))
  | websocket b => exact .bool b
  | tls givens =>
      exact Vocabulary.object_writeRecord fun given _ => TlsSettings.spelled_written given
  | connectTimeoutSecs n | handshakeTimeoutSecs n | keepAliveSecs n | maxReconnectIntervalSecs n
  | closeGraceMillis n | requestChannelCapacity n => exact Json.scalar_writeInt n.toNat_lt

theorem distinct_givens (s : ConnectionSettings) : vocabulary.Distinct s.givens := by
  constructor
  · show List.Nodup ["host", "port", "connect_timeout_secs", "handshake_timeout_secs",
      "keep_alive_secs", "max_reconnect_interval_secs", "close_grace_millis",
      "request_channel_capacity", "websocket", "tls"]
    decide
  · simp [givens, vocabulary, TlsSettings.vocabulary, Vocabulary.Distinct]

theorem overlay_givens (s : ConnectionSettings) : vocabulary.overlay s.givens default = s := by
  simp only [Vocabulary.overlay, givens, vocabulary, TlsSettings.vocabulary, List.foldl_cons,
    List.foldl_nil]

theorem text_written (givens : List Given) : vocabulary.Text givens (Bytes.ofChars
    (Json.writeRecord (givens.map fun given => (vocabulary.name given, given.written)))) :=
  (Vocabulary.object_writeRecord fun given _ => spelled_written given).text

/-- Written settings are a text that gives all fields. -/
theorem text_write (s : ConnectionSettings) : vocabulary.Text s.givens (Bytes.ofChars s.write) := by
  have hwrite : s.write =
      Json.writeRecord (s.givens.map fun given => (vocabulary.name given, given.written)) := by
    obtain ⟨_, _, _, _, _, _, _, _, _, ⟨_ | path⟩⟩ := s <;> rfl
  rw [hwrite]
  exact text_written s.givens

end ConnectionSettings

namespace HubConfig

def Given.written : Given → List Char
  | .mqttAddress address => Json.writeText address
  | .mqttCertPort n => Json.writeInt n.toNat
  | .mqttPasswordPort n => Json.writeInt n.toNat
  | .mqttTimeout n => Json.writeInt n.toNat
  | .certsFolder folder => Json.writeText folder

theorem spelled_written (given : Given) :
    vocabulary.Spelled given (Bytes.ofChars given.written) := by
  cases given with
  | mqttAddress text | certsFolder text => exact Json.scalar_writeText text
  | mqttCertPort n | mqttPasswordPort n =>
      exact Json.scalar_writeInt (n.toNat_lt.trans (by decide))
  | mqttTimeout n => exact Json.scalar_writeInt n.toNat_lt

theorem distinct_givens (c : HubConfig) : vocabulary.Distinct c.givens := by
  constructor
  · show List.Nodup ["mqttAddress", "mqttCertPort", "mqttUnpwPortWS", "mqttTimeout", "certsFolder"]
    decide
  · simp [vocabulary]

theorem overlay_givens (c : HubConfig) : vocabulary.overlay c.givens default = c := rfl

theorem text_written (givens : List Given) : vocabulary.Text givens (Bytes.ofChars
    (Json.writeRecord (givens.map fun given => (vocabulary.name given, given.written)))) :=
  (Vocabulary.object_writeRecord fun given _ => spelled_written given).text

theorem text_write (c : HubConfig) : vocabulary.Text c.givens (Bytes.ofChars c.write) :=
  text_written c.givens

end HubConfig

/-- Settings survive a save and a load. -/
theorem settings_survive_saving :
    (∀ s : ConnectionSettings, ConnectionSettings.decode (Bytes.ofChars s.write) = .ok s) ∧
    (∀ c : HubConfig, HubConfig.decode (Bytes.ofChars c.write) = .ok c) := by
  constructor
  · intro s
    have hread := ConnectionSettings.vocabulary_describes.readAll_eq s.text_write .default
    rw [ConnectionSettings.decode, ConnectionSettings.read, hread,
      Vocabulary.verdict_of_distinct s.distinct_givens, s.overlay_givens]
  · intro c
    have hread := HubConfig.vocabulary_describes.readAll_eq c.text_write .default
    rw [HubConfig.decode, HubConfig.read, hread,
      Vocabulary.verdict_of_distinct c.distinct_givens, c.overlay_givens]

/-! ## Partial texts -/

/-- What a record is read as, by what the text gives: the defaults with it put in, or a fault if a
field comes twice. Neither the order nor what else the text holds counts. -/
theorem Json.Vocabulary.Describes.overlays {ρ γ : Type} {v : Vocabulary ρ γ}
    {fields : List (Json.Field ρ)} (hv : v.Describes fields) (default : ρ) {givens : List γ}
    {text : Bytes} (h : v.Text givens text) :
    (v.Distinct givens →
      Json.readAll (Json.record fields default) text = .ok (v.overlay givens default)) ∧
    (¬ v.Distinct givens →
      Json.readAll (Json.record fields default) text = .error .mismatched) ∧
    (∀ others same, others.Perm givens → v.Text others same →
      Json.readAll (Json.record fields default) same =
        Json.readAll (Json.record fields default) text) := by
  refine ⟨fun hdistinct => ?_, fun hnot => ?_, fun others same hperm hsame => ?_⟩
  · rw [hv.readAll_eq h, verdict_of_distinct hdistinct]
  · rw [hv.readAll_eq h, verdict_of_not_distinct hnot]
  · rw [hv.readAll_eq h, hv.readAll_eq hsame]
    by_cases hdistinct : v.Distinct others
    · rw [verdict_of_distinct hdistinct, verdict_of_distinct (hdistinct.perm hperm),
        hv.overlay_perm hdistinct hperm]
    · have hnot : ¬ v.Distinct givens := fun hgivens => hdistinct (hgivens.perm hperm.symm)
      rw [verdict_of_not_distinct hdistinct, verdict_of_not_distinct hnot]

/-- Partial settings overlay the defaults, independent of order. -/
theorem partial_settings_overlay_defaults :
    (∀ givens text, ConnectionSettings.vocabulary.Text givens text →
      (ConnectionSettings.vocabulary.Distinct givens → ConnectionSettings.decode text =
        .ok (ConnectionSettings.vocabulary.overlay givens .default)) ∧
      (¬ ConnectionSettings.vocabulary.Distinct givens →
        ConnectionSettings.decode text = .error .mismatched) ∧
      (∀ others same, others.Perm givens → ConnectionSettings.vocabulary.Text others same →
        ConnectionSettings.decode same = ConnectionSettings.decode text)) ∧
    (∀ givens text, HubConfig.vocabulary.Text givens text →
      (HubConfig.vocabulary.Distinct givens → HubConfig.decode text =
        .ok (HubConfig.vocabulary.overlay givens .default)) ∧
      (¬ HubConfig.vocabulary.Distinct givens → HubConfig.decode text = .error .mismatched) ∧
      (∀ others same, others.Perm givens → HubConfig.vocabulary.Text others same →
        HubConfig.decode same = HubConfig.decode text)) :=
  ⟨fun _ _ h => ConnectionSettings.vocabulary_describes.overlays .default h,
    fun _ _ h => HubConfig.vocabulary_describes.overlays .default h⟩

/-- A partial text among unknown members of one name, with blanks and escapes; the same fields as
they are written, in the other order; and a field that comes twice. -/
theorem partial_settings_overlay_defaults_mixed :
    let mixed := Bytes.ofText (" \x7b\"\":[null,\x7b\"\":\"\\ud800\"\x7d],\"tls\":" ++
      "\x7b\"ca_cert_file\":\"ca.crt\"\x7d,\"\":-1.5E+9,\"\\u0070ort\" : 81\x7d\n")
    let plain := Bytes.ofText "\x7b\"port\":81,\"tls\":\x7b\"ca_cert_file\":\"ca.crt\"\x7d\x7d"
    let twice := Bytes.ofText "\x7b\"mqttTimeout\":1,\"mqttTimeout\":1\x7d"
    ConnectionSettings.decode mixed =
      .ok { ConnectionSettings.default with tcpPort := 81, tls := ⟨some "ca.crt"⟩ } ∧
    ConnectionSettings.decode plain = ConnectionSettings.decode mixed ∧
    HubConfig.decode twice = .error .mismatched := by
  intro mixed plain twice
  let v := ConnectionSettings.vocabulary
  let tls : ConnectionSettings.Given := .tls [.caCertFile (some "ca.crt")]
  let port : ConnectionSettings.Given := .tcpPort 81
  have hspace : Json.Blanks [0x20] := by decide
  have hunknown : ∀ given, v.name given ≠ "" := by
    intro given
    cases given <;> simp [v, ConnectionSettings.vocabulary]
  have hfraction : Json.Fraction [0x2e, 0x35] := .digits (Json.isDigits_singleton rfl)
  have hexponent : Json.Exponent _ :=
    @Json.Exponent.digits 0x45 [0x2b] [0x39] (.inr rfl) (by decide) (Json.isDigits_singleton rfl)
  have hnumber : Json.Forms .value _ :=
    .negative (.parts (Json.isWhole_toDigits 1) hfraction hexponent)
  -- an array with half a surrogate pair in it
  have hhalf : Json.Forms .value _ :=
    .string (@Json.Content.unit 0x64 0x38 0x30 0x30 [] (by decide) .nil)
  have hlead : Json.Lead .object _ := .object Json.blanks_nil .nil Json.blanks_nil
  have hobject : Json.Forms .value _ :=
    .filled (.item hlead Json.blanks_nil hhalf Json.blanks_nil (.close .object))
  have harray : Json.Forms .value _ := .filled
    (.item .array Json.blanks_nil .null Json.blanks_nil
      (.more (.item .array Json.blanks_nil hobject Json.blanks_nil (.close .array))))
  -- the name of the port, with its first letter escaped
  have hletters : Json.Spells [0x6f, 0x72, 0x74] [0x6f, 0x72, 0x74] :=
    .plain (by decide) (.plain (by decide) (.plain (by decide) .nil))
  have hcontent : Json.Spells _ (Bytes.ofText "port") :=
    @Json.Spells.unit 0x30 0x30 0x37 0x30 0x70 _ _ rfl rfl rfl hletters
  have hname : Json.Names (v.name port) _ :=
    ⟨[], _, [0x20], Json.blanks_nil, ⟨_, rfl, hcontent⟩, hspace, rfl⟩
  have hport : v.Members false [port] _ := .known Json.blanks_nil hname hspace
    (ConnectionSettings.spelled_written port) (.close Json.blanks_nil)
  have hmore : v.Members false [port] _ := .unknown Json.blanks_nil hunknown
    (Vocabulary.names_writeText "") Json.blanks_nil hnumber hport
  have hall : v.Members true [tls, port] _ := .unknown Json.blanks_nil hunknown
    (Vocabulary.names_writeText "") Json.blanks_nil harray
    ((hmore.write (ConnectionSettings.spelled_written tls) false))
  have hmixed : v.Text [tls, port] mixed :=
    ⟨[0x20], _, [0x0a], hspace, ⟨_, rfl, hall⟩, by decide, by decide⟩
  have hplain : v.Text [port, tls] plain := by
    have hwritten : Bytes.ofChars (Json.writeRecord ([port, tls].map fun given =>
        (v.name given, given.written))) = plain := by decide
    rw [← hwritten]
    exact ConnectionSettings.text_written [port, tls]
  have htwice : HubConfig.vocabulary.Text [.mqttTimeout 1, .mqttTimeout 1] twice :=
    HubConfig.text_written [.mqttTimeout 1, .mqttTimeout 1]
  obtain ⟨hsettings, hconfig⟩ := partial_settings_overlay_defaults
  obtain ⟨hread, -, hsame⟩ := hsettings _ _ hmixed
  refine ⟨hread (by decide), hsame _ _ (.swap tls port []) hplain, ?_⟩
  exact (hconfig _ _ htwice).2.1 (by decide)

end ThingHub
