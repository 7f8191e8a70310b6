import ThingHub.Credential.Basic
import ThingHub.Settings.Hub

/-! # Transports

A connection is open to readers only where a password goes over it and no CA is configured. Once a
CA is configured nothing but its certificates make a connection: no fault of its file leads back
into the open. The address of a connection always has the form that its transport asks for. -/

namespace ThingHub

namespace Transport

/-- Nothing is encrypted. -/
def IsOpen (transport : Transport) : Prop := transport = tcp ∨ transport = ws

def IsWebsocket (transport : Transport) : Prop := transport = ws ∨ transport = wss

/-- Where a transport connects to: over WebSocket to a URL, otherwise to the host. -/
def address (settings : ConnectionSettings) : Transport → String
  | tcp | tls => settings.host
  | ws => "ws://" ++ settings.address ++ "/"
  | wss => "wss://" ++ settings.address ++ "/"

/-- A URL is longer than the host in it. -/
theorem url_ne_host (scheme : String) (settings : ConnectionSettings) :
    scheme ++ settings.address ++ "/" ≠ settings.host := by
  intro h
  have hlength := congrArg String.length h
  simp only [ConnectionSettings.address, String.length_append] at hlength
  have hslash : "/".length = 1 := rfl
  omega

theorem ws_url_ne_wss_url (rest rest' : String) : "ws://" ++ rest ≠ "wss://" ++ rest' := by
  intro h
  have hlist := congrArg String.toList h
  simp at hlist

section

variable {settings : ConnectionSettings} {transport : Transport}

theorem address_eq_ws_url_iff :
    transport.address settings = "ws://" ++ settings.address ++ "/" ↔ transport = ws := by
  have hhost := (url_ne_host "ws://" settings).symm
  have hschemes := ws_url_ne_wss_url (settings.address ++ "/") (settings.address ++ "/")
  rw [← String.append_assoc, ← String.append_assoc] at hschemes
  cases transport <;> simp [address, hhost, hschemes.symm]

theorem address_eq_wss_url_iff :
    transport.address settings = "wss://" ++ settings.address ++ "/" ↔ transport = wss := by
  have hhost := (url_ne_host "wss://" settings).symm
  have hschemes := ws_url_ne_wss_url (settings.address ++ "/") (settings.address ++ "/")
  rw [← String.append_assoc, ← String.append_assoc] at hschemes
  cases transport <;> simp [address, hhost, hschemes]

theorem address_eq_host_iff :
    transport.address settings = settings.host ↔ transport = tcp ∨ transport = tls := by
  have hws := url_ne_host "ws://" settings
  have hwss := url_ne_host "wss://" settings
  cases transport <;> simp [address, hws, hwss]

end

end Transport

namespace Credential

/-- A name with a password, which may be empty. -/
def IsPassword : Credential → Prop
  | password _ _ => True
  | certificate _ _ _ => False

/-- What the client presents on a protected connection can be used. -/
def Presentable : Credential → Prop
  | password _ _ => True
  | certificate _ _ key => key.isValid = true

/-- The transports that a credential may take: the open ones for a password without a CA, the
protected ones for anything that can be presented to a broker whom a CA vouches for. -/
inductive Travels (folder : Folder) (settings : ConnectionSettings) : Credential → Transport → Prop
  | opened (username secret : String) : settings.tls.caCertFile = none →
      Travels folder settings (.password username secret)
        (if settings.websocket then .ws else .tcp)
  | secured {credential : Credential} {path : String} {certs : List Bytes} :
      settings.tls.caCertFile = some path → loadCertificates folder path = .ok certs →
      (∀ cert ∈ certs, Der.isCertificate cert = true) → credential.Presentable →
      Travels folder settings credential (if settings.websocket then .wss else .tls)

section

variable {folder : Folder} {settings : ConnectionSettings} {credential : Credential}
  {transport : Transport}

theorem Travels.transport_eq (h : Travels folder settings credential transport) :
    credential.transport folder settings = .ok transport := by
  cases h with
  | opened username secret hca =>
      unfold Credential.transport
      simp only [hca]
  | @secured _ path certs hca hload hcerts hpresent =>
      have hall : certs.all Der.isCertificate = true := List.all_eq_true.mpr hcerts
      unfold Credential.transport
      simp only [hca, hload, hall, if_true]
      cases credential with
      | password username secret => rfl
      | certificate identity chain key => exact if_pos hpresent

theorem travels_of_transport (h : credential.transport folder settings = .ok transport) :
    Travels folder settings credential transport := by
  unfold Credential.transport at h
  cases hca : settings.tls.caCertFile with
  | none =>
      simp only [hca] at h
      cases credential with
      | password username secret =>
          cases h
          exact .opened username secret hca
      | certificate identity chain key => cases h
  | some path =>
      simp only [hca] at h
      cases hload : loadCertificates folder path with
      | error reason =>
          simp only [hload] at h
          cases h
      | ok certs =>
          simp only [hload] at h
          by_cases hall : certs.all Der.isCertificate = true
          · rw [if_pos hall] at h
            have hsecured : credential.Presentable → Travels folder settings credential _ :=
              .secured hca hload (List.all_eq_true.mp hall)
            cases credential with
            | password username secret =>
                cases h
                exact hsecured trivial
            | certificate identity chain key =>
                dsimp only at h
                split at h
                · rename_i hkey
                  cases h
                  exact hsecured hkey
                · cases h
          · rw [if_neg hall] at h
            cases h

theorem transport_eq_ok_iff :
    credential.transport folder settings = .ok transport ↔
      Travels folder settings credential transport :=
  ⟨travels_of_transport, Travels.transport_eq⟩

theorem Travels.of_isOpen (h : Travels folder settings credential transport)
    (hopen : transport.IsOpen) : credential.IsPassword ∧ settings.tls.caCertFile = none := by
  cases h with
  | opened username secret hca => exact ⟨trivial, hca⟩
  | secured _ _ _ _ => rcases hopen with h | h <;> split at h <;> cases h

theorem Travels.isWebsocket_iff (h : Travels folder settings credential transport) :
    transport.IsWebsocket ↔ settings.websocket = true := by
  cases h <;> cases hw : settings.websocket <;> simp [Transport.IsWebsocket]

/-- Two modules agree: the one that writes the address and the one that picks the transport. -/
theorem Travels.brokerAddress_eq (h : Travels folder settings credential transport) :
    settings.brokerAddress = transport.address settings := by
  unfold ConnectionSettings.brokerAddress
  cases h with
  | opened _ _ hca => cases settings.websocket <;> simp [Transport.address, hca]
  | secured hca _ _ _ => cases settings.websocket <;> simp [Transport.address, hca]

/-- With a CA there is one transport, or none. -/
theorem transport_of_caCertFile (credential : Credential) (folder : Folder) {path : String}
    (hca : settings.tls.caCertFile = some path) :
    credential.transport folder settings = .ok (if settings.websocket then .wss else .tls) ∨
      ∃ reason, credential.transport folder settings = .error reason := by
  cases h : credential.transport folder settings with
  | error reason => exact .inr ⟨reason, rfl⟩
  | ok transport =>
      left
      cases travels_of_transport h with
      | opened _ _ hnone => rw [hca] at hnone; cases hnone
      | secured _ _ _ _ => rfl

end

/-- Nothing travels in the open unasked, and the address goes with the transport. Whatever the
files hold, the settings of a hub, which name a CA, lead to a protected connection or to none. -/
theorem transport_never_silently_open (folder : Folder) (credential : Credential) :
    (∀ settings transport, credential.transport folder settings = .ok transport ↔
      Travels folder settings credential transport) ∧
    (∀ settings transport, credential.transport folder settings = .ok transport →
      (transport.IsOpen → credential.IsPassword ∧ settings.tls.caCertFile = none) ∧
      (transport.IsWebsocket ↔ settings.websocket = true) ∧
      (settings.brokerAddress = "ws://" ++ settings.address ++ "/" ↔ transport = .ws) ∧
      (settings.brokerAddress = "wss://" ++ settings.address ++ "/" ↔ transport = .wss) ∧
      (settings.brokerAddress = settings.host ↔ transport = .tcp ∨ transport = .tls)) ∧
    (∀ config : HubConfig,
      (credential.transport folder config.passwordSettings = .ok .wss ∨
        ∃ reason, credential.transport folder config.passwordSettings = .error reason) ∧
      (credential.transport folder config.certSettings = .ok .tls ∨
        ∃ reason, credential.transport folder config.certSettings = .error reason)) := by
  refine ⟨fun _ _ => transport_eq_ok_iff, ?_, ?_⟩
  · intro settings transport htransport
    have htravels := travels_of_transport htransport
    rw [htravels.brokerAddress_eq]
    exact ⟨htravels.of_isOpen, htravels.isWebsocket_iff, Transport.address_eq_ws_url_iff,
      Transport.address_eq_wss_url_iff, Transport.address_eq_host_iff⟩
  · intro config
    have hca : config.passwordSettings.tls.caCertFile = some config.caCertPath := rfl
    have hca' : config.certSettings.tls.caCertFile = some config.caCertPath := rfl
    exact ⟨transport_of_caCertFile credential folder hca,
      transport_of_caCertFile credential folder hca'⟩

/-- A password over WebSocket without a CA and with one, and a hub whose file of the CA is not
there. -/
theorem transport_never_silently_open_websocket :
    let folder := Folder.ofList [("ca.crt", Bytes.ofText ("-----BEGIN CERTIFICATE-----\n" ++
      "MBQwDQIBATAAMAAwADAAMAAwAAMBAA==\n-----END CERTIFICATE-----\n"))] []
    let user := password "u" "p"
    let plain := (ConnectionSettings.forBroker "hub" 1883).overWebsocket
    let guarded := plain.withCaCert "ca.crt"
    user.transport folder plain = .ok .ws ∧ plain.brokerAddress = "ws://hub:1883/" ∧
    user.transport folder guarded = .ok .wss ∧ guarded.brokerAddress = "wss://hub:1883/" ∧
    (∃ reason, user.transport folder HubConfig.default.passwordSettings = .error reason) := by
  intro folder user plain guarded
  have hplain : user.transport folder plain = .ok .ws := rfl
  have hguarded : user.transport folder guarded = .ok .wss := by rfl
  obtain ⟨-, hok, hhub⟩ := transport_never_silently_open folder user
  refine ⟨hplain, ?_, hguarded, ?_, ?_⟩
  · exact ((hok plain .ws hplain).2.2.1.mpr rfl).trans (by decide)
  · exact ((hok guarded .wss hguarded).2.2.2.1.mpr rfl).trans (by decide)
  · have hmissing : user.transport folder HubConfig.default.passwordSettings =
        .error (.io "./certs/ca.crt" .notFound) := by rfl
    rcases (hhub .default).1 with hwss | hfails
    · rw [hmissing] at hwss
      cases hwss
    · exact hfails

end Credential

end ThingHub
