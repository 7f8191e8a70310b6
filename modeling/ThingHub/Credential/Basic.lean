import ThingHub.Credential.Error
import ThingHub.Der.Certificate
import ThingHub.Key.PrivateKey
import ThingHub.Pem.Sections
import ThingHub.Settings.Connection
import ThingHub.Text.Quoted

/-! How a client proves who it is: by name and password, or by a certificate from files.
The transport follows from the credential, the configured CA and the wish for WebSocket. -/

namespace ThingHub

/-- Loaded, ready to use. -/
inductive Credential
  | password (username password : String)
  | certificate (identity : String) (chain : List Bytes) (key : PrivateKey)
  deriving DecidableEq, Repr

/-- Where a credential comes from. -/
inductive AuthMethod
  | password (username password : String)
  | certificate (identity certFile keyFile : String)
  deriving DecidableEq, Repr

/-- How the connection travels. -/
inductive Transport
  | tcp
  | tls
  | ws
  | wss
  deriving DecidableEq, Repr

/-- The certificates of a file; there must be one. -/
def loadCertificates (folder : Folder) (path : String) : Except CredentialError (List Bytes) :=
  match folder.read path with
  | .error cause => .error (.io path cause)
  | .ok file =>
    match Pem.certificates file with
    | .error _ => .error (.io path .invalidData)
    | .ok [] => .error (.noCertificate path)
    | .ok (cert :: more) => .ok (cert :: more)

/-- The format that a label of a private key names. -/
def KeyFormat.ofLabel? : Pem.Label → Option KeyFormat
  | .rsaKey => some .pkcs1
  | .ecKey => some .sec1
  | .privateKey => some .pkcs8
  | .certificate => none
  | .other => none

/-- The first private key of a file. -/
def loadPrivateKey (folder : Folder) (path : String) : Except CredentialError PrivateKey :=
  match folder.read path with
  | .error cause => .error (.io path cause)
  | .ok file =>
    match Pem.first? (fun found => (KeyFormat.ofLabel? found.label).isSome) (Pem.sections file) with
    | .error _ => .error (.io path .invalidData)
    | .ok none => .error (.noPrivateKey path)
    | .ok (some found) =>
      match KeyFormat.ofLabel? found.label with
      | none => .error (.noPrivateKey path)
      | some format => .ok ⟨format, found.der⟩

namespace Credential

/-- A name without a password. -/
def anonymous (identity : String) : Credential := .password identity ""

/-- Loads a certificate and its key. Where either path is empty there is no pair to
load, and the identity stays anonymous. -/
def load (folder : Folder) (identity certFile keyFile : String) :
    Except CredentialError Credential :=
  if certFile = "" ∨ keyFile = "" then .ok (anonymous identity)
  else
    match loadCertificates folder certFile with
    | .error reason => .error reason
    | .ok chain =>
      match loadPrivateKey folder keyFile with
      | .error reason => .error reason
      | .ok key => .ok (.certificate identity chain key)

/-- The name that the client presents. -/
def identity : Credential → String
  | password username _ => username
  | certificate identity _ _ => identity

/-- Name and password of the login, if there is a name. -/
def login : Credential → Option (String × String)
  | password username secret => if username = "" then none else some (username, secret)
  | certificate identity _ _ => if identity = "" then none else some (identity, "")

/-- A description that gives no secrets away. -/
def describe : Credential → String
  | password username _ => "Password \x7b username: " ++ Text.quote username ++ ", .. \x7d"
  | certificate identity chain _ =>
    "ClientCertificate \x7b identity: " ++ Text.quote identity ++ ", chain_len: " ++
      chain.length.repr ++ ", .. \x7d"

/-- The configured CA is read before anything else. A password travels in the open only
where no CA is configured; a certificate never does. -/
def transport (folder : Folder) (settings : ConnectionSettings) (credential : Credential) :
    Except CredentialError Transport :=
  let roots : Except CredentialError (Option (List Bytes)) :=
    match settings.tls.caCertFile with
    | none => .ok none
    | some path =>
      match loadCertificates folder path with
      | .error reason => .error reason
      | .ok certs => if certs.all Der.isCertificate then .ok (some certs) else .error .tls
  let secured : Transport := if settings.websocket then .wss else .tls
  match roots with
  | .error reason => .error reason
  | .ok none =>
    match credential with
    | password _ _ => .ok (if settings.websocket then .ws else .tcp)
    | certificate _ _ _ => .error .missingCaCertificate
  | .ok (some _) =>
    match credential with
    | password _ _ => .ok secured
    | certificate _ _ key => if key.isValid then .ok secured else .error .tls

end Credential

namespace AuthMethod

def identity : AuthMethod → String
  | password username _ => username
  | certificate identity _ _ => identity

def resolve (folder : Folder) : AuthMethod → Except CredentialError Credential
  | password username secret => .ok (.password username secret)
  | certificate identity certFile keyFile => Credential.load folder identity certFile keyFile

/-- A description that gives no secrets away. -/
def describe : AuthMethod → String
  | password username _ => "Password \x7b username: " ++ Text.quote username ++ ", .. \x7d"
  | certificate identity certFile keyFile =>
    "ClientCertificate \x7b identity: " ++ Text.quote identity ++ ", cert_file: " ++
      Text.quote certFile ++ ", key_file: " ++ Text.quote keyFile ++ " \x7d"

end AuthMethod

end ThingHub
