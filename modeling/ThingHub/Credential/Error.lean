import ThingHub.Files.Folder

/-! Why a credential, or the protection of a connection, cannot be set up. -/

namespace ThingHub

inductive CredentialError
  | io (path : String) (cause : IoError)
  | noCertificate (path : String)
  | noPrivateKey (path : String)
  /-- The certificates or the key do not hold what they should. -/
  | tls
  /-- Client certificates are only sent over protected connections, which need a CA. -/
  | missingCaCertificate
  deriving DecidableEq, Repr

def CredentialError.message : CredentialError → String
  | .io path cause => "Failed to read " ++ path ++ ": " ++ cause.message
  | .noCertificate path => "No certificate found in " ++ path
  | .noPrivateKey path => "No private key found in " ++ path
  | .tls => "TLS configuration rejected: invalid material"
  | .missingCaCertificate => "Client certificate authentication requires a CA certificate"

end ThingHub
