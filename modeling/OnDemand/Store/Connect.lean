import OnDemand.Config.Basic
import OnDemand.FileTree

/-!
# Choosing a backend

The `s3` backend needs credentials and refuses plain HTTP where TLS is enforced; the `fs` backend needs a root that is
there or can be made.
-/

namespace OnDemand

structure Credentials where
  accessKeyId : String
  secretAccessKey : String
deriving DecidableEq, Repr

inductive CredentialsError where
  | accessKeyId
  | secretAccessKey
deriving DecidableEq, Repr

def CredentialsError.message : CredentialsError → String
  | accessKeyId => "AWS_ACCESS_KEY_ID or STRATUS_ACCESS_KEY_ID must be set for the s3 backend"
  | secretAccessKey => "AWS_SECRET_ACCESS_KEY or STRATUS_SECRET_ACCESS_KEY must be set for the s3 backend"

namespace Credentials

/-- The first of the variables that is set to something. -/
def firstSet (env : String → Option String) (names : List String) : Option String :=
  names.findSome? fun name => (env name).filter (· ≠ "")

def ofEnv (env : String → Option String) : Except CredentialsError Credentials :=
  match firstSet env ["AWS_ACCESS_KEY_ID", "STRATUS_ACCESS_KEY_ID"] with
  | none => .error .accessKeyId
  | some id =>
    match firstSet env ["AWS_SECRET_ACCESS_KEY", "STRATUS_SECRET_ACCESS_KEY"] with
    | none => .error .secretAccessKey
    | some secret => .ok ⟨id, secret⟩

/-- The credentials for logs, without the secret. -/
def describe (c : Credentials) : String :=
  "Credentials \x7b access_key_id: " ++ Text.quote c.accessKeyId ++
    ", secret_access_key: \"<redacted>\" \x7d"

end Credentials

inductive BackendKind where
  | s3
  | fs
deriving DecidableEq, Repr

inductive BackendError where
  | credentials (cause : CredentialsError)
  | noCredentials
  | plainHttp (endpoint : String)
  | s3
  | fs
  | unsupported (backend : String)
deriving DecidableEq, Repr

def BackendError.message : BackendError → String
  | credentials cause => cause.message
  | noCredentials => "the s3 backend needs credentials"
  | plainHttp endpoint => s!"S3 endpoint uses plaintext HTTP ({endpoint}), but storage.enforce_tls is set"
  | s3 => "creating OpenDAL S3 operator"
  | fs => "creating OpenDAL fs operator"
  | unsupported backend => s!"unsupported storage backend: {backend}"

namespace StorageSection

def usesCredentials (s : StorageSection) : Bool := s.backend = "s3"

def openS3 (s : StorageSection) (credentials : Option Credentials) : Except BackendError BackendKind :=
  if credentials.isNone then .error .noCredentials
  else if s.enforceTls ∧ "http://".toList.isPrefixOf s.endpoint.toList then .error (.plainHttp s.endpoint)
  else if s.bucket = "" ∨ s.region = "" then .error .s3
  else .ok .s3

/-- Makes the root if it is missing. In the end it has to lead somewhere, even if it is too long a path. -/
def openFs (s : StorageSection) (files : FileTree) : Except BackendError BackendKind × FileTree :=
  let found (files : FileTree) : Except BackendError BackendKind × FileTree :=
    (if (files.canonical? s.root).isSome then .ok .fs else .error .fs, files)
  if s.root.text = "" then (.error .fs, files)
  else match files.resolve s.root with
    | .ok (.free _ _) | .error .missing =>
      match files.makeDirectories s.root with
      | (.ok (), files) => found files
      | (.error _, files) => (.error .fs, files)
    | _ => found files

def openBackend (s : StorageSection) (credentials : Option Credentials) (files : FileTree) :
    Except BackendError BackendKind × FileTree :=
  if s.backend = "s3" then (s.openS3 credentials, files)
  else if s.backend = "fs" then s.openFs files
  else (.error (.unsupported s.backend), files)

/-- Builds the backend with credentials from the environment, if it needs any. -/
def connect (s : StorageSection) (env : String → Option String) (files : FileTree) :
    Except BackendError BackendKind × FileTree :=
  if s.usesCredentials then
    match Credentials.ofEnv env with
    | .error cause => (.error (.credentials cause), files)
    | .ok credentials => s.openBackend (some credentials) files
  else s.openBackend none files

end StorageSection

end OnDemand
