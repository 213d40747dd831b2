import RowGate.Url

/-! # Addresses of key-value servers

An address is a URL with a host, and possibly a port, a login, and the number of a database
as its path; or one with the path of a socket, and all else in its query.
-/
namespace RowGate.Redis

inductive AddressFault where
  | notAnAddress
  | noHost
  | noPath
  | invalidDatabase
  | invalidUser
  | invalidPassword
  | invalidProtocol (value : String)
  | noTls
  deriving DecidableEq, Repr

namespace AddressFault

def what : AddressFault → String
  | .notAnAddress => "Redis URL did not parse"
  | .noHost => "Missing hostname"
  | .noPath => "Missing path"
  | .invalidDatabase => "Invalid database number"
  | .invalidUser => "Username is not valid UTF-8 string"
  | .invalidPassword => "Password is not valid UTF-8 string"
  | .invalidProtocol _ => "Invalid protocol version"
  | .noTls => "can't connect with TLS, the feature is not enabled"

def kindName : String := "InvalidClientConfig"

/-- What is wrong, the kind of the fault, and the text at fault where it is shown. -/
def message (f : AddressFault) : String :=
  match f with
  | .invalidProtocol value => f.what ++ " - " ++ kindName ++ ": " ++ value
  | f => f.what ++ "- " ++ kindName

end AddressFault

inductive Endpoint where
  | host (name : String) (port : Nat)
  | socket (path : Octets)
  deriving DecidableEq

structure Address where
  endpoint : Endpoint
  database : Int := 0
  user : Option String := none
  password : Option String := none
  deriving DecidableEq

namespace Address

def defaultPort : Nat := 6379

def plainScheme : String := "redis"
def tlsScheme : String := "rediss"
def socketSchemes : List String := ["redis+unix", "unix"]

/-- A host that means this machine in the URL of a socket. -/
def localHost : String := "localhost"

def loginText (fault : AddressFault) (s : List Char) : Except AddressFault String :=
  match Utf8.text (Text.percentDecoded s) with
  | .ok t => .ok t
  | .error _ => .error fault

/-- A signed 64-bit decimal. -/
def database? (s : List Char) : Option Int :=
  match s with
  | '-' :: digits =>
    (Digits.natural? digits).bind (fun n => if n ≤ wordBound 63 then some (-n) else none)
  | '+' :: digits => below digits
  | digits => below digits
where
  below (digits : List Char) : Option Int :=
    (Digits.natural? digits).bind (fun n => if n < wordBound 63 then some n else none)

def databaseOf (s : List Char) : Except AddressFault Int :=
  match database? s with
  | some n => .ok n
  | none => .error .invalidDatabase

def trimSlashes (s : List Char) : List Char :=
  ((s.dropWhile (· = '/')).reverse.dropWhile (· = '/')).reverse

def protocols : List String := ["2", "resp2", "3", "resp3"]

def checkProtocol (u : Url) : Except AddressFault Unit :=
  match u.value? "protocol" with
  | none => .ok ()
  | some v => if protocols.contains v then .ok () else .error (.invalidProtocol v)

def ofHost (u : Url) : Except AddressFault Address := do
  let name ← match u.host with
    | some name => .ok name
    | none => .error .noHost
  if u.scheme = tlsScheme then .error .noTls
  let digits := trimSlashes u.path
  let database ← if digits.isEmpty then .ok 0 else databaseOf digits
  let user ← if u.user.isEmpty then .ok none
    else (loginText .invalidUser u.user).map some
  let password ← match u.password with
    | none => .ok none
    | some p => (loginText .invalidPassword p).map some
  checkProtocol u
  .ok ⟨.host name (u.port.getD defaultPort), database, user, password⟩

/-- A path whose last two octets name a drive is that of a directory. -/
def namesDrive (path : Octets) : Bool :=
  match path.reverse with
  | sign :: letter :: _ :: _ =>
    (sign.toNat = ':'.toNat || sign.toNat = '|'.toNat) && (Char.ofNat letter.toNat).isAlpha
  | _ => false

/-- The path of a file on this machine. -/
def localPath (u : Url) : Except AddressFault Octets :=
  if u.path.head? = some '/' && (u.host.isNone || u.host = some localHost) then
    let path := Text.percentDecoded u.path
    .ok (if namesDrive path then path ++ Utf8.encode ['/'] else path)
  else .error .noPath

def ofSocket (u : Url) : Except AddressFault Address := do
  let path ← localPath u
  let database ← match u.value? "db" with
    | none => .ok 0
    | some n => databaseOf n.toList
  checkProtocol u
  .ok ⟨.socket path, database, u.value? "user", u.value? "pass"⟩

/-- The address that a text gives. -/
def parse (s : String) : Except AddressFault Address :=
  match Url.parse s with
  | none => .error .notAnAddress
  | some u =>
    if u.scheme = plainScheme || u.scheme = tlsScheme then ofHost u
    else if socketSchemes.contains u.scheme then ofSocket u
    else .error .notAnAddress

end Address
end RowGate.Redis
