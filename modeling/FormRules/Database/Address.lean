import FormRules.Database.IpAddress

/-!
# Addresses of databases

The URL of a database: a scheme, the server with what identifies the client to it, the database on
the server, and options. A URL is refused if it is relative, if its server is malformed, or if an
option that must have a certain form has another one.
-/

namespace FormRules.Database

/-- The parts of a URL. -/
structure Url where
  scheme : List Char
  /-- What stands before an at sign in the authority. -/
  credentials : Option (List Char)
  host : List Char
  /-- What follows a colon behind the host. -/
  port : Option (List Char)
  path : List Char
  query : List Char

namespace Url

/-- The text without line breaks and tabs, and without blanks and control characters at its ends. -/
def trimmed (text : List Char) : List Char :=
  let inner := ((text.dropWhile (· ≤ ' ')).reverse.dropWhile (· ≤ ' ')).reverse
  inner.filter fun (character : Char) => !(['\t', '\n', '\r'].contains character)

/-- The characters behind the first one of a scheme. -/
def isSchemeCharacter (character : Char) : Bool :=
  character.isAlphanum || ['+', '-', '.'].contains character

/-- The characters that end an authority. -/
def endsAuthority (character : Char) : Bool :=
  ['/', '?', '#'].contains character

/-- The parts of an authority before and behind its last at sign. -/
def splitCredentials (authority : List Char) : Option (List Char) × List Char :=
  let server := (authority.reverse.takeWhile (· != '@')).reverse
  if server.length < authority.length then
    (some (authority.take (authority.length - server.length - 1)), server)
  else (none, server)

/-- The host of a server and what follows the colon behind it, which does not stand in brackets. -/
def splitPort (bracketed : Bool) : List Char → List Char × Option (List Char)
  | [] => ([], none)
  | head :: rest =>
      if head = ':' ∧ !bracketed then ([], some rest)
      else
        let (host, port) := splitPort (head == '[' || (bracketed && head != ']')) rest
        (head :: host, port)

/-- The parts of a URL, unless it is relative. -/
def ofText? (text : List Char) : Option Url :=
  let text := trimmed text
  let scheme := text.takeWhile isSchemeCharacter
  match text.head?.filter Char.isAlpha, text.drop scheme.length with
  | some _, ':' :: rest =>
      let authority := match rest with
        | '/' :: '/' :: rest => rest.takeWhile (!endsAuthority ·)
        | _ => []
      let behind := match rest with
        | '/' :: '/' :: rest => rest.dropWhile (!endsAuthority ·)
        | _ => rest
      let (credentials, server) := splitCredentials authority
      let (host, port) := splitPort false server
      let target := behind.takeWhile (· != '#')
      some
        { scheme, credentials, host, port
          path := target.takeWhile (· != '?')
          query := (target.dropWhile (· != '?')).drop 1 }
  | _, _ => none

/-- The bytes of a text with its percent escapes resolved. -/
def bytes : List Char → List UInt8
  | '%' :: high :: low :: rest =>
      match Text.hexDigitValue? high, Text.hexDigitValue? low with
      | some high, some low => UInt8.ofNat (16 * high + low) :: bytes rest
      | _, _ => '%'.toUInt8 :: bytes (high :: low :: rest)
  | head :: rest => (String.singleton head).toUTF8.toList ++ bytes rest
  | [] => []

/-- The text with its percent escapes resolved, if its bytes are a text. -/
def unescaped? (text : List Char) : Option String :=
  String.fromUTF8? ⟨(bytes text).toArray⟩

/-- The names and values of a query. A plus sign stands for a blank. -/
def options (query : List Char) : List (String × String) :=
  let resolve (text : String) : String :=
    (unescaped? (text.toList.map fun (head : Char) => if head = '+' then ' ' else head)).getD ""
  (((String.ofList query).splitOn "&").filter (· ≠ "")).map fun (option : String) =>
    let name := option.toList.takeWhile (· != '=')
    (resolve (String.ofList name), resolve (String.ofList (option.toList.drop (name.length + 1))))

end Url

/-! ## Which URLs are accepted -/

/-- The characters that no host may hold. -/
def isForbiddenInHost (character : Char) : Bool :=
  character == '\x00' || " #/:<>?@[\\]^|".toList.contains character

/-- A host is a name without forbidden characters, or an address of groups in brackets. -/
def acceptsHost : List Char → Bool
  | '[' :: rest =>
      rest.getLast? == some ']' && IpAddress.isGroups (String.ofList rest.dropLast)
  | host => !host.any isForbiddenInHost

/-- The greatest TCP port number. -/
def maxPort : Nat := 65535

/-- The text of a natural number up to a bound. -/
def acceptsNatural (bound : Nat) (text : String) : Bool :=
  let digits := match text.toList with
    | '+' :: digits => digits
    | digits => digits
  digits ≠ [] && digits.all Char.isDigit && Text.digitsValue digits ≤ bound

/-- A port behind a colon, which may be missing. -/
def acceptsPort (digits : List Char) : Bool :=
  digits.all Char.isDigit && Text.digitsValue digits ≤ maxPort

/-- How much the connection to a server is secured. -/
def securityModes : List String :=
  ["disable", "allow", "prefer", "require", "verify-ca", "verify-full"]

/-- An option has the form that its name asks for. -/
def acceptsOption : String × String → Bool
  | ("sslmode", value) | ("ssl-mode", value) => securityModes.contains value.toLower
  | ("statement-cache-capacity", value) => acceptsNatural (2 ^ 64 - 1) value
  | ("hostaddr", value) => IpAddress.isAddress value
  | ("port", value) => acceptsNatural maxPort value
  | _ => true

/-- The schemes whose URLs always name a host. -/
def hostedSchemes : List String := ["http", "https", "ws", "wss", "ftp"]

/-- Credentials, a port and some schemes need a host. -/
def needsHost (url : Url) : Bool :=
  url.credentials.isSome || url.port.isSome ||
    hostedSchemes.contains (String.ofList url.scheme).toLower

/-- The escapes in a text make up a text. -/
def isReadable (text : List Char) : Bool :=
  (Url.unescaped? text).isSome

/-- A host that begins with an escaped slash is the path of a socket. -/
def isSocket (host : List Char) : Bool :=
  (Url.bytes host).head? == some '/'.toUInt8

/-- The server is well-formed, and there is one if one is needed. -/
def acceptsServer (url : Url) : Bool :=
  acceptsHost url.host && url.port.all acceptsPort && !(url.host.isEmpty && needsHost url) &&
    (!isSocket url.host || isReadable url.host)

/-- Whether a connection can be tried at the database of a URL. -/
def accepts (url : Url) : Bool :=
  acceptsServer url && url.credentials.all isReadable && isReadable url.path &&
    (Url.options url.query).all acceptsOption

end FormRules.Database
