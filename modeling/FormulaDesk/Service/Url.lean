import FormulaDesk.Service.Client

/-!
# Service addresses

How the program itself reads the address of a service. Scheme and host are in lower case, the usual
port of a scheme is left out, and characters that an address cannot hold are written as percent
codes.
-/

namespace FormulaDesk

structure Url where
  scheme : String
  /-- Whether a host follows the scheme, even an empty one. -/
  hasHost : Bool
  user : String
  host : String
  port : Option Int
  path : String
  query : Option String
  fragment : Option String
deriving DecidableEq, Repr, Inhabited

namespace Url

def isSchemeChar (c : Char) : Bool :=
  Text.isAsciiLetter c || Text.isAsciiDigit c || c == '+' || c == '.' || c == '-'

/-- Splits off a scheme and its colon; without one the scheme is empty. -/
def splitScheme (cs : List Char) : List Char × List Char :=
  let scheme := cs.takeWhile isSchemeChar
  match cs.dropWhile isSchemeChar with
  | ':' :: rest => if scheme.head?.all Text.isAsciiLetter then (scheme, rest) else ([], cs)
  | _ => ([], cs)

/-- Splits at the first of some characters, which stays with the second part. -/
def splitAt (stops : List Char) (cs : List Char) : List Char × List Char :=
  (cs.takeWhile fun c => !stops.contains c, cs.dropWhile fun c => !stops.contains c)

/-- Splits off what stands before an at sign. -/
def splitUser (cs : List Char) : List Char × List Char :=
  match splitAt ['@'] cs with
  | (user, '@' :: rest) => (user, rest)
  | _ => ([], cs)

/-- A host, in square brackets or up to a colon, and what follows its colon. -/
def splitHost (cs : List Char) : List Char × List Char :=
  -- an address in brackets has colons of its own, so it ends at the last bracket
  let closed := (cs.reverse.dropWhile (· != ']')).reverse
  let (host, rest) :=
    if cs.head? = some '[' ∧ !closed.isEmpty then (closed, cs.drop closed.length)
    else splitAt [':', '@'] cs
  match rest with
  | ':' :: port => (host, port)
  | port => (host, port)

def lowered (cs : List Char) : List Char := cs.map Numeral.lowerAscii

def usualPort? (scheme : String) : Option Int :=
  [("ftp", 21), ("http", 80), ("https", 443), ("ws", 80), ("wss", 443)].lookup scheme

def readPort (scheme : String) (cs : List Char) : Except Failure (Option Int) :=
  if cs.isEmpty then .ok none
  else match Numeral.readInt (String.ofList cs) with
    | .ok n => .ok (if usualPort? scheme = some n then none else some n)
    | .error _ =>
      .error (.foreign "InvalidURL" ("Invalid port: " ++ Text.quoted (String.ofList cs)))

/-! ## Percent codes -/

/-- The bytes of a character, each as a percent code. -/
def percentCode (c : Char) : List Char :=
  (String.singleton c).toUTF8.toList.flatMap fun byte =>
    ['%', Char.toUpper (Nat.digitChar (byte.toNat / 16)),
      Char.toUpper (Nat.digitChar (byte.toNat % 16))]

def isHexDigit (c : Char) : Bool :=
  Text.isAsciiDigit c || ('a' ≤ c && c ≤ 'f') || ('A' ≤ c && c ≤ 'F')

/-- Writes reserved characters as percent codes, and keeps those that are there. -/
def encoded (reserved : List Char) : List Char → List Char
  | [] => []
  | c :: rest =>
    let isCode := c == '%' && rest.head?.any isHexDigit && rest.tail.head?.any isHexDigit
    if isCode || (0x20 < c.toNat && c.toNat < 0x7f && c != '%' && !reserved.contains c) then
      c :: encoded reserved rest
    else percentCode c ++ encoded reserved rest

def pathReserved : List Char := ['"', '#', '<', '>', '?', '\x60', '\x7b', '\x7d']

def queryReserved : List Char := ['"', '#', '<', '>']

def fragmentReserved : List Char := ['"', '<', '>', '\x60']

/-! ## Paths -/

/-- The segments of a path without those that stand for the same or the parent level; `kept` holds
the segments so far, last first. -/
def resolveSegments : (kept : List (List Char)) → List (List Char) → List (List Char)
  | kept, [] => kept.reverse
  | kept, s :: rest =>
    if s = ['.'] then resolveSegments kept rest
    else if s = ['.', '.'] then
      -- there is no level above the first slash
      resolveSegments (if kept = [[]] ∨ kept = [] then kept else kept.tail) rest
    else resolveSegments (s :: kept) rest

def segments (cs : List Char) : List (List Char) :=
  cs.foldr (fun c acc =>
    if c == '/' then [] :: acc
    else match acc with
      | [] => [[c]]
      | s :: rest => (c :: s) :: rest) [[]]

def joinSegments (ss : List (List Char)) : List Char := ['/'].intercalate ss

/-- Resolves the segments that are one or two points. -/
def resolved (cs : List Char) : List Char :=
  let parts := segments cs
  if parts.any fun s => s = ['.'] ∨ s = ['.', '.'] then joinSegments (resolveSegments [] parts)
  else cs

/-! ## Reading and writing -/

def ofString (s : String) : Except Failure Url := do
  let (schemeChars, rest) := splitScheme s.toList
  let scheme := String.ofList (lowered schemeChars)
  let hasHost := rest.take 2 = ['/', '/']
  let (authority, rest) := if hasHost then splitAt ['/', '?', '#'] (rest.drop 2) else ([], rest)
  let (user, hostPort) := splitUser authority
  let (host, portText) := splitHost hostPort
  let port ← readPort scheme portText
  let (path, rest) := splitAt ['?', '#'] rest
  let (query, rest) := match rest with
    | '?' :: more =>
      let (query, rest) := splitAt ['#'] more
      (some query, rest)
    | rest => (none, rest)
  let fragment := match rest with
    | '#' :: more => some more
    | _ => none
  let path := if scheme.isEmpty && !hasHost then path else resolved path
  return {
    scheme, hasHost, port
    user := String.ofList (encoded pathReserved user)
    host := String.ofList (lowered host)
    path := String.ofList (encoded pathReserved path)
    query := query.map fun q => String.ofList (encoded queryReserved q)
    fragment := fragment.map fun f => String.ofList (encoded fragmentReserved f) }

/-- Path and query; a missing path is a slash. -/
def target (u : Url) : String :=
  (if u.path.isEmpty then "/" else u.path) ++ ((u.query.map ("?" ++ ·)).getD "")

/-- The part of the address before the path. -/
def origin (u : Url) : String :=
  (if u.scheme.isEmpty then "" else u.scheme ++ ":")
    ++ (if u.hasHost then
        "//" ++ (if u.user.isEmpty then "" else u.user ++ "@") ++ u.host
          ++ ((u.port.map fun p => ":" ++ toString p).getD "")
      else "")

/-- The address of a path under the service: the path is appended to that of the service. -/
def join (u : Url) (path : String) : String :=
  let base := u.target
  u.origin ++ (if base.endsWith "/" then base else base ++ "/")
    ++ String.ofList (path.toList.dropWhile (· == '/')) ++ ((u.fragment.map ("#" ++ ·)).getD "")

/-- The bytes of a text whose percent codes are taken back. -/
def decodedBytes : List Char → List Nat
  | [] => []
  | '%' :: a :: b :: rest =>
    if isHexDigit a && isHexDigit b then
      (hexDigit a * 16 + hexDigit b) :: decodedBytes rest
    else '%'.toNat :: decodedBytes (a :: b :: rest)
  | c :: rest => (String.singleton c).toUTF8.toList.map UInt8.toNat ++ decodedBytes rest
where
  hexDigit (c : Char) : Nat :=
    if Text.isAsciiDigit c then c.toNat - 48 else (Numeral.lowerAscii c).toNat - 87

/-- A text whose percent codes are taken back; it stays as it is where they are no text. -/
def decoded (cs : List Char) : String :=
  (String.fromUTF8? ⟨((decodedBytes cs).map Nat.toUInt8).toArray⟩).getD (String.ofList cs)

/-- The path that an address asks for. -/
def servedPath (address : String) : String :=
  let (_, rest) := splitScheme address.toList
  let path := if rest.take 2 = ['/', '/'] then (splitAt ['/', '?', '#'] (rest.drop 2)).2 else rest
  decoded (splitAt ['?', '#'] path).1

/-- The reading of addresses that the program comes with. -/
def read : BaseReader := fun s => (ofString s).map fun u => ⟨u.join⟩

end Url

end FormulaDesk
