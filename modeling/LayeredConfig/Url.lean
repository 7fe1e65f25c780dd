import LayeredConfig.Url.Host

/-!
# Addresses of resources

Absolute addresses in their normal form: scheme and host in lower case, the default port of a scheme left out,
dot segments of the path resolved, and what may not stand in a part percent-encoded.  The special schemes take a
backslash for a slash and always have a path.
-/

namespace LayeredConfig

/-- An address in normal form. -/
structure Url where
  scheme : String
  /-- Whether two slashes and an authority follow the scheme. -/
  hasAuthority : Bool
  username : String
  password : Option String
  host : Option Url.Host
  port : Option Nat
  path : String
  query : Option String
  fragment : Option String
  deriving DecidableEq, Repr

namespace Url

/-- How the parts of an address are read, by its scheme. -/
inductive SchemeKind where
  | file
  | special
  | plain
  deriving DecidableEq, Repr

def SchemeKind.of (scheme : String) : SchemeKind :=
  if scheme = "file" then .file
  else if scheme = "http" ∨ scheme = "https" ∨ scheme = "ws" ∨ scheme = "wss" ∨ scheme = "ftp" then .special
  else .plain

private def SchemeKind.isSpecial (k : SchemeKind) : Bool := k != .plain

private def defaultPort? (scheme : String) : Option Nat :=
  if scheme = "http" ∨ scheme = "ws" then some 80
  else if scheme = "https" ∨ scheme = "wss" then some 443
  else if scheme = "ftp" then some 21
  else none

/-- The text of an address. -/
def render (u : Url) : String :=
  let userinfo := u.username ++ (u.password.map (":" ++ ·)).getD ""
  let port := (u.port.map fun p => ":" ++ toString p).getD ""
  u.scheme ++ ":"
    ++ (if u.hasAuthority then
          "//" ++ (if userinfo.isEmpty then "" else userinfo ++ "@") ++ (u.host.map Host.render).getD "" ++ port
        else if u.path.toList.take 2 = ['/', '/'] then "/."
        else "")
    ++ u.path
    ++ (u.query.map ("?" ++ ·)).getD ""
    ++ (u.fragment.map ("#" ++ ·)).getD ""

private def isPathEnd (c : Char) : Bool := c == '?' || c == '#'

private def isSlash (k : SchemeKind) (c : Char) : Bool := c == '/' || (k.isSpecial && c == '\\')

private def isDriveLetter (cs : List Char) : Bool :=
  match cs with
  | [a, b] => a.isAlpha && (b == ':' || b == '|')
  | _ => false

private def isNormalDriveLetter (cs : List Char) : Bool :=
  match cs with
  | [a, b] => a.isAlpha && b == ':'
  | _ => false

/-- Whether a path from its last slash on is a drive letter. -/
private def startsWithDriveLetter (cs : List Char) : Bool :=
  match cs with
  | ['/', a, b] => a.isAlpha && (b == ':' || b == '|')
  | '/' :: a :: b :: c :: _ => a.isAlpha && (b == ':' || b == '|') && (c == '/' || c == '\\' || c == '?' || c == '#')
  | _ => false

private def isDoubleDot (segment : List Char) : Bool :=
  let s := String.ofList (segment.map Char.toLower)
  s = ".." ∨ s = "%2e%2e" ∨ s = "%2e." ∨ s = ".%2e"

private def isSingleDot (segment : List Char) : Bool :=
  let s := String.ofList (segment.map Char.toLower)
  s = "." ∨ s = "%2e"

/-- The text up to and with its last slash. -/
private def throughLastSlash (path : List Char) : List Char := (path.reverse.dropWhile (· ≠ '/')).reverse

/-- The text from its last slash on. -/
private def fromLastSlash (path : List Char) : List Char :=
  path.drop ((throughLastSlash path).length - 1)

private def endsWithSlash (rootSlash : Bool) (path : List Char) : Bool :=
  match path.getLast? with
  | none => rootSlash
  | some c => c == '/'

/-- The path without its last segment; a drive letter stays. -/
private def shorten (k : SchemeKind) (path : List Char) : List Char :=
  if k = .file ∧ isNormalDriveLetter path then path
  else
    let kept := throughLastSlash path
    if k = .file ∧ isNormalDriveLetter (path.drop kept.length) then path else kept

/-- The path after a double-dot segment. -/
private def stepUp (k : SchemeKind) (rootSlash slashFollows : Bool) (path : List Char) : List Char :=
  let before := path.dropLast
  let removable := path.getLast? == some '/' && before.contains '/' && !startsWithDriveLetter (fromLastSlash before ++ ['/'])
  let path := shorten k (if removable then before else path)
  if slashFollows && !endsWithSlash rootSlash path then path ++ ['/'] else path

/-- A path that is read: what is written so far, and whether the host stays. -/
private structure PathState where
  path : List Char
  keepsHost : Bool

/-- The path after one more segment, which a slash ends if `slashFollows`. -/
private def addSegment (k : SchemeKind) (rootSlash slashFollows : Bool) (s : PathState) (segment : List Char) :
    PathState :=
  let slash := if slashFollows then ['/'] else []
  let path :=
    if k = .file ∧ !segment.isEmpty ∧ isNormalDriveLetter (s.path.drop 1) then s.path ++ ['/'] else s.path
  let encoded := encode inPath segment
  if isDoubleDot encoded then { s with path := stepUp k rootSlash slashFollows path }
  else if isSingleDot encoded then
    { s with path := if endsWithSlash rootSlash path then path else path ++ ['/'] }
  else if k = .file ∧ path.length ≤ 1 ∧ isDriveLetter encoded then
    ⟨path ++ encoded.take 1 ++ ':' :: slash, false⟩
  else { s with path := path ++ encoded ++ slash }

/-- Reads the segments of a path up to a query or fragment; `segment` is the current one, last character first. -/
private def readSegments (k : SchemeKind) (rootSlash : Bool) (s : PathState) (segment : List Char) :
    List Char → PathState × List Char
  | [] => (addSegment k rootSlash false s segment.reverse, [])
  | c :: cs =>
    if isPathEnd c then (addSegment k rootSlash false s segment.reverse, c :: cs)
    else if isSlash k c then readSegments k rootSlash (addSegment k rootSlash true s segment.reverse) [] cs
    else readSegments k rootSlash s (c :: segment) cs

/-- Reads a path that starts with `written`, and leaves what follows it. -/
private def readPath (k : SchemeKind) (rootSlash : Bool) (written cs : List Char) : PathState × List Char :=
  let (s, rest) := readSegments k rootSlash ⟨written, true⟩ [] cs
  if k = .file then ({ s with path := '/' :: s.path.dropWhile (· == '/') }, rest) else (s, rest)

/-- Reads the path after a host. -/
private def readPathAfterHost (k : SchemeKind) (cs : List Char) : PathState × List Char :=
  match k.isSpecial, cs with
  | true, c :: rest => if c = '/' ∨ c = '\\' then readPath k false ['/'] rest else readPath k false ['/'] cs
  | true, [] => readPath k false ['/'] []
  | false, [] => (⟨[], true⟩, [])
  | false, c :: rest =>
    if isPathEnd c then (⟨[], true⟩, c :: rest)
    else readPath k false (if c = '/' then [] else ['/']) (c :: rest)

/-- The query and the fragment that end an address. -/
private def readTail (k : SchemeKind) (cs : List Char) : Option String × Option String :=
  let fragmentOf := fun cs : List Char => some (String.ofList (encode inFragment cs))
  match cs with
  | '?' :: rest =>
    let query := rest.takeWhile (· ≠ '#')
    let set := if k.isSpecial then inSpecialQuery else inQuery
    (some (String.ofList (encode set query)),
      match rest.dropWhile (· ≠ '#') with
      | [] => none
      | _ :: fragment => fragmentOf fragment)
  | '#' :: fragment => (none, fragmentOf fragment)
  | _ => (none, none)

/-- The user name and password before the last at sign of an authority, and what follows it. -/
private def readUserinfo (k : SchemeKind) (cs : List Char) : Except Fault (String × Option String × List Char) :=
  let authority := cs.takeWhile fun c => !(isSlash k c || isPathEnd c)
  let following := cs.drop authority.length
  let reversed := authority.reverse
  let host := (reversed.takeWhile (· ≠ '@')).reverse
  if host.length = authority.length then .ok ("", none, cs)
  else
    let userinfo := authority.take (authority.length - host.length - 1)
    let rest := host ++ following
    if userinfo.isEmpty then
      match rest with
      | c :: _ => if isSlash k c || isPathEnd c then .error .emptyHost else .ok ("", none, rest)
      | [] => .ok ("", none, rest)
    else
      let name := String.ofList (encode inUserinfo (userinfo.takeWhile (· ≠ ':')))
      match userinfo.dropWhile (· ≠ ':') with
      | _ :: c :: password => .ok (name, some (String.ofList (encode inUserinfo (c :: password))), rest)
      | _ => .ok (name, none, rest)

/-- The host text at the start of `cs`: up to a port, a path, a query or a fragment. -/
private def hostLength (k : SchemeKind) (inBrackets : Bool) : List Char → Nat
  | [] => 0
  | c :: cs =>
    if (c = ':' ∧ !inBrackets) ∨ isSlash k c ∨ isPathEnd c then 0
    else hostLength k (if c = '[' then true else if c = ']' then false else inBrackets) cs + 1

private def readPort (scheme : String) (cs : List Char) : Except Fault (Option Nat × List Char) :=
  match cs with
  | ':' :: rest =>
    let digits := rest.takeWhile Char.isDigit
    let following := rest.dropWhile Char.isDigit
    let port := digits.foldl (fun n c => 10 * n + (c.toNat - '0'.toNat)) 0
    let ends := match following with
      | [] => true
      | c :: _ => c == '/' || c == '\\' || isPathEnd c
    if 65535 < port ∨ !ends then .error .invalidPort
    else if digits.isEmpty ∨ some port = defaultPort? scheme then .ok (none, following)
    else .ok (some port, following)
  | _ => .ok (none, cs)

/-- The rest of an address after the two slashes of an authority. -/
private def parseAuthority (scheme : String) (k : SchemeKind) (cs : List Char) : Except Fault Url := do
  let (username, password, cs) ← readUserinfo k cs
  let text := cs.take (hostLength k false cs)
  let rest := cs.drop text.length
  if k = .special ∧ text.isEmpty then throw .emptyHost
  let host ← if k.isSpecial then Host.parse text else Host.parseUninterpreted text
  let isEmpty := host == .domain ""
  if isEmpty ∧ rest.head? = some ':' then throw .emptyHost
  let (port, rest) ← readPort scheme rest
  if isEmpty ∧ (username ≠ "" ∨ password.isSome) then throw .emptyHost
  let (s, rest) := readPathAfterHost k rest
  let (query, fragment) := readTail k rest
  return { scheme, hasAuthority := true, username, password, host := if isEmpty then none else some host, port,
           path := String.ofList s.path, query, fragment }

/-- The rest of an address with the scheme `file`. -/
private def parseFile (cs : List Char) : Except Fault Url := do
  let finish := fun (host : Option Host) (s : PathState) (rest : List Char) =>
    let (query, fragment) := readTail .file rest
    { scheme := "file", hasAuthority := true, username := "", password := none,
      host := if s.keepsHost then host else none, port := none, path := String.ofList s.path, query, fragment : Url }
  let slash := fun c : Char => c == '/' || c == '\\'
  match cs with
  | a :: rest =>
    if !slash a then
      let (s, rest) := readPath .file true ['/'] cs
      return finish none s rest
    else
      match rest with
      | b :: rest' =>
        if !slash b then
          let (s, rest) := readPath .file true [] cs
          return finish none s rest
        else
          let text := rest'.takeWhile fun c => !(slash c || isPathEnd c)
          let following := rest'.drop text.length
          if isDriveLetter text then
            let (s, rest) := readPath .file true ['/'] rest'
            return finish none s rest
          let host ← if text.isEmpty then pure none else do
            let h ← Host.parse text
            pure (if h = .domain "localhost" then none else some h)
          if host.isSome then
            let (s, rest) := readPathAfterHost .file following
            return finish host s rest
          else
            let (s, rest) := readPath .file true [] following
            return finish none s rest
      | [] =>
        let (s, rest) := readPath .file true [] cs
        return finish none s rest
  | [] =>
    let (s, rest) := readPath .file true ['/'] []
    return finish none s rest

/-- The rest of an address with a scheme that is not special. -/
private def parsePlain (scheme : String) (cs : List Char) : Except Fault Url :=
  match cs with
  | '/' :: '/' :: rest => parseAuthority scheme .plain rest
  | _ =>
    let (path, rest) := match cs with
      | '/' :: rest =>
        let (s, rest) := readPath .plain false ['/'] rest
        (s.path, rest)
      | _ => (encode isControl (cs.takeWhile fun c => !isPathEnd c), cs.dropWhile fun c => !isPathEnd c)
    let (query, fragment) := readTail .plain rest
    .ok { scheme, hasAuthority := false, username := "", password := none, host := none, port := none,
          path := String.ofList path, query, fragment }

private def isSchemeChar (c : Char) : Bool := c.isAlphanum || c == '+' || c == '-' || c == '.'

/-- The text without control characters and spaces around it, and without tabs and line ends. -/
private def cleaned (cs : List Char) : List Char :=
  let isEdge := fun c : Char => c.toNat ≤ 0x20
  ((((cs.dropWhile isEdge).reverse.dropWhile isEdge).reverse).filter fun c => c ≠ '\t' ∧ c ≠ '\n' ∧ c ≠ '\r')

/-- The address that a text stands for. -/
def parse (text : String) : Except Fault Url :=
  let cs := cleaned text.toList
  let name := cs.takeWhile isSchemeChar
  match name, cs.drop name.length with
  | first :: _, ':' :: rest =>
    if !first.isAlpha then .error .noScheme
    else
      let scheme := String.ofList (name.map Char.toLower)
      match SchemeKind.of scheme with
      | .file => parseFile rest
      | .special => parseAuthority scheme .special (rest.dropWhile fun c => c == '/' || c == '\\')
      | .plain => parsePlain scheme rest
  | _, _ => .error .noScheme

end Url

end LayeredConfig
