import TraceRollup.Text.Utf8

/-!
# Addresses of web resources

`Url.parse` reads an absolute `http` or `https` address as browsers do: slashes after the scheme
do not matter, host names are put in lower case, the usual ports are left out, dots in the path
are resolved, and characters that may not stand in an address are written as percent signs with
two hexadecimal digits. `Url.render` writes the address.
-/

namespace TraceRollup.Http

/-- The host of an address: an IP address or a name to be looked up. -/
inductive Host
  | address (text : String)
  | name (text : String)
  deriving DecidableEq

def Host.text : Host → String
  | .address t | .name t => t

inductive UrlFault
  | emptyHost | badName | badAddress | badPort
  deriving DecidableEq

def UrlFault.message : UrlFault → String
  | .emptyHost => "empty host"
  | .badName => "invalid international domain name"
  | .badAddress => "invalid IPv4 address"
  | .badPort => "invalid port number"

structure Url where
  secure : Bool
  host : Host
  /-- None when it is the usual one. -/
  portNumber : Option Nat
  segments : List String
  query : Option String
  fragment : Option String
  deriving DecidableEq

namespace Url

/-! ### Characters -/

/-- Controls, the blank and whatever lies beyond ASCII never stand in an address. -/
def isForeign (c : Char) : Bool := decide (c.toNat ≤ 32) || decide (126 < c.toNat)

def escapedInPath : List Char := ['"', '#', '<', '>', '?', '\x60', '\x7b', '\x7d']
def escapedInQuery : List Char := ['"', '#', '<', '>', '\'']
def escapedInFragment : List Char := ['"', '<', '>', '\x60']

def hexLetter (n : Nat) : Char := if n < 10 then Char.ofNat (48 + n) else Char.ofNat (55 + n)

/-- A byte as a percent sign and two digits. -/
def escapeByte (b : UInt8) : List Char := ['%', hexLetter (b.toNat / 16), hexLetter (b.toNat % 16)]

def escape (escaped : List Char) (cs : List Char) : String :=
  String.ofList (cs.flatMap fun c =>
    if isForeign c || escaped.contains c then (String.utf8EncodeChar c).flatMap escapeByte else [c])

/-! ### Hosts and ports -/

/-- Characters that no host name holds. -/
def forbiddenInName : List Char :=
  ['#', '/', ':', '<', '>', '?', '@', '[', '\\', ']', '^', '|', '%', '"', '\x60', '\x7b', '\x7d']

def isOctet (cs : List Char) : Bool :=
  !cs.isEmpty && decide (cs.length ≤ 3) && cs.all Char.isDigit && decide ((String.ofList cs).toNat?.getD 256 < 256)

/-- A host is an address if it is bracketed or if its last part is a number. -/
def host? (cs : List Char) : Except UrlFault Host :=
  let text := String.ofList (cs.map Char.toLower)
  match cs with
  | [] => .error .emptyHost
  | '[' :: _ => .ok (.address text)
  | _ =>
    if cs.any (fun c => isForeign c || forbiddenInName.contains c) then .error .badName
    else
      let parts := cs.splitOn '.'
      let parts := if parts.getLast? = some [] then parts.dropLast else parts
      if (parts.getLast?.getD []).all Char.isDigit then
        if parts.length = 4 ∧ parts.all isOctet then .ok (.address text) else .error .badAddress
      else .ok (.name text)

def usualPort (secure : Bool) : Nat := if secure then 443 else 80

def portNumber? (secure : Bool) (cs : List Char) : Except UrlFault (Option Nat) :=
  if cs = [] then .ok none
  else if cs.all Char.isDigit then
    let n := Nat.ofDigitChars 10 cs 0
    if 65535 < n then .error .badPort else .ok (if n = usualPort secure then none else some n)
  else .error .badPort

/-- What follows the last sign of a kind, or everything. -/
def afterLast (c : Char) (cs : List Char) : List Char := ((cs.reverse.takeWhile (· ≠ c))).reverse

/-- Cuts a host from what follows its colon; colons in brackets do not count. -/
def cutHost (cs : List Char) : List Char × List Char :=
  match cs with
  | '[' :: _ =>
    let inside := cs.takeWhile (· ≠ ']')
    (inside ++ [']'], (cs.drop (inside.length + 1)).drop 1)
  | _ => (cs.takeWhile (· ≠ ':'), (cs.dropWhile (· ≠ ':')).drop 1)

/-! ### Path -/

def isSlash (c : Char) : Bool := c == '/' || c == '\\'
def endsAuthority (c : Char) : Bool := isSlash c || c == '?' || c == '#'

def splitPath (cs : List Char) : List (List Char) := cs.splitOnP isSlash

/-- A dot, plain or escaped. -/
def undot (s : String) : String := (s.toLower.replace "%2e" ".")

/-- Resolves one more part of a path; of the last part only an emptiness may remain. -/
def pushSegment (last : Bool) (done : List String) (segment : String) : List String :=
  if undot segment = "." then if last then done ++ [""] else done
  else if undot segment = ".." then if last then done.dropLast ++ [""] else done.dropLast
  else done ++ [segment]

def resolve : List String → List String → List String
  | done, [] => done
  | done, [s] => pushSegment true done s
  | done, s :: rest => resolve (pushSegment false done s) rest

/-! ### Reading and writing -/

def ofRest (secure : Bool) (cs : List Char) : Except UrlFault Url := do
  let cs := cs.dropWhile isSlash
  let authority := cs.takeWhile fun c => !endsAuthority c
  let rest := cs.dropWhile fun c => !endsAuthority c
  let cut := cutHost (afterLast '@' authority)
  let host ← host? cut.1
  let portNumber ← portNumber? secure cut.2
  let path := rest.takeWhile fun c => c != '?' && c != '#'
  let rest := rest.dropWhile fun c => c != '?' && c != '#'
  let query := rest.takeWhile fun c => c != '#'
  let fragment := rest.dropWhile fun c => c != '#'
  return {
    secure, host, portNumber
    segments := resolve [] ((splitPath (path.drop 1)).map (escape escapedInPath))
    query := if query = [] then none else some (escape escapedInQuery (query.drop 1))
    fragment := if fragment = [] then none else some (escape escapedInFragment (fragment.drop 1)) }

def schemeText (secure : Bool) : String := if secure then "https:" else "http:"

/-- Reads an address; without a scheme there is no host. Tabs and line breaks are passed over. -/
def parse (text : String) : Except UrlFault Url :=
  let cs := text.toList.filter fun c => c != '\t' && c != '\n' && c != '\r'
  let cs := (cs.dropWhile fun c => decide (c.toNat ≤ 32)).reverse.dropWhile (fun c => decide (c.toNat ≤ 32)) |>.reverse
  if (schemeText true).toList.isPrefixOf cs then ofRest true (cs.drop 6)
  else if (schemeText false).toList.isPrefixOf cs then ofRest false (cs.drop 5)
  else .error .emptyHost

def path (u : Url) : String := "/" ++ "/".intercalate u.segments

def render (u : Url) : String :=
  schemeText u.secure ++ "//" ++ u.host.text
    ++ (match u.portNumber with
      | some n => ":" ++ toString n
      | none => "")
    ++ u.path
    ++ (match u.query with
      | some q => "?" ++ q
      | none => "")
    ++ (match u.fragment with
      | some f => "#" ++ f
      | none => "")

end Url
end TraceRollup.Http
