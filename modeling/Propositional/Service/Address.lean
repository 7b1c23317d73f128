import Propositional.Service.IPLiteral

/-!
# URLs

Where a request goes. A URL has a scheme, a network location, a path, a query and a fragment, all
but the path optional; the path decides which question is asked. It may be percent-encoded, and its
leading slashes do not count.

## Main definitions

* `Address`, `Address.split`: the scheme, the network location and the path of a URL
* `Address.Fault`: why a URL is refused
* `Address.unescape`: a path without percent-encoding
* `Address.destination`: where a URL leads
* `Address.merge`: a path with one slash where it has several
-/

namespace Propositional

/-- The parts of a URL that count: its scheme in lower case, its network location and its path. -/
structure Address where
  scheme : List Char := []
  host : List Char
  path : List Char
deriving DecidableEq, Inhabited

namespace Address

/-- Why a URL is refused. -/
inductive Fault where
  /-- The brackets of the network location do not match, or its port is out of range.
  (`ValueError`) -/
  | malformed
  /-- A label of the host name is empty or too long. (`UnicodeError`) -/
  | label
deriving DecidableEq, Inhabited

/-- The name of the exception. -/
def Fault.name : Fault → String
  | .malformed => "ValueError"
  | .label => "UnicodeError"

/-! ## Parts -/

/-- Whether a character in front of a URL is stripped: a control character or a blank. -/
def isControl (c : Char) : Bool :=
  c.toNat ≤ 0x20

/-- Whether a character is removed wherever it stands: a tab or a line break. -/
def isBreak (c : Char) : Bool :=
  c == '\t' || c == '\n' || c == '\r'

/-- What is left of a written URL. -/
def clean (cs : List Char) : List Char :=
  (cs.dropWhile isControl).filter fun c => !isBreak c

/-- Whether a character may stand in a scheme. -/
def isSchemeChar (c : Char) : Bool :=
  c.isAlphanum || c == '+' || c == '-' || c == '.'

/-- The scheme of a URL, and what follows it. A scheme begins with a letter and ends with a
colon. -/
def schemePart (cs : List Char) : List Char × List Char :=
  match cs.takeWhile (· != ':'), cs.dropWhile (· != ':') with
  | c :: word, _ :: rest =>
    if c.isAlpha && word.all isSchemeChar then ((c :: word).map Char.toLower, rest) else ([], cs)
  | _, _ => ([], cs)

/-- Whether a character belongs to the network location, behind two slashes. -/
def isHostChar (c : Char) : Bool :=
  c != '/' && c != '?' && c != '#'

/-- The path without query and fragment. -/
def barePath (cs : List Char) : List Char :=
  cs.takeWhile fun c => c != '?' && c != '#'

/-- The parts of a written URL. -/
def split (cs : List Char) : Address :=
  match schemePart (clean cs) with
  | (scheme, '/' :: '/' :: rest) =>
    { scheme, host := rest.takeWhile isHostChar, path := barePath (rest.dropWhile isHostChar) }
  | (scheme, rest) => { scheme, host := [], path := barePath rest }

/-! ## Network locations -/

/-- A network location without user information: what follows its last `@`. -/
def afterUser (cs : List Char) : List Char :=
  (cs.reverse.takeWhile (· != '@')).reverse

/-- Whether a port is empty or a number in range. -/
def isPort (ds : List Char) : Bool :=
  ds.all Char.isDigit && Text.natural ds ≤ 65535

/-- Whether the labels of a host name are neither empty nor too long; only the last may be empty. -/
def hasLabels : List Char → Nat → Bool
  | [], size => size < 64
  | c :: cs, size =>
    if c == '.' then 0 < size && size < 64 && hasLabels cs 0 else hasLabels cs (size + 1)

/-- Whether the brackets of a network location match, and enclose an IP literal. -/
def isBracketed (host : List Char) : Bool :=
  match host.dropWhile (· != '[') with
  | [] => !host.contains ']'
  | _ :: rest => host.contains ']' && IPLiteral.isEnclosable (rest.takeWhile (· != ']'))

/-- The characters whose compatibility normalization (NFKC) holds one of the delimiters of a URL. -/
def hiddenDelimiters : List Nat :=
  [0x2047, 0x2048, 0x2049, 0x2100, 0x2101, 0x2105, 0x2106, 0x2A74, 0xFE13, 0xFE16, 0xFE55, 0xFE56,
   0xFE5F, 0xFE6B, 0xFF03, 0xFF0F, 0xFF1A, 0xFF1F, 0xFF20]

/-- Whether a network location can be told from the rest of its URL. -/
def isDistinct (host : List Char) : Bool :=
  isBracketed host && host.all fun c => !hiddenDelimiters.contains c.toNat

/-- The host name and the port of a network location whose brackets match. -/
def hostAndPort (host : List Char) : List Char × List Char :=
  let site := afterUser host
  match site.dropWhile (· != '[') with
  | [] => (site.takeWhile (· != ':'), (site.dropWhile (· != ':')).drop 1)
  | _ :: rest =>
    (rest.takeWhile (· != ']'), ((rest.dropWhile (· != ']')).dropWhile (· != ':')).drop 1)

/-- Why a network location is refused, if it is. -/
def hostFault? (host : List Char) : Option Fault :=
  let (name, port) := hostAndPort host
  if !isDistinct host then some .malformed
  else if !hasLabels name 0 then some .label
  else if !isPort port then some .malformed
  else none

/-! ## Paths -/

/-- A percent-decoded path: a percent sign and two hexadecimal digits are replaced by the byte that
they write. Bytes that are no ASCII character are not told apart. -/
def unescape : List Char → List Char
  | '%' :: a :: b :: cs =>
    match Document.hexValue? a, Document.hexValue? b with
    | some x, some y =>
      let n := x * 16 + y
      (if n < 0x80 then Char.ofNat n else Char.ofNat 0xFFFD) :: unescape cs
    | _, _ => '%' :: unescape (a :: b :: cs)
  | c :: cs => c :: unescape cs
  | [] => []

/-- A path with exactly one slash in front, unless it is empty. -/
def anchored (cs : List Char) : List Char :=
  if cs.isEmpty then [] else '/' :: cs.dropWhile (· == '/')

/-- Where a URL leads: its path, and whether its scheme asks for a WebSocket. -/
structure Destination where
  path : List Char
  webSocket : Bool
deriving DecidableEq, Inhabited

/-- The schemes that ask for a WebSocket. -/
def webSocketSchemes : List (List Char) := ["ws".toList, "wss".toList]

/-- Where a URL leads. The path of a URL is split as a URL again. -/
def destination (address : String) : Except Fault Destination :=
  let outer := split address.toList
  let inner := split outer.path
  match hostFault? outer.host with
  | some f => .error f
  | none =>
    if isDistinct inner.host then
      .ok { path := anchored (unescape inner.path)
            webSocket := webSocketSchemes.contains outer.scheme }
    else .error .malformed

/-- A path with one slash where it has several. -/
def merge : List Char → List Char
  | '/' :: '/' :: cs => merge ('/' :: cs)
  | c :: cs => c :: merge cs
  | [] => []

end Address

end Propositional
