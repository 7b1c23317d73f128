import Propositional.Document.Reader

/-!
# IP literals

A host may be given by an address instead of a name. An IPv4 address is four decimal octets between
points. An IPv6 address is eight hexadecimal groups between colons; `::` leaves out groups that are
zero, once, and the last two groups may be written as an IPv4 address. A zone identifier may follow
behind a percent sign.

## Main definitions

* `IPLiteral.isIPv4`, `IPLiteral.isIPv6`: whether a text is such an address
* `IPLiteral.isEnclosable`: whether a text may stand in brackets in place of a name
-/

namespace Propositional.IPLiteral

/-- The parts of a text between delimiters. -/
def parts (delimiter : Char) : List Char → List (List Char)
  | [] => [[]]
  | c :: cs =>
    match c == delimiter, parts delimiter cs with
    | true, ps => [] :: ps
    | false, p :: ps => (c :: p) :: ps
    | false, [] => [[c]]

/-- Whether a text is a decimal octet: at most 255, without leading zeros. -/
def isOctet (ds : List Char) : Bool :=
  !ds.isEmpty && ds.all Char.isDigit && ds.length ≤ 3 && (ds == ['0'] || ds.head? != some '0')
    && Text.natural ds ≤ 255

/-- Whether a text is an IPv4 address. -/
def isIPv4 (cs : List Char) : Bool :=
  let ps := parts '.' cs
  ps.length == 4 && ps.all isOctet

/-- Whether a text is a hexadecimal group. -/
def isGroup (ds : List Char) : Bool :=
  !ds.isEmpty && ds.length ≤ 4 && ds.all fun d => (Document.hexValue? d).isSome

/-- The groups of an IPv6 address, an IPv4 address at its end counted as two of them. -/
def groups? (cs : List Char) : Option (List (List Char)) :=
  let ps := parts ':' cs
  if ps.length < 3 then none
  else
    match ps.getLast? with
    | some last =>
      if last.contains '.' then
        if isIPv4 last then some (ps.dropLast ++ [['0'], ['0']]) else none
      else some ps
    | none => none

/-- Whether the groups on one side of `::` are given, or left out altogether. -/
def isSide (ps : List (List Char)) : Bool :=
  ps == [[]] || ps.all isGroup

/-- How many groups one side of `::` gives. -/
def sideSize (ps : List (List Char)) : Nat :=
  if ps == [[]] then 0 else ps.length

/-- Whether groups make up an IPv6 address. An empty group between the others is `::`. -/
def areGroups (ps : List (List Char)) : Bool :=
  let inner := ps.dropLast.drop 1
  match inner.dropWhile fun p => !p.isEmpty with
  | [] => ps.length == 8 && ps.all isGroup
  | _ =>
    let before := ps.take (1 + (inner.takeWhile fun p => !p.isEmpty).length)
    let behind := ps.drop (before.length + 1)
    isSide before && isSide behind && sideSize before + sideSize behind < 8

/-- Whether a text is an IPv6 address, with a zone identifier or without. -/
def isIPv6 (cs : List Char) : Bool :=
  let address := cs.takeWhile (· != '%')
  let zone? := match cs.dropWhile (· != '%') with
    | [] => true
    | _ :: name => !name.isEmpty && !name.contains '%'
  zone? && ((groups? address).any areGroups)

/-- Whether a text is an address of a future version: `v`, the version, a point and the address. -/
def isVersioned (cs : List Char) : Bool :=
  match cs with
  | 'v' :: cs =>
    let version := cs.takeWhile fun c => (Document.hexValue? c).isSome
    match cs.dropWhile fun c => (Document.hexValue? c).isSome with
    | '.' :: rest => !version.isEmpty && !rest.isEmpty
    | _ => false
  | _ => false

/-- Whether a text may stand in brackets in place of a host name. -/
def isEnclosable (cs : List Char) : Bool :=
  if cs.head? == some 'v' then isVersioned cs else isIPv6 cs

end Propositional.IPLiteral
