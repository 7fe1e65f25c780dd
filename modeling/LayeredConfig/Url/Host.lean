import LayeredConfig.Number.Power
import LayeredConfig.Text.Lowercase
import LayeredConfig.Url.Percent
import LayeredConfig.Url.Punycode

/-!
# Hosts

A host is a name or an address of 32 or 128 bits.  Names are brought to lower case and to ASCII; a name whose
last label is a number is an address.
-/

namespace LayeredConfig.Url

/-- Why a text is no address of a resource. -/
inductive Fault where
  | emptyHost
  | invalidDomainName
  | invalidPort
  | invalidIpv4
  | invalidIpv6
  | invalidHostCharacter
  | noScheme
  deriving DecidableEq, Repr

/-- The text shown for a fault. -/
def Fault.message : Fault → String
  | emptyHost => "empty host"
  | invalidDomainName => "invalid international domain name"
  | invalidPort => "invalid port number"
  | invalidIpv4 => "invalid IPv4 address"
  | invalidIpv6 => "invalid IPv6 address"
  | invalidHostCharacter => "invalid domain character"
  | noScheme => "relative URL without a base"

/-- The name or address of a machine. -/
inductive Host where
  | domain (name : String)
  | ipv4 (address : Nat)
  | ipv6 (pieces : List Nat)
  deriving DecidableEq, Repr

namespace Host

/-- What a character of a name becomes: nothing if it is one of a few invisible ones, an ASCII character if it is a wide
form of one, else its lower-case form.  The mapping for names of hosts does more: it also takes other compatibility
forms apart, composes marks with their letters, and checks the direction of labels.  A name that needs this is not read
as there. -/
private def mapChar (c : Char) : List Char :=
  let n := c.toNat
  if n = 0xad ∨ n = 0x200b ∨ n = 0x2060 ∨ n = 0xfeff ∨ (0xfe00 ≤ n ∧ n ≤ 0xfe0f) then []
  else if n = 0x3002 ∨ n = 0xff0e ∨ n = 0xff61 then ['.']
  else if 0xff01 ≤ n ∧ n ≤ 0xff5e then [(Char.ofNat (n - 0xfee0)).toLower]
  else if n = 0x130 then ['i', '\u0307']
  else [Text.lowerChar c]

/-- Characters outside ASCII that no name contains. -/
private def isRefused (c : Char) : Bool :=
  let n := c.toNat
  (0x80 ≤ n && n ≤ 0xa0) || (0x1680 ≤ n && n ≤ 0x1680) || (0x2000 ≤ n && n ≤ 0x200f) ||
    (0x2028 ≤ n && n ≤ 0x202f) || (0x205f ≤ n && n ≤ 0x206f) || n == 0x3000 || (0xe000 ≤ n && n ≤ 0xf8ff) ||
    (0xfdd0 ≤ n && n ≤ 0xfdef) || (0xfff9 ≤ n && n ≤ 0xffff) || 0xe0000 ≤ n || n % 0x10000 ≥ 0xfffe

/-- ASCII characters that no name contains. -/
private def isForbidden (c : Char) : Bool :=
  c.toNat ≤ 0x20 || c.toNat == 0x7f ||
    ['#', '%', '/', ':', '<', '>', '?', '@', '[', '\\', ']', '^', '|'].contains c

private def isAscii (c : Char) : Bool := c.toNat < 128

private def splitLabels : List Char → List (List Char)
  | [] => [[]]
  | c :: cs =>
    match splitLabels cs with
    | [] => [[c]]
    | l :: ls => if c = '.' then [] :: l :: ls else (c :: l) :: ls

private def joinLabels : List (List Char) → List Char
  | [] => []
  | [l] => l
  | l :: ls => l ++ '.' :: joinLabels ls

/-- Whether a label that claims to be encoded stands for a label that needs to be. -/
private def isEncodedLabel (cs : List Char) : Bool :=
  match Punycode.decode? cs with
  | none => false
  | some label =>
    !label.all isAscii && !label.any isRefused && label.flatMap mapChar == label && Punycode.encode label == cs

private def labelToAscii (label : List Char) : Option (List Char) :=
  if label.all isAscii then
    if label.any isForbidden then none
    else if label.take 4 = "xn--".toList ∧ !isEncodedLabel (label.drop 4) then none
    else some label
  else if label.any isRefused ∨ (label.any fun c => isAscii c && isForbidden c) ∨ label.take 4 = "xn--".toList then
    none
  else some ("xn--".toList ++ Punycode.encode label)

/-- The ASCII form of a name. -/
def domainToAscii (name : List Char) : Option (List Char) :=
  ((splitLabels (name.flatMap mapChar)).mapM labelToAscii).map joinLabels

private def digitsOf (radix : Nat) (cs : List Char) : Option Nat :=
  cs.foldl (fun n c => n.bind fun n =>
    let d := if c.isDigit then c.toNat - '0'.toNat
      else if c.isAlpha then c.toLower.toNat - 'a'.toNat + 10 else radix
    if d < radix then some (radix * n + d) else none) (some 0)

/-- A number in decimal, with a leading zero in octal, or with `0x` in hexadecimal. -/
private def ipv4Number? (cs : List Char) : Option Nat :=
  match cs with
  | [] => none
  | '0' :: 'x' :: ds => digitsOf 16 ds
  | '0' :: 'X' :: ds => digitsOf 16 ds
  | '0' :: d :: ds => digitsOf 8 (d :: ds)
  | ds => digitsOf 10 ds

/-- The labels without an empty last one. -/
private def withoutRoot (labels : List (List Char)) : List (List Char) :=
  if labels.getLast? = some [] then labels.dropLast else labels

private def endsInNumber (name : List Char) : Bool :=
  match (withoutRoot (splitLabels name)).getLast? with
  | none => false
  | some l => (!l.isEmpty && l.all Char.isDigit) || (ipv4Number? l).isSome

private def ipv4? (name : List Char) : Option Nat :=
  let labels := withoutRoot (splitLabels name)
  if 4 < labels.length then none
  else
    (labels.mapM ipv4Number?).bind fun numbers =>
      match numbers.reverse with
      | [] => none
      | last :: before =>
        if before.any (255 < ·) || 256 ^ (4 - before.length) ≤ last then none
        else some (before.reverse.foldl (fun n b => 256 * n + b) 0 * 256 ^ (4 - before.length) + last)

/-- Four decimal numbers below 256 without leading zeros, separated by points. -/
private def embeddedIpv4? (cs : List Char) : Option (List Nat) :=
  let labels := splitLabels cs
  if labels.length ≠ 4 then none
  else
    (labels.mapM fun l =>
      if l.isEmpty || !l.all Char.isDigit || (l.length > 1 && l.head? == some '0') then none
      else (digitsOf 10 l).bind fun n => if n < 256 then some n else none).map fun bytes =>
        match bytes with
        | [a, b, c, d] => [256 * a + b, 256 * c + d]
        | _ => []

private def isHexDigit (c : Char) : Bool :=
  c.isDigit || ('a' ≤ c && c ≤ 'f') || ('A' ≤ c && c ≤ 'F')

/-- The pieces written in `cs`, and the number of pieces before the gap if there is one. -/
private def ipv6Pieces (pieces : List Nat) (gap : Option Nat) (cs : List Char) : Nat →
    Option (List Nat × Option Nat)
  | 0 => none
  | fuel + 1 =>
    match cs with
    | [] => some (pieces, gap)
    | c :: rest =>
      if 8 ≤ pieces.length + (if gap.isSome then 1 else 0) then none
      else if c = ':' then
        if gap.isSome then none else ipv6Pieces pieces (some pieces.length) rest fuel
      else
        let digits := (cs.take 4).takeWhile isHexDigit
        match cs.drop digits.length with
        | [] => some (pieces ++ [(digitsOf 16 digits).getD 0], gap)
        | '.' :: _ =>
          if digits.isEmpty || 6 < pieces.length + (if gap.isSome then 1 else 0) then none
          else (embeddedIpv4? cs).map fun ps => (pieces ++ ps, gap)
        | ':' :: more =>
          if more.isEmpty then none
          else ipv6Pieces (pieces ++ [(digitsOf 16 digits).getD 0]) gap more fuel
        | _ => none

private def ipv6? (cs : List Char) : Option (List Nat) :=
  let start : Option (List Char × Option Nat) := match cs with
    | ':' :: ':' :: rest => some (rest, some 0)
    | ':' :: _ => none
    | [_] => none
    | [] => none
    | rest => some (rest, none)
  start.bind fun (rest, gap) =>
    (ipv6Pieces [] gap rest (rest.length + 1)).bind fun (pieces, gap) =>
      match gap with
      | none => if pieces.length = 8 then some pieces else none
      | some at_ =>
        if 8 < pieces.length then none
        else some (pieces.take at_ ++ List.replicate (8 - pieces.length) 0 ++ pieces.drop at_)

private def bracketed (cs : List Char) : Except Fault Host :=
  match cs.reverse with
  | ']' :: inner =>
    match ipv6? (inner.reverse) with
    | some pieces => .ok (.ipv6 pieces)
    | none => .error .invalidIpv6
  | _ => .error .invalidIpv6

/-- The host of an address with a special scheme. -/
def parse (cs : List Char) : Except Fault Host :=
  match cs with
  | '[' :: rest => bracketed rest
  | cs =>
    match (decode? cs).bind domainToAscii with
    | none => .error .invalidDomainName
    | some name =>
      if name.isEmpty then .error .emptyHost
      else if endsInNumber name then
        match ipv4? name with
        | some address => .ok (.ipv4 address)
        | none => .error .invalidIpv4
      else .ok (.domain (String.ofList name))

private def isHostDelimiter (c : Char) : Bool :=
  ['\x00', '\t', '\n', '\r', ' ', '#', '/', ':', '<', '>', '?', '@', '[', '\\', ']', '^', '|'].contains c

/-- The host of an address with any other scheme, which is not interpreted. -/
def parseUninterpreted (cs : List Char) : Except Fault Host :=
  match cs with
  | '[' :: rest => bracketed rest
  | cs =>
    if cs.any isHostDelimiter then .error .invalidHostCharacter
    else .ok (.domain (String.ofList (encode isControl cs)))

private def renderIpv4 (n : Nat) : String :=
  toString (n / 16777216) ++ "." ++ toString (n / 65536 % 256) ++ "." ++ toString (n / 256 % 256) ++ "."
    ++ toString (n % 256)

/-- The start and the length of the first longest run of zeros. -/
private def longestZeros (index : Nat) (best : Nat × Nat) (run : Nat × Nat) : List Nat → Nat × Nat
  | [] => if best.2 < run.2 then run else best
  | p :: ps =>
    if p = 0 then longestZeros (index + 1) best (if run.2 = 0 then (index, 1) else (run.1, run.2 + 1)) ps
    else longestZeros (index + 1) (if best.2 < run.2 then run else best) (0, 0) ps

private def hexText (n : Nat) : String := String.ofList (Nat.toDigits 16 n)

private def renderIpv6 (pieces : List Nat) : String :=
  let zeros := longestZeros 0 (0, 0) (0, 0) pieces
  let join := fun ps : List Nat => String.intercalate ":" (ps.map hexText)
  if zeros.2 < 2 then join pieces
  else join (pieces.take zeros.1) ++ "::" ++ join (pieces.drop (zeros.1 + zeros.2))

/-- The text of an address without brackets. -/
def bare : Host → String
  | domain name => name
  | ipv4 address => renderIpv4 address
  | ipv6 pieces => renderIpv6 pieces

/-- The text of a host. -/
def render : Host → String
  | ipv6 pieces => "[" ++ renderIpv6 pieces ++ "]"
  | h => h.bare

end Host

end LayeredConfig.Url
