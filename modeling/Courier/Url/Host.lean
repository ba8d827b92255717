import Courier.Text.Utf8
import Courier.Url.Basic
import Courier.Url.Punycode

set_option autoImplicit false

/-! # Hosts

A host is a domain name, an IPv4 address, or an IPv6 address in brackets, and is held in its
canonical text. In schemes of the web a name is lower case, and one whose last label is a number is
an address. Other schemes take any characters but a few as they are.

Names in schemes of the web are restricted to ASCII. Those with other characters, as they are or as
percent-encoded octets, can only be mapped to ASCII by the tables for international names; without
these tables they are refused. -/

namespace Courier

/-- The parts of a text between the places where a mark stands. -/
def splitAll (mark : Char → Bool) : List Char → List (List Char)
  | [] => [[]]
  | c :: s =>
    if mark c then [] :: splitAll mark s
    else
      match splitAll mark s with
      | [] => [[c]]
      | w :: ws => (c :: w) :: ws

/-- A number in a base of at most sixteen, if every character is a digit of it. -/
def numberIn? (base : Nat) (s : List Char) : Option Nat :=
  s.foldl
    (fun acc c =>
      match acc, if c.toNat < 128 then hexValue? (UInt8.ofNat c.toNat) else none with
      | some n, some d => if d < base then some (n * base + d) else none
      | _, _ => none)
    (some 0)

/-! ## IPv4 -/

/-- One part of an IPv4 address: decimal, octal after a zero, or hexadecimal after `0x`. -/
def Ipv4.part? (s : List Char) : Option Nat :=
  match s with
  | [] => none
  | '0' :: 'x' :: s => numberIn? 16 s
  | '0' :: 'X' :: s => numberIn? 16 s
  | '0' :: c :: s => numberIn? 8 (c :: s)
  | s => numberIn? 10 s

/-- The labels of a name; a dot at the end adds none. -/
def Ipv4.labels (s : List Char) : List (List Char) :=
  let labels := splitAll (· == '.') s
  if labels.getLast? = some [] then labels.dropLast else labels

/-- Whether a name must be read as an address: its last label is a number. -/
def Ipv4.isCandidate (s : List Char) : Bool :=
  match (Ipv4.labels s).getLast? with
  | none => false
  | some last => (!last.isEmpty && last.all Char.isDigit) || (Ipv4.part? last).isSome

/-- The address that some parts name. All but the last are single octets; the last fills the
rest. -/
def Ipv4.ofParts? (parts : List Nat) : Option Nat :=
  let front := parts.dropLast
  let last := parts.getLastD 0
  if parts.isEmpty ∨ 4 < parts.length ∨ front.any (255 < ·) ∨
      Nat.pow 256 (4 - front.length) ≤ last then none
  else some ((front ++ List.replicate (4 - front.length) 0).foldl (fun n p => n * 256 + p) 0 + last)

/-- Reads an address. -/
def Ipv4.parse? (s : List Char) : Option Nat := (Ipv4.labels s).mapM Ipv4.part? >>= Ipv4.ofParts?

/-- The four octets of an address in decimal. -/
def Ipv4.text (n : Nat) : String :=
  String.intercalate "." ([n / 16777216, n / 65536 % 256, n / 256 % 256, n % 256].map toString)

/-! ## IPv6 -/

/-- One decimal octet without zeros in front. -/
def Ipv6.octet? (s : List Char) : Option Nat :=
  if s.isEmpty ∨ 3 < s.length ∨ !s.all Char.isDigit ∨ (1 < s.length ∧ s.head? = some '0') then none
  else
    match numberIn? 10 s with
    | some n => if n ≤ 255 then some n else none
    | none => none

/-- One group of up to four digits. -/
def Ipv6.group? (s : List Char) : Option Nat :=
  if s.isEmpty ∨ 4 < s.length then none else numberIn? 16 s

/-- An address of four octets that ends an IPv6 address, as two groups. -/
def Ipv6.embedded? (s : List Char) : Option (List Nat) :=
  match splitAll (· == '.') s with
  | [a, b, c, d] =>
    match Ipv6.octet? a, Ipv6.octet? b, Ipv6.octet? c, Ipv6.octet? d with
    | some a, some b, some c, some d => some [a * 256 + b, c * 256 + d]
    | _, _, _, _ => none
  | _ => none

/-- Groups between colons; the last may be an address of four octets. -/
def Ipv6.groups? : List (List Char) → Option (List Nat)
  | [] => some []
  | [last] => if last.contains '.' then Ipv6.embedded? last else (Ipv6.group? last).map ([·])
  | g :: rest =>
    match Ipv6.group? g, Ipv6.groups? rest with
    | some n, some ns => some (n :: ns)
    | _, _ => none

/-- The parts of an address before and after its first double colon. -/
def Ipv6.splitGap? : List Char → Option (List Char × List Char)
  | ':' :: ':' :: s => some ([], s)
  | c :: s => (Ipv6.splitGap? s).map fun (a, b) => (c :: a, b)
  | [] => none

/-- The groups of a part; no text has no groups. -/
def Ipv6.side? (s : List Char) : Option (List Nat) :=
  if s.isEmpty then some [] else Ipv6.groups? (splitAll (· == ':') s)

/-- Reads the eight groups of an address; a double colon stands for one zero group or more. -/
def Ipv6.parse? (s : List Char) : Option (List Nat) :=
  match Ipv6.splitGap? s with
  | none => (Ipv6.side? s).bind fun groups => if groups.length = 8 then some groups else none
  | some (front, back) =>
    if front.contains '.' then none
    else
      match Ipv6.side? front, Ipv6.side? back with
      | some a, some b =>
        if a.length + b.length ≤ 7 then some (a ++ List.replicate (8 - a.length - b.length) 0 ++ b)
        else none
      | _, _ => none

/-- The number of zero groups at the front. -/
def Ipv6.zeroRun (groups : List Nat) : Nat := (groups.takeWhile (· == 0)).length

/-- The place and length of the first longest run of zero groups. -/
def Ipv6.longestRun : Nat → List Nat → Nat × Nat
  | _, [] => (0, 0)
  | i, g :: rest =>
    let here := Ipv6.zeroRun (g :: rest)
    let later := Ipv6.longestRun (i + 1) rest
    if later.2 ≤ here then (i, here) else later

/-- Groups in hexadecimal with colons between them. -/
def Ipv6.groupText (groups : List Nat) : String :=
  String.intercalate ":" (groups.map fun g => String.ofList (hexText g))

/-- The text of an address; its first longest run of two zero groups or more is left out. -/
def Ipv6.text (groups : List Nat) : String :=
  let (start, run) := Ipv6.longestRun 0 groups
  if run < 2 then Ipv6.groupText groups
  else Ipv6.groupText (groups.take start) ++ "::" ++ Ipv6.groupText (groups.drop (start + run))

/-! ## Names -/

/-- The characters that a name in a scheme of the web cannot hold. -/
def Host.isForbidden (c : Char) : Bool :=
  c.toNat ≤ 32 || 127 ≤ c.toNat || "%#/:<>?@[\\]^|".toList.contains c

/-- The name of a host in a scheme of the web: lower case, without forbidden characters. No name
outside ASCII is taken, even if there is a form in ASCII that it could be mapped to. -/
def Host.name? (s : List Char) : Option (List Char) :=
  match Utf8.decode? (Percent.decode (Utf8.encode (String.ofList s))) with
  | none => none
  | some text =>
    let name := text.toList.map Char.toLower
    if name.any Host.isForbidden then none
    else if (splitAll (· == '.') name).all Punycode.isPermitted then some name
    else none

/-- An address in brackets. -/
def Host.bracketed (s : List Char) : Except Url.Error String :=
  if s.getLast? = some ']' then
    match Ipv6.parse? (s.drop 1).dropLast with
    | some groups => .ok ("[" ++ Ipv6.text groups ++ "]")
    | none => .error .invalidIpv6
  else .error .invalidIpv6

/-- The host of a URL of the web or of a file. -/
def Host.parse (s : List Char) : Except Url.Error String :=
  if s.head? = some '[' then Host.bracketed s
  else
    match Host.name? s with
    | none => .error .invalidDomain
    | some name =>
      if name.isEmpty then .error .emptyHost
      else if Ipv4.isCandidate name then
        match Ipv4.parse? name with
        | some n => .ok (Ipv4.text n)
        | none => .error .invalidIpv4
      else .ok (String.ofList name)

/-- The characters that no host of another scheme can hold. -/
def Host.isInvalid (c : Char) : Bool := "\x00\t\n\r #/:<>?@[\\]^|".toList.contains c

/-- The host of a URL of another scheme, its case kept. -/
def Host.parseOther (s : List Char) : Except Url.Error String :=
  if s.head? = some '[' then Host.bracketed s
  else if s.any Host.isInvalid then .error .invalidHostCharacter
  else .ok (String.ofList (Percent.encode Percent.isControl s))

end Courier
