import ServiceHealth.Net.Address
import ServiceHealth.Text.Percent

/-!
# Hosts

The host of a URL is a name or an address. In a scheme that knows about hosts the bytes of the
name are put into ASCII by a table of the client, which may know international names, and a name
whose last part is a number has to be an address of version 4, in any of its notations.

## Main definitions

* `Host`, `Host.render` — hosts and their text.
* `HostError`, `HostError.message` — why a text is no host.
* `ToAscii`, `Host.plainName?` — how names are put into ASCII, and how those are that are in it.
* `Host.parse`, `Host.parseOther` — the host of a URL of a special scheme, and of any other.
-/

namespace ServiceHealth.Net

open Number Text

/-- The host of a URL. -/
inductive Host
  | name (text : String)
  | ipv4 (ip : Ipv4)
  | ipv6 (ip : Ipv6)
  deriving DecidableEq, Repr

/-- How a client puts the bytes of a name into ASCII, unless it refuses them. For international
names that takes tables of which nothing is known here. -/
abbrev ToAscii := (name : List UInt8) → Option (List Char)

/-- Why a text is no host. -/
inductive HostError
  | empty
  | invalidIpv4
  | invalidIpv6
  | invalidName
  | invalidCharacter
  deriving DecidableEq, Repr

/-- The text of an error. -/
def HostError.message : HostError → String
  | empty => "empty host"
  | invalidIpv4 => "invalid IPv4 address"
  | invalidIpv6 => "invalid IPv6 address"
  | invalidName => "invalid international domain name"
  | invalidCharacter => "invalid domain character"

namespace Host

/-- The text of a host; an address of version 6 stands in brackets. -/
def render : Host → String
  | name text => text
  | ipv4 ip => String.ofList ip.toChars
  | ipv6 ip => String.ofList ('[' :: compressed ip.groups ++ [']'])

/-! ### Addresses -/

/-- The base and the digits of a number by the mark in front of it. -/
def radix : List Char → Nat × List Char
  | '0' :: 'x' :: cs | '0' :: 'X' :: cs => (16, cs)
  | '0' :: c :: cs => (8, c :: cs)
  | cs => (10, cs)

/-- One number of an address of version 4: decimal, or octal or hexadecimal with a mark. -/
def ipv4Number? (cs : List Char) : Option Nat :=
  if cs = [] then none else numberIn? (radix cs).1 (radix cs).2

/-- The parts of a name without the empty one that a point at the end leaves. -/
def parts (cs : List Char) : List (List Char) :=
  match (cs.splitOn '.').reverse with
  | [] :: ps => ps.reverse
  | ps => ps.reverse

/-- The last part of a name is a number. -/
def endsInNumber (cs : List Char) : Bool :=
  match (parts cs).getLast? with
  | some part => part ≠ [] && (part.all Char.isDigit || (ipv4Number? part).isSome)
  | none => false

/-- The address that one to four numbers stand for: all but the last are one octet each, and
the last one fills the rest. -/
def ipv4OfNumbers? (ns : List Nat) : Option Ipv4 := do
  let last ← ns.getLast?
  let front := ns.dropLast
  let rest := Nat.pow 256 (4 - front.length)
  guard (ns.length ≤ 4 ∧ (∀ n ∈ front, n < 256) ∧ last < rest)
  let value := front.foldl (fun (v n : Nat) => v * 256 + n) 0 * rest + last
  return ⟨(value / 16777216).toUInt8, (value / 65536).toUInt8, (value / 256).toUInt8,
    value.toUInt8⟩

/-- The address of version 4 that a name spells. -/
def ipv4? (cs : List Char) : Option Ipv4 := do
  ipv4OfNumbers? (← (parts cs).mapM ipv4Number?)

/-- The address of version 6 between brackets. -/
def bracketed (cs : List Char) : Except HostError Host :=
  if cs.getLast? ≠ some ']' then .error .invalidIpv6
  else
    match readIpv6 cs.dropLast with
    | some (ip, []) => .ok (.ipv6 ip)
    | _ => .error .invalidIpv6

/-! ### Names -/

/-- The ASCII characters that a name must not have. -/
def isForbidden (c : Char) : Bool :=
  c.toNat ≤ 0x20 || 0x7F ≤ c.toNat || "%#/:<>?@[\\]^|".toList.contains c

/-- The name that bytes of ASCII spell, in lower case. Its parts are not looked at, so one that is
the ASCII form of an international name need not be a good one. -/
def plainName? : ToAscii := fun bytes => do
  let chars := (← String.fromUTF8? ⟨bytes.toArray⟩).toList.map Char.toLower
  guard (!chars.any isForbidden)
  return chars

/-- The host of a URL whose scheme is special. -/
def parse (toAscii : ToAscii) (cs : List Char) : Except HostError Host :=
  match cs with
  | '[' :: cs => bracketed cs
  | cs =>
    match toAscii (Percent.decodeBytes (Percent.bytes (String.ofList cs))) with
    | none => .error .invalidName
    | some [] => .error .empty
    | some ascii =>
      if endsInNumber ascii then
        match ipv4? ascii with
        | some ip => .ok (.ipv4 ip)
        | none => .error .invalidIpv4
      else .ok (.name (String.ofList ascii))

/-- The host of a URL of any other scheme: kept as it is, controls encoded. -/
def parseOther (cs : List Char) : Except HostError Host :=
  match cs with
  | '[' :: cs => bracketed cs
  | cs =>
    if cs.any fun c => "\x00\t\n\x0d #/:<>?@[\\]^|".toList.contains c then
      .error .invalidCharacter
    else .ok (.name (String.ofList (Percent.encode [] cs)))

example : (parse plainName? "0x7f.1".toList).toOption.map render = some "127.0.0.1" := by
  decide +kernel
example : (parse plainName? "A%42c".toList).toOption.map render = some "abc" := by decide +kernel
example : (parse plainName? "1.2.3.256".toList).toOption = none := by decide +kernel
example : (parse plainName? "[0::1]".toList).toOption.map render = some "[::1]" := by decide +kernel

end Host

end ServiceHealth.Net
