import ServiceHealth.Number.Radix

/-!
# Socket addresses

An address of version 4 is four octets, one of version 6 eight groups of 16 bits with a
numeric scope. The text of an address is strict when read: octets have no zeros in front, a
group has at most four hexadecimal digits, the port is a decimal number below `2 ^ 16`.

## Main definitions

* `Ipv4`, `Ipv6`, `SocketAddress` — addresses.
* `SocketAddress.render` — the canonical text: the first longest run of two or more zero
  groups is left out, and an address that embeds one of version 4 ends with its octets.
* `SocketAddress.parse?` — the address that a text denotes.
-/

namespace ServiceHealth.Net

open Number

/-- An address of version 4. -/
structure Ipv4 where
  a : UInt8
  b : UInt8
  c : UInt8
  d : UInt8
  deriving DecidableEq, Repr, Inhabited

/-- An address of version 6: its eight groups. -/
structure Ipv6 where
  groups : List UInt16
  length_eq : groups.length = 8 := by decide
  deriving DecidableEq, Repr

/-- An address and a port; one of version 6 has a scope, zero for none. -/
inductive SocketAddress
  | v4 (ip : Ipv4) (port : UInt16)
  | v6 (ip : Ipv6) (scope : UInt32) (port : UInt16)
  deriving DecidableEq, Repr

/-! ### Writing -/

/-- The decimal digits of a number. -/
def decimal (n : Nat) : List Char := Nat.toDigits 10 n

/-- The lower-case hexadecimal digits of a number. -/
def hexadecimal (n : Nat) : List Char := Nat.toDigits 16 n

/-- The octets with points between them. -/
def Ipv4.toChars (ip : Ipv4) : List Char :=
  decimal ip.a.toNat ++ '.' :: decimal ip.b.toNat ++ '.' :: decimal ip.c.toNat ++
    '.' :: decimal ip.d.toNat

/-- The start and the length of the first longest run of zeros, searched from position `i`,
with the best run so far. -/
def longestZeros : (i : Nat) → (run : Nat) → (best : Nat × Nat) → List UInt16 → Nat × Nat
  | _, _, best, [] => best
  | i, run, best, g :: gs =>
    if g = 0 then
      let run := run + 1
      longestZeros (i + 1) run (if best.2 < run then (i + 1 - run, run) else best) gs
    else longestZeros (i + 1) 0 best gs

/-- Groups with colons between them. -/
def groupsToChars (gs : List UInt16) : List Char :=
  [':'].intercalate (gs.map fun g => hexadecimal g.toNat)

/-- The groups, the first longest run of at least two zeros left out. -/
def compressed (gs : List UInt16) : List Char :=
  let (start, length) := longestZeros 0 0 (0, 0) gs
  if 1 < length then
    groupsToChars (gs.take start) ++ ':' :: ':' :: groupsToChars (gs.drop (start + length))
  else groupsToChars gs

/-- The groups, or the octets of an embedded address of version 4. -/
def Ipv6.toChars (ip : Ipv6) : List Char :=
  match ip.groups with
  | [0, 0, 0, 0, 0, 0xffff, g, h] =>
    "::ffff:".toList ++ Ipv4.toChars ⟨(g >>> 8).toUInt8, g.toUInt8, (h >>> 8).toUInt8, h.toUInt8⟩
  | gs => compressed gs

namespace SocketAddress

/-- The canonical text of an address. -/
def render : SocketAddress → String
  | v4 ip port => String.ofList (ip.toChars ++ ':' :: decimal port.toNat)
  | v6 ip scope port =>
    let zone := if scope = 0 then [] else '%' :: decimal scope.toNat
    String.ofList ('[' :: ip.toChars ++ zone ++ ']' :: ':' :: decimal port.toNat)

end SocketAddress

/-! ### Reading -/

/-- The number at the front of a text, below a bound, with at most `width` digits, and with
zeros in front only where they are allowed. -/
def readNumber (base : Nat) (width : Option Nat) (zeros : Bool) (bound : Nat)
    (cs : List Char) : Option (Nat × List Char) := do
  let ds := cs.takeWhile fun c => (digitIn? base c).isSome
  guard (ds ≠ [] ∧ (∀ w ∈ width, ds.length ≤ w))
  guard (zeros ∨ ds.head? ≠ some '0' ∨ ds.length = 1)
  let n := (ds.filterMap (digitIn? base)).foldl (fun n d => n * base + d) 0
  guard (n < bound)
  return (n, cs.drop ds.length)

/-- The rest of a text after one character. -/
def expect (c : Char) : List Char → Option (List Char)
  | d :: cs => if d = c then some cs else none
  | [] => none

/-- One octet. -/
def readOctet (cs : List Char) : Option (UInt8 × List Char) :=
  (readNumber 10 (some 3) false 256 cs).map fun r => (r.1.toUInt8, r.2)

/-- Four octets with points between them. -/
def readIpv4 (cs : List Char) : Option (Ipv4 × List Char) := do
  let (a, cs) ← readOctet cs
  let (b, cs) ← readOctet (← expect '.' cs)
  let (c, cs) ← readOctet (← expect '.' cs)
  let (d, cs) ← readOctet (← expect '.' cs)
  return (⟨a, b, c, d⟩, cs)

/-- The groups at the front of a text, at most `limit` of them, with colons between them;
an address of version 4 may stand for the last two. The second component says whether one
did. -/
def readGroups : (limit : Nat) → (first : Bool) → List Char → List UInt16 × Bool × List Char
  | 0, _, cs => ([], false, cs)
  | limit + 1, first, cs =>
    let next := if first then some cs else expect ':' cs
    match (if 0 < limit then next.bind readIpv4 else none) with
    | some (ip, rest) =>
      ([ip.a.toUInt16 <<< 8 ||| ip.b.toUInt16, ip.c.toUInt16 <<< 8 ||| ip.d.toUInt16], true, rest)
    | none =>
      match next.bind (readNumber 16 (some 4) true 65536) with
      | none => ([], false, cs)
      | some (g, rest) =>
        let (gs, embedded, rest) := readGroups limit false rest
        (g.toUInt16 :: gs, embedded, rest)

/-- Eight groups, or fewer around a double colon that stands for at least one zero group. -/
def readIpv6 (cs : List Char) : Option (Ipv6 × List Char) :=
  let (front, embedded, rest) := readGroups 8 true cs
  if h : front.length = 8 then some (⟨front, h⟩, rest)
  else if embedded then none
  else do
    let rest ← (expect ':' rest).bind (expect ':')
    let (back, _, rest) := readGroups (7 - front.length) true rest
    let groups := front ++ List.replicate (8 - front.length - back.length) 0 ++ back
    if h : groups.length = 8 then some (⟨groups, h⟩, rest) else none

/-- A colon and a port. -/
def readPort (cs : List Char) : Option (UInt16 × List Char) := do
  let (n, cs) ← readNumber 10 none true 65536 (← expect ':' cs)
  return (n.toUInt16, cs)

/-- A percent sign and a scope, or nothing. -/
def readScope (cs : List Char) : UInt32 × List Char :=
  match (expect '%' cs).bind (readNumber 10 none true UInt32.size) with
  | some (n, rest) => (n.toUInt32, rest)
  | none => (0, cs)

namespace SocketAddress

/-- The address of version 4 at the front of a text. -/
def readV4 (cs : List Char) : Option (SocketAddress × List Char) := do
  let (ip, cs) ← readIpv4 cs
  let (port, cs) ← readPort cs
  return (v4 ip port, cs)

/-- The address of version 6 at the front of a text. -/
def readV6 (cs : List Char) : Option (SocketAddress × List Char) := do
  let (ip, cs) ← readIpv6 (← expect '[' cs)
  let (scope, cs) := readScope cs
  let (port, cs) ← readPort (← expect ']' cs)
  return (v6 ip scope port, cs)

/-- The address that a text denotes. -/
def parse? (s : String) : Option SocketAddress :=
  match (readV4 s.toList).or (readV6 s.toList) with
  | some (address, []) => some address
  | _ => none

instance : Inhabited SocketAddress := ⟨v4 ⟨0, 0, 0, 0⟩ 0⟩

example : (parse? "[0:0:0:1::]:080").map render = some "[0:0:0:1::]:80" := by decide +kernel
example : (parse? "[::ffff:1.2.3.4]:1").map render = some "[::ffff:1.2.3.4]:1" := by
  decide +kernel
example : parse? "01.2.3.4:80" = none := by decide +kernel

end SocketAddress

end ServiceHealth.Net
