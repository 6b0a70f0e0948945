import Tether.Bytes
import Tether.Text.Integer

/-!
# Internet addresses

Addresses of both families and their written forms. A version 4 address is written as four
decimal numbers; a version 6 address as eight hexadecimal groups, of which the longest run
of at least two zeros (the first of equally long ones) becomes `::`, except that an
address that stands for a version 4 one ends in that address.

Reading is strict: no leading zeros in a decimal part, at most four digits in a group, and
`::` stands for at least one group.
-/

namespace Tether.Net

/-- A version 4 address. -/
structure Ipv4Address where
  value : BitVec 32
  deriving DecidableEq, Repr

/-- A version 6 address. -/
structure Ipv6Address where
  value : BitVec 128
  deriving DecidableEq, Repr

/-- An address of either family. -/
inductive IpAddress where
  | v4 (address : Ipv4Address)
  | v6 (address : Ipv6Address)
  deriving DecidableEq, Repr

/-- An address and a port; a version 6 one may name a zone. -/
inductive SocketAddress where
  | v4 (address : Ipv4Address) (port : UInt16)
  | v6 (address : Ipv6Address) (zone : UInt32) (port : UInt16)
  deriving DecidableEq, Repr

namespace Ipv4Address

/-- The four bytes of an address. -/
def toBytes (a : Ipv4Address) : Bytes :=
  Bytes.ofNatBE 4 a.value.toNat

/-- The address with these four bytes. -/
def ofBytes (bs : Bytes) : Ipv4Address :=
  ⟨BitVec.ofNat 32 (Bytes.toNatBE bs)⟩

/-- Four decimal numbers. -/
def text (a : Ipv4Address) : String :=
  ".".intercalate (a.toBytes.map fun b => toString b.toNat)

end Ipv4Address

namespace Ipv6Address

/-- The sixteen bytes of an address. -/
def toBytes (a : Ipv6Address) : Bytes :=
  Bytes.ofNatBE 16 a.value.toNat

/-- The address with these sixteen bytes. -/
def ofBytes (bs : Bytes) : Ipv6Address :=
  ⟨BitVec.ofNat 128 (Bytes.toNatBE bs)⟩

/-- The eight groups of an address, the most significant first. -/
def groups (a : Ipv6Address) : List Nat :=
  (List.range 8).map fun i => a.value.toNat / 65536 ^ (7 - i) % 65536

/-- The address with these eight groups. -/
def ofGroups (groups : List Nat) : Ipv6Address :=
  ⟨BitVec.ofNat 128 (groups.foldl (fun n g => 65536 * n + g) 0)⟩

/-- The version 4 address that this one stands for. -/
def mapped? (a : Ipv6Address) : Option Ipv4Address :=
  if a.value.toNat / 2 ^ 32 = 0xffff then some ⟨BitVec.ofNat 32 a.value.toNat⟩ else none

/-- How many zeros a list starts with. -/
def zeroRun (groups : List Nat) : Nat :=
  (groups.takeWhile (· = 0)).length

/-- Where the longest run of zeros starts, the first of equally long ones, and its length. -/
def longestZeroRun (groups : List Nat) : Nat × Nat :=
  (List.range groups.length).foldl
    (fun best i =>
      let n := zeroRun (groups.drop i)
      if n > best.2 then (i, n) else best)
    (0, 0)

/-- A group in hexadecimal, without leading zeros. -/
def groupText (g : Nat) : String :=
  let digits := (Text.hexDigits false 4 g).dropWhile (· = '0')
  if digits.isEmpty then "0" else String.ofList digits

/-- Groups with colons between them. -/
def groupsText (groups : List Nat) : String :=
  ":".intercalate (groups.map groupText)

/-- The written form. -/
def text (a : Ipv6Address) : String :=
  match a.mapped? with
  | some v4 => "::ffff:" ++ v4.text
  | none =>
    let groups := a.groups
    let (start, length) := longestZeroRun groups
    if length > 1 then
      groupsText (groups.take start) ++ "::" ++ groupsText (groups.drop (start + length))
    else groupsText groups

end Ipv6Address

/-- The written form of an address. -/
def IpAddress.text : IpAddress → String
  | .v4 a => a.text
  | .v6 a => a.text

/-- The written form of an address with its port. -/
def SocketAddress.text : SocketAddress → String
  | .v4 a port => a.text ++ ":" ++ toString port.toNat
  | .v6 a zone port =>
    "[" ++ a.text ++ (if zone = 0 then "" else "%" ++ toString zone.toNat) ++ "]:" ++
      toString port.toNat

/-! ### Reading -/

/-- What a reader makes of the characters in front of it: a value and the rest, if it can. -/
abbrev Scan (α : Type) := List Char → Option (α × List Char)

namespace Scan

/-- Takes one given character. -/
def char (c : Char) : Scan Unit
  | d :: rest => if c = d then some ((), rest) else none
  | [] => none

/-- Takes all digits in front, at least one and at most `limit` (if there is a limit). Unless
`zeros` are allowed, a number of several digits does not start with one. -/
def number (base : Nat) (digit? : Char → Option Nat) (limit : Option Nat) (zeros : Bool) :
    Scan Nat := fun cs =>
  let digits := cs.takeWhile fun c => (digit? c).isSome
  if digits.isEmpty then none
  else if limit.any (· < digits.length) then none
  else if !zeros && digits.length > 1 && digits.head? == some '0' then none
  else (Text.digits? base digit? digits).map fun n => (n, cs.drop digits.length)

/-- Takes a decimal number below `bound`, with any number of digits. -/
def decimalBelow (bound : Nat) : Scan Nat := fun cs =>
  (number 10 Text.digitValue? none true cs).filter fun (n, _) => n < bound

/-- One part of a version 4 address. -/
def part : Scan Nat := fun cs =>
  (number 10 Text.digitValue? (some 3) false cs).filter fun (n, _) => n < 256

/-- A version 4 address. -/
def ipv4 : Scan Ipv4Address := fun cs => do
  let (a, cs) ← part cs
  let ((), cs) ← char '.' cs
  let (b, cs) ← part cs
  let ((), cs) ← char '.' cs
  let (c, cs) ← part cs
  let ((), cs) ← char '.' cs
  let (d, cs) ← part cs
  some (⟨BitVec.ofNat 32 (((a * 256 + b) * 256 + c) * 256 + d)⟩, cs)

/-- A colon, unless this is the first group. -/
def separator (first : Bool) : Scan Unit := fun cs =>
  if first then some ((), cs) else char ':' cs

/-- Takes groups, at most `limit`, as long as they come; a version 4 address counts as two
groups and ends them. Says whether one did. -/
def groups (limit : Nat) (first : Bool) (cs : List Char) : List Nat × Bool × List Char :=
  match limit with
  | 0 => ([], false, cs)
  | limit + 1 =>
    match (if limit = 0 then none else (separator first cs).bind fun ((), cs) => ipv4 cs) with
    | some (a, cs) => ([a.value.toNat / 65536, a.value.toNat % 65536], true, cs)
    | none =>
      match (separator first cs).bind fun ((), cs) => number 16 Text.hexValue? (some 4) true cs with
      | none => ([], false, cs)
      | some (g, cs) =>
        let (gs, embedded, cs) := groups limit false cs
        (g :: gs, embedded, cs)

/-- A version 6 address. -/
def ipv6 : Scan Ipv6Address := fun cs => do
  let (front, embedded, cs) := groups 8 true cs
  if front.length = 8 then some (Ipv6Address.ofGroups front, cs)
  else if embedded then none
  else
    let ((), cs) ← char ':' cs
    let ((), cs) ← char ':' cs
    let (back, _, cs) := groups (7 - front.length) true cs
    let zeros := List.replicate (8 - front.length - back.length) 0
    some (Ipv6Address.ofGroups (front ++ zeros ++ back), cs)

/-- A port. -/
def port : Scan UInt16 := fun cs => do
  let ((), cs) ← char ':' cs
  let (n, cs) ← decimalBelow 65536 cs
  some (UInt16.ofNat n, cs)

/-- A zone, if one is named. -/
def zone : Scan UInt32
  | '%' :: cs => (decimalBelow (2 ^ 32) cs).map fun (n, cs) => (UInt32.ofNat n, cs)
  | cs => some (0, cs)

/-- The value if nothing is left. -/
def complete {α : Type} (scan : Scan α) (s : String) : Option α :=
  match scan s.toList with
  | some (a, []) => some a
  | _ => none

end Scan

/-- Reads an address of either family. -/
def IpAddress.ofString? (s : String) : Option IpAddress :=
  match Scan.complete Scan.ipv4 s with
  | some a => some (.v4 a)
  | none => (Scan.complete Scan.ipv6 s).map .v6

/-- Reads an address with a port: `1.2.3.4:5`, `[::1]:5` or `[::1%2]:5`. -/
def SocketAddress.ofString? (s : String) : Option SocketAddress :=
  let v4 : Scan SocketAddress := fun cs => do
    let (a, cs) ← Scan.ipv4 cs
    let (port, cs) ← Scan.port cs
    some (.v4 a port, cs)
  let v6 : Scan SocketAddress := fun cs => do
    let ((), cs) ← Scan.char '[' cs
    let (a, cs) ← Scan.ipv6 cs
    let (zone, cs) ← Scan.zone cs
    let ((), cs) ← Scan.char ']' cs
    let (port, cs) ← Scan.port cs
    some (.v6 a zone port, cs)
  match Scan.complete v4 s with
  | some a => some a
  | none => Scan.complete v6 s

end Tether.Net
