import PeerFinder.Address.Basic
import PeerFinder.Text.Numeral

/-!
# Reading addresses

`Address.parse?` reads the written form of an address and nothing else. Octets have no leading
zeros and at most three digits, groups at most four digits of either case; a double colon stands
for at least one zero group, and the last two groups may be written as a version 4 address. Ports
and scopes may have leading zeros. Each reader answers what it read and the text after it.
-/

namespace PeerFinder

namespace Text.Reader

/-- Read one given character. -/
def exactly (expected : Char) : List Char → Option (List Char)
  | [] => none
  | character :: rest => if character = expected then some rest else none

/-- Read a number of at least one digit that is at most `largest`. -/
def number (base largest : Nat) (text : List Char) : Option (Nat × List Char) :=
  let (digits, rest) := Numeral.span base text
  let value := Numeral.value base digits
  if digits ≠ [] ∧ value ≤ largest then some (value, rest) else none

/-- Read a number whose digits are at most `length`. -/
def shortNumber (base largest length : Nat) (text : List Char) : Option (Nat × List Char) :=
  if (Numeral.span base text).1.length ≤ length then number base largest text else none

end Text.Reader

open Text.Reader

/-- Read an octet of a version 4 address. -/
def Ipv4.readOctet (text : List Char) : Option (UInt8 × List Char) :=
  match text with
  | '0' :: next :: rest =>
      if (Text.Numeral.digit? 10 next).isSome then none else some (0, next :: rest)
  | _ => (shortNumber 10 255 3 text).map fun (value, rest) => (UInt8.ofNat value, rest)

/-- Read a version 4 address. -/
def Ipv4.read (text : List Char) : Option (Ipv4 × List Char) := do
  let (a, text) ← readOctet text
  let (b, text) ← readOctet (← exactly '.' text)
  let (c, text) ← readOctet (← exactly '.' text)
  let (d, text) ← readOctet (← exactly '.' text)
  some (⟨a, b, c, d⟩, text)

namespace Ipv6

/-- Read a group. -/
def readGroup (text : List Char) : Option (UInt16 × List Char) :=
  (shortNumber 16 0xffff 4 text).map fun (value, rest) => (UInt16.ofNat value, rest)

/-- Groups read from a text, whether the last two came from a version 4 address, and the rest. -/
structure GroupRun where
  groups : List UInt16
  embedded : Bool
  rest : List Char

/-- Read at most `slots` groups with colons between them. A version 4 address stands for two
groups and ends the run. -/
def readGroups : (slots : Nat) → (isFirst : Bool) → List Char → GroupRun
  | 0, _, text => ⟨[], false, text⟩
  | slots + 1, isFirst, text =>
      let start := if isFirst then some text else exactly ':' text
      let embedded := if 0 < slots then start.bind Ipv4.read else none
      match embedded with
      | some (ip, rest) =>
          ⟨[groupOfOctets ip.a ip.b, groupOfOctets ip.c ip.d], true, rest⟩
      | none =>
        match start.bind readGroup with
        | some (group, rest) =>
            let run := readGroups slots false rest
            ⟨group :: run.groups, run.embedded, run.rest⟩
        | none => ⟨[], false, text⟩

/-- Read a version 6 address. -/
def read (text : List Char) : Option (Ipv6 × List Char) := do
  let head := readGroups 8 true text
  if head.groups.length = 8 then
    return (← ofGroups? head.groups, head.rest)
  if head.embedded then none
  let rest ← exactly ':' (← exactly ':' head.rest)
  let tail := readGroups (7 - head.groups.length) true rest
  let zeros := List.replicate (8 - head.groups.length - tail.groups.length) 0
  return (← ofGroups? (head.groups ++ zeros ++ tail.groups), tail.rest)

end Ipv6

namespace Address

/-- Read a colon and a port. -/
def readPort (text : List Char) : Option (UInt16 × List Char) := do
  let (port, rest) ← number 10 65535 (← exactly ':' text)
  some (UInt16.ofNat port, rest)

/-- Read a version 4 address with its port. -/
def readV4 (text : List Char) : Option (Address × List Char) := do
  let (ip, text) ← Ipv4.read text
  let (port, text) ← readPort text
  some (.v4 ip port, text)

/-- Read a percent sign and a scope. Where there is none, the scope is zero and nothing is read. -/
def readScope (text : List Char) : UInt32 × List Char :=
  match (exactly '%' text).bind (number 10 4294967295) with
  | some (scope, rest) => (UInt32.ofNat scope, rest)
  | none => (0, text)

/-- Read a version 6 address in brackets with its port. -/
def readV6 (text : List Char) : Option (Address × List Char) := do
  let (ip, text) ← Ipv6.read (← exactly '[' text)
  let (scope, text) := readScope text
  let (port, text) ← readPort (← exactly ']' text)
  some (.v6 ip port 0 scope, text)

/-- The address that a whole text stands for. -/
def parse? (text : List Char) : Option Address :=
  match (readV4 text).orElse fun _ => readV6 text with
  | some (address, []) => some address
  | _ => none

end Address

end PeerFinder
