/-!
# Numerals

Digits and numerals in a base of at most sixteen. `Numeral.ofNat` writes a number with lower-case
digits and no leading zeros, `Numeral.digit?` reads one digit in either case, and
`Numeral.value` reads a sequence of digit values.
-/

namespace PeerFinder.Text.Numeral

/-- The characters of `number` in the given base, most significant first. -/
def ofNat (base number : Nat) : List Char :=
  Nat.toDigits base number

/-- The value of a digit character in either case, if it is a digit of the base. -/
def digit? (base : Nat) (character : Char) : Option Nat :=
  let value? :=
    if '0' ≤ character ∧ character ≤ '9' then some (character.toNat - '0'.toNat)
    else if 'a' ≤ character ∧ character ≤ 'z' then some (character.toNat - 'a'.toNat + 10)
    else if 'A' ≤ character ∧ character ≤ 'Z' then some (character.toNat - 'A'.toNat + 10)
    else none
  value?.filter (· < base)

/-- The number that a sequence of digit values stands for, most significant first. -/
def value (base : Nat) (digits : List Nat) : Nat :=
  digits.foldl (fun total digit => total * base + digit) 0

/-- The longest run of digits at the head of a text, as digit values, and the text after it. -/
def span (base : Nat) : List Char → List Nat × List Char
  | [] => ([], [])
  | character :: rest =>
      match digit? base character with
      | some digit =>
          let (digits, remaining) := span base rest
          (digit :: digits, remaining)
      | none => ([], character :: rest)

/-- The number written by a whole text of at least one digit. -/
def toNat? (base : Nat) (text : List Char) : Option Nat :=
  match span base text with
  | ([], _) => none
  | (digits, []) => some (value base digits)
  | (_, _ :: _) => none

end PeerFinder.Text.Numeral
