import PeerFinder.Toml.Lexical

/-!
# Numbers and points in time

Integers in four bases, fractional numbers, and points in time. A text that has begun like a point
in time and goes on otherwise is refused, not read as a number.
-/

namespace PeerFinder.Toml

/-- Read the digits after a first one, with single underscores allowed between digits. -/
def readMoreDigits (base : Nat) : Reader (List Nat)
  | [] => some ([], [])
  | '_' :: [] => none
  | '_' :: character :: rest => do
      let digit ← Text.Numeral.digit? base character
      let (digits, rest) ← readMoreDigits base rest
      some (digit :: digits, rest)
  | character :: rest =>
      match Text.Numeral.digit? base character with
      | none => some ([], character :: rest)
      | some digit => do
          let (digits, rest) ← readMoreDigits base rest
          some (digit :: digits, rest)

/-- Read at least one digit, with single underscores allowed between digits. -/
def readDigits (base : Nat) : Reader (List Nat)
  | [] => none
  | character :: rest => do
      let digit ← Text.Numeral.digit? base character
      let (digits, rest) ← readMoreDigits base rest
      some (digit :: digits, rest)

/-- Read the digits of a decimal integer, which has no leading zeros. -/
def readDecimal : Reader (List Nat)
  | '0' :: rest => some ([0], rest)
  | text => readDigits 10 text

/-- Whether a text begins with a minus sign, and the text after a sign of either kind. -/
def splitSign : List Char → Bool × List Char
  | '-' :: rest => (true, rest)
  | '+' :: rest => (false, rest)
  | rest => (false, rest)

/-- The outcome of a reader that can refuse a text for good. -/
inductive Attempt where
  /-- It read a part; these are the characters after it. -/
  | found (rest : List Char)
  /-- The text does not begin like such a part. -/
  | absent
  /-- The text begins like such a part and is none. -/
  | broken
deriving DecidableEq, Repr

/-- Read exactly `count` digits of a number from `least` to `greatest`. -/
def readField (count least greatest : Nat) (text : List Char) : Option (Nat × List Char) := do
  let field := text.take count
  let values ← field.mapM (Text.Numeral.digit? 10)
  let value := Text.Numeral.value 10 values
  if field.length = count ∧ least ≤ value ∧ value ≤ greatest then some (value, text.drop count)
  else none

/-- Read a given character. -/
def readChar (expected : Char) : List Char → Option (List Char)
  | [] => none
  | character :: rest => if character = expected then some rest else none

/-- Read fractions of a second, if there are any. -/
def readSecondFraction (text : List Char) : List Char :=
  match text with
  | '.' :: rest =>
      match (Text.Numeral.span 10 rest) with
      | ([], _) => text
      | (_, after) => after
  | _ => text

/-- Read a time of day. An hour and a colon commit to it. -/
def attemptTime (text : List Char) : Attempt :=
  match readField 2 0 23 text with
  | some (_, ':' :: rest) =>
      let seconds? := do
        let (_, rest) ← readField 2 0 59 rest
        let (_, rest) ← readField 2 0 60 (← readChar ':' rest)
        some (readSecondFraction rest)
      match seconds? with
      | some rest => .found rest
      | none => .broken
  | _ => .absent

/-- Read the distance from universal time, if there is one. -/
def attemptOffset : List Char → Attempt
  | 'Z' :: rest => .found rest
  | 'z' :: rest => .found rest
  | sign :: rest =>
      if sign = '+' ∨ sign = '-' then
        let minutes? := do
          let (_, rest) ← readField 2 0 23 rest
          let (_, rest) ← readField 2 0 59 (← readChar ':' rest)
          some rest
        match minutes? with
        | some rest => .found rest
        | none => .broken
      else .absent
  | [] => .absent

/-- The number of days of a month. -/
def daysInMonth (year month : Nat) : Nat :=
  if month = 2 then
    if year % 4 = 0 ∧ (year % 100 ≠ 0 ∨ year % 400 = 0) then 29 else 28
  else if month = 4 ∨ month = 6 ∨ month = 9 ∨ month = 11 then 30
  else 31

/-- Read a date. A year and a hyphen commit to it. -/
def attemptDate (text : List Char) : Attempt :=
  match readField 4 0 9999 text with
  | some (year, '-' :: rest) =>
      let day? := do
        let (month, rest) ← readField 2 1 12 rest
        let (_, rest) ← readField 2 1 (daysInMonth year month) (← readChar '-' rest)
        some rest
      match day? with
      | some rest => .found rest
      | none => .broken
  | _ => .absent

/-- Read the time of day and the offset that may follow a date. -/
def attemptTimeOfDate (text : List Char) : Attempt :=
  match text with
  | delimiter :: rest =>
      if delimiter = 'T' ∨ delimiter = 't' ∨ delimiter = ' ' then
        match attemptTime rest with
        | .absent => .found text
        | .broken => .broken
        | .found rest =>
          match attemptOffset rest with
          | .absent => .found rest
          | outcome => outcome
      else .found text
  | [] => .found text

/-- Read a point in time: a date, a date with a time of day, or a time of day alone. -/
def attemptMoment (text : List Char) : Attempt :=
  match attemptDate text with
  | .broken => .broken
  | .found rest => attemptTimeOfDate rest
  | .absent => attemptTime text

/-- Read an exponent after its letter. -/
def readExponent (text : List Char) : Option (Int × List Char) := do
  let (negative, rest) := splitSign text
  let (digits, rest) ← readDigits 10 rest
  let value := Text.Numeral.value 10 digits
  some (if negative then -(value : Int) else value, rest)

/-- Whether a letter begins an exponent. -/
def isExponentLetter (character : Char) : Bool :=
  character == 'e' || character == 'E'

/-- Whether `digits` times the power of ten is too large for a number of double precision, rounded
to nearest. -/
def overflowsDouble (digits : List Nat) (exponent : Int) : Bool :=
  let significant := digits.dropWhile (· == 0)
  let magnitude : Int := significant.length + exponent
  if significant.isEmpty || magnitude < 300 then false
  else if 320 < magnitude then true
  else
    let value := Text.Numeral.value 10 significant
    let limit := Nat.pow 2 1024 - Nat.pow 2 970
    if 0 ≤ exponent then limit ≤ value * Nat.pow 10 exponent.toNat
    else limit * Nat.pow 10 (-exponent).toNat ≤ value

/-- The outcome of a fractional number with these digits, of which `places` stand after the
point. -/
def finishFraction (negative : Bool) (digits : List Nat) (places : Nat) (exponent : Int)
    (rest : List Char) : Attempt :=
  if !negative && overflowsDouble digits (exponent - places) then .broken else .found rest

/-- Read a fractional number other than infinity and the undefined number. -/
def attemptFraction (text : List Char) : Attempt :=
  let (negative, unsigned) := splitSign text
  match readDecimal unsigned with
  | none => .absent
  | some (whole, '.' :: rest) =>
      match readDigits 10 rest with
      | none => .broken
      | some (decimals, next :: after) =>
          if isExponentLetter next then
            match readExponent after with
            | none => .broken
            | some (exponent, rest) =>
                finishFraction negative (whole ++ decimals) decimals.length exponent rest
          else finishFraction negative (whole ++ decimals) decimals.length 0 (next :: after)
      | some (decimals, []) =>
          finishFraction negative (whole ++ decimals) decimals.length 0 []
  | some (whole, next :: rest) =>
      if isExponentLetter next then
        match readExponent rest with
        | none => .broken
        | some (exponent, rest) => finishFraction negative whole 0 exponent rest
      else .absent
  | some (_, []) => .absent

/-- Read infinity or the undefined number. -/
def readSpecial (text : List Char) : Option (List Char) :=
  match (splitSign text).2 with
  | 'i' :: 'n' :: 'f' :: rest => some rest
  | 'n' :: 'a' :: 'n' :: rest => some rest
  | _ => none

/-- The integer of digits in a base, if it fits 64 bits with a sign. -/
def integerOfDigits? (negative : Bool) (base : Nat) (digits : List Nat) : Option Int :=
  let value := Text.Numeral.value base digits
  if negative then if value ≤ Nat.pow 2 63 then some (-(value : Int)) else none
  else if value < Nat.pow 2 63 then some value else none

/-- Read an integer. -/
def readInteger : Reader Int
  | '0' :: 'x' :: rest => inBase 16 rest
  | '0' :: 'o' :: rest => inBase 8 rest
  | '0' :: 'b' :: rest => inBase 2 rest
  | text => do
      let (negative, unsigned) := splitSign text
      let (digits, rest) ← readDecimal unsigned
      some (← integerOfDigits? negative 10 digits, rest)
where
  /-- Read the digits after the letter of a base. -/
  inBase (base : Nat) : Reader Int := fun text => do
    let (digits, rest) ← readDigits base text
    some (← integerOfDigits? false base digits, rest)

/-- The characters between the beginning of a text and a rest of it. -/
def spelling (text rest : List Char) : List Char :=
  text.take (text.length - rest.length)

/-- Read a value that begins with a sign or a digit. -/
def readNumeric : Reader Value := fun text =>
  match attemptMoment text with
  | .broken => none
  | .found rest => some (.moment (spelling text rest), rest)
  | .absent =>
    match attemptFraction text with
    | .broken => none
    | .found rest => some (.fraction (spelling text rest), rest)
    | .absent =>
      match readSpecial text with
      | some rest => some (.fraction (spelling text rest), rest)
      | none => (readInteger text).map fun (number, rest) => (.integer number, rest)

end PeerFinder.Toml
