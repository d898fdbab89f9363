import PeerFinder.Text.Numeral
import PeerFinder.Toml.Value

/-!
# Blanks, comments, strings, and keys

The readers of the smallest parts of a document. A reader answers what it read and the characters
after it, or nothing if the text does not begin with such a part.
-/

namespace PeerFinder.Toml

/-- A reader answers what it read and the characters after it. -/
abbrev Reader (α : Type) := List Char → Option (α × List Char)

/-- Spaces and tabs. -/
def isBlank (character : Char) : Bool :=
  character == ' ' || character == '\t'

/-- Characters outside the seven-bit range. -/
def isWide (character : Char) : Bool :=
  0x80 ≤ character.toNat

/-- Characters that may stand in a comment, and for themselves in any kind of string: the tab and
all that are no control characters. Delimiters and backslashes are told apart by the readers. -/
def isTextChar (character : Char) : Bool :=
  character == '\t' || (0x20 ≤ character.toNat && character.toNat ≤ 0x7E) || isWide character

/-- Characters of keys without quotes. -/
def isBareKeyChar (character : Char) : Bool :=
  character.isAlphanum || character == '-' || character == '_'

/-- The text after the blanks at its head. -/
def skipBlanks (text : List Char) : List Char :=
  text.dropWhile isBlank

/-- Read a line break. -/
def readBreak : List Char → Option (List Char)
  | '\n' :: rest => some rest
  | '\r' :: '\n' :: rest => some rest
  | _ => none

/-- Read the end of a line after its last value: blanks, possibly a comment, and a line break or
the end of the text. -/
def readLineEnd (text : List Char) : Option (List Char) :=
  let afterComment :=
    match skipBlanks text with
    | '#' :: rest => rest.dropWhile isTextChar
    | rest => rest
  match afterComment with
  | [] => some []
  | rest => readBreak rest

/-- The text after blanks, line breaks, and comments at its head; `inComment` says that the text
begins inside a comment. -/
def skipLines (inComment : Bool) : List Char → List Char
  | [] => []
  | '\n' :: rest => skipLines false rest
  | '\r' :: '\n' :: rest => skipLines false rest
  | character :: rest =>
      if inComment then
        if isTextChar character then skipLines true rest else character :: rest
      else if isBlank character then skipLines false rest
      else if character = '#' then skipLines true rest
      else character :: rest

/-- The character with this code, if it is one. -/
def charOfCode? (code : Nat) : Option Char :=
  if code.isValidChar then some (Char.ofNat code) else none

/-- The character whose code is written by these hexadecimal digits. -/
def charOfHex? (digits : List Char) : Option Char := do
  let values ← digits.mapM (Text.Numeral.digit? 16)
  charOfCode? (Text.Numeral.value 16 values)

/-- The character that an escape of one letter stands for. -/
def shortEscape? : Char → Option Char
  | 'b' => some '\x08'
  | 't' => some '\t'
  | 'n' => some '\n'
  | 'f' => some '\x0c'
  | 'r' => some '\r'
  | '"' => some '"'
  | '\\' => some '\\'
  | _ => none

/-- Put a character in front of what a reader read. -/
def prepend (character : Char) (result : Option (List Char × List Char)) :
    Option (List Char × List Char) :=
  result.map fun (characters, rest) => (character :: characters, rest)

/-- Read the rest of a string of one line with escapes, after its opening quote. -/
def readBasic : Reader (List Char)
  | [] => none
  | '"' :: rest => some ([], rest)
  | '\\' :: 'u' :: a :: b :: c :: d :: rest => do
      prepend (← charOfHex? [a, b, c, d]) (readBasic rest)
  | '\\' :: 'U' :: a :: b :: c :: d :: e :: f :: g :: h :: rest => do
      prepend (← charOfHex? [a, b, c, d, e, f, g, h]) (readBasic rest)
  | '\\' :: letter :: rest => do
      prepend (← shortEscape? letter) (readBasic rest)
  | character :: rest =>
      if isTextChar character ∧ character ≠ '\\' then prepend character (readBasic rest)
      else none

/-- Read the rest of a string of one line without escapes, after its opening quote. -/
def readLiteral : Reader (List Char)
  | [] => none
  | '\'' :: rest => some ([], rest)
  | character :: rest =>
      if isTextChar character then prepend character (readLiteral rest) else none

/-- Up to two quotes that belong to a string of several lines although its closing quotes have
begun: they stand before the last three. -/
def closingQuotes (quote : Char) : List Char → List Char × List Char
  | a :: b :: rest =>
      if a = quote ∧ b = quote then ([quote, quote], rest)
      else if a = quote then ([quote], b :: rest)
      else ([], a :: b :: rest)
  | [a] => if a = quote then ([quote], []) else ([], [a])
  | [] => ([], [])

/-- How far a line that ends in a backslash has been joined to the next one. -/
inductive Joining where
  /-- No join is under way. -/
  | none
  /-- The backslash was read; its line must end here. -/
  | before
  /-- The line has ended; blanks and line breaks are dropped. -/
  | after
deriving DecidableEq, Repr

/-- Read the rest of a string of several lines with escapes, after its opening quotes. -/
def readMultiBasic (joining : Joining) : Reader (List Char)
  | [] => none
  | ' ' :: rest =>
      if joining = .none then prepend ' ' (readMultiBasic .none rest)
      else readMultiBasic joining rest
  | '\t' :: rest =>
      if joining = .none then prepend '\t' (readMultiBasic .none rest)
      else readMultiBasic joining rest
  | '\n' :: rest =>
      if joining = .none then prepend '\n' (readMultiBasic .none rest)
      else readMultiBasic .after rest
  | '\r' :: '\n' :: rest =>
      if joining = .none then prepend '\n' (readMultiBasic .none rest)
      else readMultiBasic .after rest
  | '"' :: '"' :: '"' :: rest =>
      if joining = .before then none else some (closingQuotes '"' rest)
  | '\\' :: 'u' :: a :: b :: c :: d :: rest => do
      if joining = .before then none
      prepend (← charOfHex? [a, b, c, d]) (readMultiBasic .none rest)
  | '\\' :: 'U' :: a :: b :: c :: d :: e :: f :: g :: h :: rest => do
      if joining = .before then none
      prepend (← charOfHex? [a, b, c, d, e, f, g, h]) (readMultiBasic .none rest)
  | '\\' :: ' ' :: rest => if joining = .before then none else readMultiBasic .before rest
  | '\\' :: '\t' :: rest => if joining = .before then none else readMultiBasic .before rest
  | '\\' :: '\n' :: rest => if joining = .before then none else readMultiBasic .after rest
  | '\\' :: '\r' :: '\n' :: rest => if joining = .before then none else readMultiBasic .after rest
  | '\\' :: letter :: rest => do
      if joining = .before then none
      prepend (← shortEscape? letter) (readMultiBasic .none rest)
  | character :: rest =>
      if isTextChar character ∧ character ≠ '\\' ∧ joining ≠ .before then
        prepend character (readMultiBasic .none rest)
      else none

/-- Read the rest of a string of several lines without escapes, after its opening quotes. -/
def readMultiLiteral : Reader (List Char)
  | [] => none
  | '\'' :: '\'' :: '\'' :: rest => some (closingQuotes '\'' rest)
  | '\n' :: rest => prepend '\n' (readMultiLiteral rest)
  | '\r' :: '\n' :: rest => prepend '\n' (readMultiLiteral rest)
  | character :: rest =>
      if isTextChar character then prepend character (readMultiLiteral rest) else none

/-- The text after a line break at its head, if there is one. -/
def skipBreak (text : List Char) : List Char :=
  (readBreak text).getD text

/-- Read a string of any kind. -/
def readString : Reader (List Char)
  | '"' :: '"' :: '"' :: rest => readMultiBasic .none (skipBreak rest)
  | '"' :: rest => readBasic rest
  | '\'' :: '\'' :: '\'' :: rest => readMultiLiteral (skipBreak rest)
  | '\'' :: rest => readLiteral rest
  | _ => none

/-- Read one part of a key. -/
def readSimpleKey : Reader Key
  | '"' :: rest => readBasic rest
  | '\'' :: rest => readLiteral rest
  | text =>
      match text.span isBareKeyChar with
      | ([], _) => none
      | (key, rest) => some (key, rest)

/-- The number of parts that a key must stay below. -/
def nestingLimit : Nat := 80

/-- Read at most `parts` parts of a key with dots and blanks between them. -/
def readKeyParts : (parts : Nat) → Reader (List Key)
  | 0, _ => none
  | parts + 1, text => do
      let (key, rest) ← readSimpleKey (skipBlanks text)
      match skipBlanks rest with
      | '.' :: rest => do
          let (keys, rest) ← readKeyParts parts rest
          some (key :: keys, rest)
      | rest => some ([key], rest)

/-- Read a key and the blanks around it. -/
def readKey : Reader (List Key) :=
  readKeyParts (nestingLimit - 1)

end PeerFinder.Toml
