import PeerFinder.Text.Numeral
import PeerFinder.Toml.Value

/-!
# Writing documents

A document is written as sections: a header, and one line for each key. Strings take the plainest
form that shows them without escapes: in double quotes; in single quotes; then the same over several
lines; and with escapes only where nothing else is possible. Lists of more than one string take a
line for each.
-/

namespace PeerFinder.Toml

/-- A value as sections hold them. -/
inductive Field where
  | text (characters : List Char)
  | texts (elements : List (List Char))
  | integer (number : Nat)
  | boolean (flag : Bool)

/-- A header with its keys and values. -/
structure Section where
  name : List Char
  fields : List (Key × Field)

/-- The length of the longest run of a character, the run at the head being `current` longer than
it shows. -/
def longestRun (wanted : Char) (current : Nat) : List Char → Nat
  | [] => current
  | character :: rest =>
      if character = wanted then longestRun wanted (current + 1) rest
      else max current (longestRun wanted 0 rest)

/-- Whether a character can be shown in a string only by an escape: a control character other than
tab and line feed. -/
def needsEscape (character : Char) : Bool :=
  let code := character.toNat
  (code ≤ 0x1F && character != '\t' && character != '\n') || code == 0x7F

/-- The forms of a string. -/
inductive StringForm where
  | basic
  | literal
  | multiBasic
  | multiLiteral
deriving DecidableEq, Repr

/-- The form in which a string is written. -/
def StringForm.of (characters : List Char) : StringForm :=
  let escapes := characters.any needsEscape
  let backslash := characters.contains '\\'
  let breaks := characters.contains '\n'
  let double := longestRun '"' 0 characters
  let single := longestRun '\'' 0 characters
  if !escapes && !backslash && double == 0 && !breaks then .basic
  else if !escapes && single == 0 && !breaks then .literal
  else if !escapes && !backslash && double ≤ 2 then .multiBasic
  else if !escapes && single ≤ 2 then .multiLiteral
  else if breaks then .multiBasic
  else .basic

/-- The escape of a character by its code in four upper-case digits. -/
def codeEscape (character : Char) : List Char :=
  let digits := (Text.Numeral.ofNat 16 character.toNat).map Char.toUpper
  ['\\', 'u'] ++ List.replicate (4 - digits.length) '0' ++ digits

/-- The characters of a string with escapes. A quote is escaped when `allowed` quotes stand directly
before it unescaped, of which `quotes` do so at the head. -/
def escaped (multiline : Bool) (allowed : Nat) (quotes : Nat) : List Char → List Char
  | [] => []
  | character :: rest =>
      if character = '"' then
        if quotes < allowed then '"' :: escaped multiline allowed (quotes + 1) rest
        else ['\\', '"'] ++ escaped multiline allowed 0 rest
      else
        let written :=
          match character with
          | '\x08' => ['\\', 'b']
          | '\t' => ['\\', 't']
          | '\n' => if multiline then ['\n'] else ['\\', 'n']
          | '\x0c' => ['\\', 'f']
          | '\r' => ['\\', 'r']
          | '\\' => ['\\', '\\']
          | other => if needsEscape other then codeEscape other else [other]
        written ++ escaped multiline allowed 0 rest

/-- The written form of a string. A string with line breaks begins on a line of its own. -/
def renderText (characters : List Char) : List Char :=
  let lead := if characters.contains '\n' then ['\n'] else []
  match StringForm.of characters with
  | .basic => ['"'] ++ escaped false 0 0 characters ++ ['"']
  | .literal => ['\''] ++ characters ++ ['\'']
  | .multiBasic => ['"', '"', '"'] ++ lead ++ escaped true 2 0 characters ++ ['"', '"', '"']
  | .multiLiteral => ['\'', '\'', '\''] ++ lead ++ characters ++ ['\'', '\'', '\'']

/-- The written form of a list of strings. -/
def renderTexts : List (List Char) → List Char
  | [] => ['[', ']']
  | [element] => ['['] ++ renderText element ++ [']']
  | elements =>
      ['[', '\n'] ++ elements.flatMap renderElement ++ [']']
where
  /-- The line of one string among several. -/
  renderElement (element : List Char) : List Char :=
    "    ".toList ++ renderText element ++ [',', '\n']

/-- The written form of a value. Integers have 64 bits with a sign. -/
def Field.render? : Field → Option (List Char)
  | .text characters => some (renderText characters)
  | .texts elements => some (renderTexts elements)
  | .integer number => if number < Nat.pow 2 63 then some (Text.Numeral.ofNat 10 number) else none
  | .boolean flag => some (if flag then "true".toList else "false".toList)

/-- The written lines of keys and values. -/
def renderFields? : List (Key × Field) → Option (List Char)
  | [] => some []
  | (key, field) :: rest => do
      let value ← field.render?
      let lines ← renderFields? rest
      some (key ++ " = ".toList ++ value ++ ['\n'] ++ lines)

/-- The written form of a section. -/
def Section.render? (part : Section) : Option (List Char) := do
  let lines ← renderFields? part.fields
  some (['['] ++ part.name ++ [']', '\n'] ++ lines)

/-- The written form of a document: its sections with an empty line between neighbours. -/
def render? : List Section → Option (List Char)
  | [] => some []
  | [part] => part.render?
  | part :: others => do
      let text ← part.render?
      let rest ← render? others
      some (text ++ ['\n'] ++ rest)

end PeerFinder.Toml
