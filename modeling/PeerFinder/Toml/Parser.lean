import PeerFinder.Toml.Number

/-!
# Reading documents

`Toml.parse?` reads a whole document: lines that give a key a value, headers that open a table, and
doubled headers that open one more table of a sequence. Arrays and inline tables nest to less than
`nestingLimit` levels.
-/

namespace PeerFinder.Toml

/-- Read a word and answer a value for it. -/
def readWord (word : String) (value : Value) : Reader Value := fun text =>
  if word.toList.isPrefixOf text then some (value, text.drop word.length) else none

/-- Read a value that has no parts. -/
def readScalar : Reader Value := fun text =>
  match text with
  | [] => none
  | first :: _ =>
      if first = '"' ∨ first = '\'' then
        (readString text).map fun (characters, rest) => (.text characters, rest)
      else if first = '+' ∨ first = '-' ∨ first.isDigit then readNumeric text
      else if first = 't' then readWord "true" (.boolean true) text
      else if first = 'f' then readWord "false" (.boolean false) text
      else (readSpecial text).map fun (rest) => (.fraction (spelling text rest), rest)

/-- Read the elements of an array up to its closing bracket, at most `count` of them. -/
def readElements (element : Reader Value) : (count : Nat) → Reader (List Value)
  | 0, _ => none
  | count + 1, text =>
      match skipLines false text with
      | ']' :: rest => some ([], rest)
      | text => do
          let (value, rest) ← element text
          match skipLines false rest with
          | ']' :: rest => some ([value], rest)
          | ',' :: rest => do
              let (values, rest) ← readElements element count rest
              some (value :: values, rest)
          | _ => none

/-- Read a key, an equals sign, and a value. -/
def readPair (value : Reader Value) : Reader (List Key × Value) := fun text => do
  let (key, rest) ← readKey text
  let rest ← readChar '=' rest
  let (held, rest) ← value (skipBlanks rest)
  some ((key, held), rest)

/-- The keys before the last one of a dotted key, and the last one. -/
def splitKey (keys : List Key) : List Key × Key :=
  (keys.dropLast, keys.getLastD [])

/-- Give the dotted key its value in a table. -/
def OpenTable.assignPair (pair : List Key × Value) (table : OpenTable) : Option OpenTable :=
  let (path, key) := splitKey pair.1
  table.assign path key pair.2

/-- Read the pairs of an inline table up to its closing brace, at most `count` of them. -/
def readPairs (value : Reader Value) : (count : Nat) → OpenTable → Reader OpenTable
  | 0, _, _ => none
  | count + 1, table, text => do
      let (pair, rest) ← readPair value text
      let table ← table.assignPair pair
      match skipBlanks rest with
      | '\x7d' :: rest => some (table, rest)
      | ',' :: rest => readPairs value count table rest
      | _ => none

/-- Read a value in which arrays and inline tables nest to at most `depth` levels. -/
def readValue : (depth : Nat) → Reader Value
  | 0 => readScalar
  | depth + 1 => fun text =>
      match text with
      | '[' :: rest => do
          let (values, rest) ← readElements (readValue depth) (rest.length + 1) rest
          some (.array values, rest)
      | '\x7b' :: rest =>
          match skipBlanks rest with
          | '\x7d' :: rest => some (.inlineTable [], rest)
          | rest => do
              let (table, rest) ←
                readPairs (readValue depth) (rest.length + 1) ⟨.header, []⟩ rest
              some (.inlineTable table.entries, rest)
      | text => readScalar text

/-- Read a value of a document. -/
def readDocumentValue : Reader Value :=
  readValue (nestingLimit - 1)

/-- A document that has been read in part: its tables, and the path of the one that lines extend. -/
structure Draft where
  root : OpenTable
  current : List Key

/-- The empty document. -/
def Draft.empty : Draft := ⟨⟨.header, []⟩, []⟩

/-- Read the line of a header, after its opening bracket. -/
def readHeader (draft : Draft) : Reader Draft := fun text => do
  let (keys, rest) ← readKey text
  let rest ← readLineEnd (← readChar ']' rest)
  let (path, key) := splitKey keys
  some (⟨← draft.root.update false (·.openHeader key) path, keys⟩, rest)

/-- Read the line of a doubled header, after its opening brackets. -/
def readRepeatedHeader (draft : Draft) : Reader Draft := fun text => do
  let (keys, rest) ← readKey text
  let rest ← readLineEnd (← readChar ']' (← readChar ']' rest))
  let (path, key) := splitKey keys
  some (⟨← draft.root.update false (·.openRepeated key) path, keys⟩, rest)

/-- Read a line that gives a key a value. -/
def readAssignment (draft : Draft) : Reader Draft := fun text => do
  let (pair, rest) ← readPair readDocumentValue text
  let rest ← readLineEnd rest
  some ({ draft with root := ← draft.root.update false (·.assignPair pair) draft.current }, rest)

/-- Read at most `lines` lines to the end of the text. -/
def readLines : (lines : Nat) → Draft → List Char → Option Draft
  | 0, _, _ => none
  | lines + 1, draft, text =>
      match skipBlanks text with
      | [] => some draft
      | '#' :: rest => do readLines lines draft (← readLineEnd ('#' :: rest))
      | '[' :: '[' :: rest => do
          let (draft, rest) ← readRepeatedHeader draft rest
          readLines lines draft rest
      | '[' :: rest => do
          let (draft, rest) ← readHeader draft rest
          readLines lines draft rest
      | '\n' :: rest => readLines lines draft rest
      | '\r' :: rest => do readLines lines draft (← readBreak ('\r' :: rest))
      | text => do
          let (draft, rest) ← readAssignment draft text
          readLines lines draft rest

/-- The text without the mark of byte order at its head. -/
def skipMark : List Char → List Char
  | '\ufeff' :: rest => rest
  | text => text

/-- The entries of the document that a text stands for. -/
def parse? (text : List Char) : Option Entries :=
  let text := skipMark text
  (readLines (text.length + 1) .empty text).map (·.root.entries)

end PeerFinder.Toml
