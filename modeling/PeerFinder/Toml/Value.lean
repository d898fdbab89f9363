/-!
# Values of the configuration language

A document is a table of keys and values. A table remembers how it came about, because that decides
whether later lines may still extend it: by a header of its own, as a step on the way to another
table's header, by a dotted key, or in one piece between braces. The tables of a repeated header
form a sequence, of which the last is the one that lines extend.
-/

namespace PeerFinder.Toml

/-- A key of a table. -/
abbrev Key := List Char

/-- How a table came about. -/
inductive TableOrigin where
  /-- By a header of its own. -/
  | header
  /-- As a step of the path of another header. -/
  | implied
  /-- As a step of a dotted key. -/
  | dotted
deriving DecidableEq, Repr

/-- A value. Fractional numbers and points in time are kept as they are spelled. -/
inductive Value where
  | text (characters : List Char)
  | integer (number : Int)
  | boolean (flag : Bool)
  | fraction (spelling : List Char)
  | moment (spelling : List Char)
  | array (elements : List Value)
  /-- A table that was written in one piece, and is complete. -/
  | inlineTable (entries : List (Key × Value))
  /-- A table that later lines may extend, as far as its origin allows. -/
  | table (origin : TableOrigin) (entries : List (Key × Value))
  /-- The tables of a repeated header, the last one first. -/
  | tables (latest : List (Key × Value)) (earlier : List (List (Key × Value)))

/-- The entries of a table in the order in which their keys first came up. -/
abbrev Entries := List (Key × Value)

namespace Entries

/-- The value of a key. -/
def get? (entries : Entries) (key : Key) : Option Value :=
  entries.lookup key

/-- The entries with the value of a key replaced, or added at the end. -/
def set (entries : Entries) (key : Key) (value : Value) : Entries :=
  match entries with
  | [] => [(key, value)]
  | (other, held) :: rest =>
      if other = key then (key, value) :: rest else (other, held) :: set rest key value

end Entries

/-- A table that can be extended: its origin and its entries. -/
structure OpenTable where
  origin : TableOrigin
  entries : Entries

/-- The table that a value lets lines extend. By dotted keys only tables without a header of their
own are extended. -/
def Value.open? (dotted : Bool) : Value → Option OpenTable
  | .table origin entries => if dotted ∧ origin = .header then none else some ⟨origin, entries⟩
  | .tables latest _ => some ⟨.header, latest⟩
  | _ => none

/-- The value with the table that lines extend replaced. -/
def Value.reopen (value : Value) (changed : OpenTable) : Value :=
  match value with
  | .tables _ earlier => .tables changed.entries earlier
  | _ => .table changed.origin changed.entries

/-- Change the table that a path leads to. Missing tables on the way are made, with an origin that
says whether the path is a dotted key. -/
def OpenTable.update (dotted : Bool) (change : OpenTable → Option OpenTable) :
    List Key → OpenTable → Option OpenTable
  | [], table => change table
  | key :: path, table => do
      let fresh := Value.table (if dotted then .dotted else .implied) []
      let value := (table.entries.get? key).getD fresh
      let inner ← value.open? dotted
      let changed ← inner.update dotted change path
      some { table with entries := table.entries.set key (value.reopen changed) }

/-- Give a key of the table a value. A key is given once, and a table with a header is not extended
by dotted keys. -/
def OpenTable.assign (path : List Key) (key : Key) (value : Value) (table : OpenTable) :
    Option OpenTable :=
  table.update true (fun target =>
    if (target.origin = .dotted) ↔ path ≠ [] then
      match target.entries.get? key with
      | some _ => none
      | none => some { target with entries := target.entries.set key value }
    else none) path

/-- Open the table of a header. It is new, or has so far only been a step on the way. -/
def OpenTable.openHeader (key : Key) (table : OpenTable) : Option OpenTable :=
  match table.entries.get? key with
  | none => some { table with entries := table.entries.set key (.table .header []) }
  | some (.table .implied entries) =>
      some { table with entries := table.entries.set key (.table .header entries) }
  | some _ => none

/-- Open one more table of a repeated header. -/
def OpenTable.openRepeated (key : Key) (table : OpenTable) : Option OpenTable :=
  match table.entries.get? key with
  | none => some { table with entries := table.entries.set key (.tables [] []) }
  | some (.tables latest earlier) =>
      some { table with entries := table.entries.set key (.tables [] (latest :: earlier)) }
  | some _ => none

end PeerFinder.Toml
