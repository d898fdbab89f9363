import Mathlib.Algebra.Group.Int.Defs
import Mathlib.Algebra.Group.Nat.Defs
import Mathlib.Tactic.SplitIfs
import PeerFinder.Toml.Parser

/-!
# The range of integers

Every integer in a document that was read has 64 bits with a sign, wherever it stands
(`in_range_of_parse`). Values come from readers, for which `Yields` says what they answer, and get into
tables by lines, headers and pairs, each of which keeps what all values of a table have in common.
-/

namespace PeerFinder.Toml

/-- Every integer of a value has 64 bits with a sign. -/
inductive Value.InRange : Value → Prop where
  | text (characters : List Char) : InRange (.text characters)
  | integer (number : Int) (hleast : -(2 ^ 63) ≤ number) (hgreatest : number < 2 ^ 63) :
      InRange (.integer number)
  | boolean (flag : Bool) : InRange (.boolean flag)
  | fraction (spelling : List Char) : InRange (.fraction spelling)
  | moment (spelling : List Char) : InRange (.moment spelling)
  | array (elements : List Value) (helements : ∀ element ∈ elements, InRange element) :
      InRange (.array elements)
  | inlineTable (entries : Entries) (hentries : ∀ entry ∈ entries, InRange entry.2) :
      InRange (.inlineTable entries)
  | table (origin : TableOrigin) (entries : Entries) (hentries : ∀ entry ∈ entries, InRange entry.2) :
      InRange (.table origin entries)
  | tables (latest : Entries) (earlier : List Entries) (hlatest : ∀ entry ∈ latest, InRange entry.2)
      (hearlier : ∀ entries ∈ earlier, ∀ entry ∈ entries, InRange entry.2) :
      InRange (.tables latest earlier)

/-- Every integer of the values of a table has 64 bits with a sign. -/
def Entries.InRange (entries : Entries) : Prop :=
  ∀ entry ∈ entries, entry.2.InRange

/-- A reader answers only what has a property. -/
def Yields {α : Type} (property : α → Prop) (reader : Reader α) : Prop :=
  ∀ text answer rest, reader text = some (answer, rest) → property answer

/-- A table without values is in range. -/
theorem Entries.InRange.nil : Entries.InRange [] :=
  List.forall_mem_nil _

variable {text rest : List Char} {value : Value} {entries : Entries} {key : Key}

/-! ## Readers of values without parts -/

/-- An integer that is made of digits has 64 bits with a sign. -/
theorem integer_of_digits_in_range {negative : Bool} {base : Nat} {digits : List Nat} {number : Int}
    (hnumber : integerOfDigits? negative base digits = some number) :
    -(2 ^ 63) ≤ number ∧ number < 2 ^ 63 := by
  simp only [integerOfDigits?] at hnumber
  split_ifs at hnumber with hnegative hfits hfits <;> cases hnumber <;>
    rw [show Nat.pow 2 63 = 2 ^ 63 from rfl] at hfits <;> omega

/-- The integers that are read have 64 bits with a sign. -/
theorem yields_integer : Yields (fun number => -(2 ^ 63) ≤ number ∧ number < 2 ^ 63) readInteger := by
  have hbase : ∀ base text number rest, readInteger.inBase base text = some (number, rest) →
      -(2 ^ 63) ≤ number ∧ number < 2 ^ 63 := by
    intro base text number rest hread
    simp only [readInteger.inBase, Option.bind_eq_bind, Option.bind_eq_some_iff] at hread
    obtain ⟨⟨digits, after⟩, -, read, hdigits, heq⟩ := hread
    cases heq
    exact integer_of_digits_in_range hdigits
  intro text number rest hread
  rw [readInteger.eq_def] at hread
  split at hread
  · exact hbase _ _ _ _ hread
  · exact hbase _ _ _ _ hread
  · exact hbase _ _ _ _ hread
  · simp only [Option.bind_eq_bind, Option.bind_eq_some_iff] at hread
    obtain ⟨⟨digits, after⟩, -, read, hdigits, heq⟩ := hread
    cases heq
    exact integer_of_digits_in_range hdigits

/-- Values that begin with a sign or a digit are in range. -/
theorem yields_numeric : Yields Value.InRange readNumeric := by
  intro text value rest hread
  rw [readNumeric] at hread
  split at hread
  · cases hread
  · cases hread
    exact .moment _
  · split at hread
    · cases hread
    · cases hread
      exact .fraction _
    · split at hread
      · cases hread
        exact .fraction _
      · obtain ⟨⟨number, after⟩, hnumber, heq⟩ := Option.map_eq_some_iff.mp hread
        cases heq
        obtain ⟨hleast, hgreatest⟩ := yields_integer _ _ _ hnumber
        exact .integer number hleast hgreatest

/-- Values that have no parts are in range. -/
theorem yields_scalar : Yields Value.InRange readScalar := by
  intro text value rest hread
  have hword : ∀ word flag, readWord word (.boolean flag) text = some (value, rest) →
      value.InRange := by
    intro word flag hread
    rw [readWord] at hread
    split_ifs at hread
    cases hread
    exact .boolean flag
  rw [readScalar.eq_def] at hread
  split at hread
  · cases hread
  · split_ifs at hread
    · obtain ⟨⟨characters, after⟩, -, heq⟩ := Option.map_eq_some_iff.mp hread
      cases heq
      exact .text characters
    · exact yields_numeric _ _ _ hread
    · exact hword _ _ hread
    · exact hword _ _ hread
    · obtain ⟨after, -, heq⟩ := Option.map_eq_some_iff.mp hread
      cases heq
      exact .fraction _

/-- The elements of an array are what the reader of elements answers. -/
theorem yields_elements {property : Value → Prop} {element : Reader Value}
    (helement : Yields property element) (count : Nat) :
    Yields (fun values => ∀ value ∈ values, property value) (readElements element count) := by
  induction count with
  | zero => nofun
  | succ count ih =>
      intro text values rest hread
      rw [readElements.eq_2] at hread
      split at hread
      · cases hread
        nofun
      · simp only [Option.bind_eq_bind, Option.bind_eq_some_iff] at hread
        obtain ⟨⟨value, after⟩, hvalue, hread⟩ := hread
        have hfirst := helement _ _ _ hvalue
        split at hread
        · cases hread
          simpa using hfirst
        · obtain ⟨⟨others, after⟩, hothers, heq⟩ := Option.bind_eq_some_iff.mp hread
          cases heq
          simpa using ⟨hfirst, ih _ _ _ hothers⟩
        · cases hread

/-! ## Tables -/

/-- A value of a table that is in range is so too. -/
theorem Entries.InRange.get (hentries : entries.InRange) (hget : entries.get? key = some value) :
    value.InRange := by
  rw [Entries.get?, List.lookup_eq_some_iff] at hget
  obtain ⟨before, after, rfl, -⟩ := hget
  exact hentries (key, value) (List.mem_append_right _ (.head _))

/-- A table stays in range if it gets a value in range. -/
theorem Entries.InRange.set (hentries : entries.InRange) (key : Key) (hvalue : value.InRange) :
    (entries.set key value).InRange := by
  induction entries with
  | nil => simpa [Entries.InRange, Entries.set] using hvalue
  | cons entry entries ih =>
      obtain ⟨hentry, hothers⟩ := List.forall_mem_cons.mp hentries
      rw [Entries.set]
      split_ifs
      · exact List.forall_mem_cons.mpr ⟨hvalue, hothers⟩
      · exact List.forall_mem_cons.mpr ⟨hentry, ih hothers⟩

/-- The table that a value in range lets lines extend is in range. -/
theorem Value.InRange.open {dotted : Bool} {table : OpenTable} (hvalue : value.InRange)
    (hopen : value.open? dotted = some table) : table.entries.InRange := by
  cases hvalue with
  | table origin entries hentries =>
      rw [Value.open?] at hopen
      split_ifs at hopen
      cases hopen
      exact hentries
  | tables latest earlier hlatest hearlier =>
      cases hopen
      exact hlatest
  | _ => cases hopen

/-- A value stays in range if its table is replaced by one in range. -/
theorem Value.InRange.reopen (hvalue : value.InRange) {changed : OpenTable}
    (hchanged : changed.entries.InRange) : (value.reopen changed).InRange := by
  cases hvalue with
  | tables latest earlier hlatest hearlier => exact .tables _ _ hchanged hearlier
  | _ => exact .table _ _ hchanged

/-- What is done to a table keeps it in range. -/
def Keeps (change : OpenTable → Option OpenTable) : Prop :=
  ∀ table changed, table.entries.InRange → change table = some changed → changed.entries.InRange

/-- What keeps tables in range does so at the end of a path. -/
theorem Keeps.update {change : OpenTable → Option OpenTable} (hchange : Keeps change) (dotted : Bool)
    (path : List Key) : Keeps (OpenTable.update dotted change path) := by
  induction path with
  | nil => exact hchange
  | cons key path ih =>
      intro table changed htable hupdate
      simp only [OpenTable.update, Option.bind_eq_bind, Option.bind_eq_some_iff] at hupdate
      obtain ⟨inner, hopen, innerChanged, hinner, heq⟩ := hupdate
      cases heq
      have hvalue : ((table.entries.get? key).getD
          (.table (if dotted then .dotted else .implied) [])).InRange := by
        cases hget : table.entries.get? key with
        | none => exact .table _ _ nofun
        | some value => exact htable.get hget
      exact htable.set key (hvalue.reopen (ih inner innerChanged (hvalue.open hopen) hinner))

/-- Giving a dotted key a value in range keeps a table in range. -/
theorem keeps_assign_pair {pair : List Key × Value} (hpair : pair.2.InRange) :
    Keeps (OpenTable.assignPair pair) := by
  refine Keeps.update ?_ _ _
  intro table changed htable hassign
  dsimp only at hassign
  split at hassign
  · split at hassign
    · cases hassign
    · cases hassign
      exact htable.set _ hpair
  · cases hassign

/-- Opening the table of a header keeps a table in range. -/
theorem keeps_open_header (key : Key) : Keeps (OpenTable.openHeader key) := by
  intro table changed htable hopen
  rw [OpenTable.openHeader] at hopen
  split at hopen
  · cases hopen
    exact htable.set key (.table _ _ nofun)
  · rename_i hget
    cases hopen
    cases htable.get hget with
    | table _ _ hentries => exact htable.set key (.table _ _ hentries)
  · cases hopen

/-- Opening one more table of a repeated header keeps a table in range. -/
theorem keeps_open_repeated (key : Key) : Keeps (OpenTable.openRepeated key) := by
  intro table changed htable hopen
  rw [OpenTable.openRepeated] at hopen
  split at hopen
  · cases hopen
    exact htable.set key (.tables _ _ nofun nofun)
  · rename_i hget
    cases hopen
    cases htable.get hget with
    | tables _ _ hlatest hearlier =>
        exact htable.set key (.tables _ _ nofun (List.forall_mem_cons.mpr ⟨hlatest, hearlier⟩))
  · cases hopen

/-! ## Readers of tables -/

/-- A pair has a value in range if the reader of values answers such ones. -/
theorem yields_pair {reader : Reader Value} (hreader : Yields Value.InRange reader) :
    Yields (fun pair => pair.2.InRange) (readPair reader) := by
  intro text pair rest hread
  simp only [readPair, Option.bind_eq_bind, Option.bind_eq_some_iff] at hread
  obtain ⟨_, -, _, -, ⟨value, after⟩, hvalue, heq⟩ := hread
  cases heq
  exact hreader _ _ _ hvalue

/-- The pairs of an inline table keep it in range. -/
theorem yields_pairs {reader : Reader Value} (hreader : Yields Value.InRange reader) (count : Nat)
    {table : OpenTable} (htable : table.entries.InRange) :
    Yields (fun table => table.entries.InRange) (readPairs reader count table) := by
  induction count generalizing table with
  | zero => nofun
  | succ count ih =>
      intro text answer rest hread
      simp only [readPairs, Option.bind_eq_bind, Option.bind_eq_some_iff] at hread
      obtain ⟨⟨pair, after⟩, hpair, changed, hassign, hread⟩ := hread
      have hchanged := keeps_assign_pair (yields_pair hreader _ _ _ hpair) _ _ htable hassign
      split at hread
      · cases hread
        exact hchanged
      · exact ih hchanged _ _ _ hread
      · cases hread

/-- The values that are read are in range. -/
theorem yields_value (depth : Nat) : Yields Value.InRange (readValue depth) := by
  induction depth with
  | zero => exact yields_scalar
  | succ depth ih =>
      intro text value rest hread
      rw [readValue.eq_2] at hread
      dsimp only at hread
      split at hread
      · obtain ⟨⟨values, after⟩, hvalues, heq⟩ := Option.bind_eq_some_iff.mp hread
        cases heq
        exact .array values (yields_elements ih _ _ _ _ hvalues)
      · split at hread
        · cases hread
          exact .inlineTable _ nofun
        · obtain ⟨⟨table, after⟩, htable, heq⟩ := Option.bind_eq_some_iff.mp hread
          cases heq
          exact .inlineTable _ (yields_pairs ih _ .nil _ _ _ htable)
      · exact yields_scalar _ _ _ hread

/-! ## Documents -/

variable {draft : Draft}

/-- The line of a header keeps a document in range. -/
theorem yields_header (hdraft : draft.root.entries.InRange) :
    Yields (fun next => next.root.entries.InRange) (readHeader draft) := by
  intro text next rest hread
  simp only [readHeader, Option.bind_eq_bind, Option.bind_eq_some_iff] at hread
  obtain ⟨_, -, _, -, _, -, changed, hupdate, heq⟩ := hread
  cases heq
  exact (keeps_open_header _).update _ _ _ _ hdraft hupdate

/-- The line of a doubled header keeps a document in range. -/
theorem yields_repeated_header (hdraft : draft.root.entries.InRange) :
    Yields (fun next => next.root.entries.InRange) (readRepeatedHeader draft) := by
  intro text next rest hread
  simp only [readRepeatedHeader, Option.bind_eq_bind, Option.bind_eq_some_iff] at hread
  obtain ⟨_, -, _, -, _, -, _, -, changed, hupdate, heq⟩ := hread
  cases heq
  exact (keeps_open_repeated _).update _ _ _ _ hdraft hupdate

/-- The line of a key with a value keeps a document in range. -/
theorem yields_assignment (hdraft : draft.root.entries.InRange) :
    Yields (fun next => next.root.entries.InRange) (readAssignment draft) := by
  intro text next rest hread
  simp only [readAssignment, Option.bind_eq_bind, Option.bind_eq_some_iff] at hread
  obtain ⟨⟨pair, _⟩, hpair, _, -, changed, hupdate, heq⟩ := hread
  cases heq
  have hvalue := yields_pair (yields_value _) _ _ _ hpair
  exact (keeps_assign_pair hvalue).update _ _ _ _ hdraft hupdate

/-- The lines of a document keep it in range. -/
theorem in_range_of_read_lines {lines : Nat} {result : Draft} (hdraft : draft.root.entries.InRange)
    (hread : readLines lines draft text = some result) : result.root.entries.InRange := by
  induction lines generalizing draft text with
  | zero => cases hread
  | succ lines ih =>
      rw [readLines.eq_2] at hread
      split at hread
      · cases hread
        exact hdraft
      · obtain ⟨after, -, hread⟩ := Option.bind_eq_some_iff.mp hread
        exact ih hdraft hread
      · obtain ⟨⟨next, after⟩, hheader, hread⟩ := Option.bind_eq_some_iff.mp hread
        exact ih (yields_repeated_header hdraft _ _ _ hheader) hread
      · obtain ⟨⟨next, after⟩, hheader, hread⟩ := Option.bind_eq_some_iff.mp hread
        exact ih (yields_header hdraft _ _ _ hheader) hread
      · exact ih hdraft hread
      · obtain ⟨after, -, hread⟩ := Option.bind_eq_some_iff.mp hread
        exact ih hdraft hread
      · obtain ⟨⟨next, after⟩, hassign, hread⟩ := Option.bind_eq_some_iff.mp hread
        exact ih (yields_assignment hdraft _ _ _ hassign) hread

/-- Every integer of a document that was read has 64 bits with a sign. -/
theorem in_range_of_parse (hparse : parse? text = some entries) : entries.InRange := by
  obtain ⟨draft, hread, rfl⟩ := Option.map_eq_some_iff.mp hparse
  exact in_range_of_read_lines .nil hread

end PeerFinder.Toml
