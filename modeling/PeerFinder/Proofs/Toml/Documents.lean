import Mathlib.Data.List.TakeDrop
import PeerFinder.Proofs.Toml.Values

/-!
# Reading back documents

`parse_render` says that a document that was written is read back with the names, the keys and the
values of its sections, if these need no quotes and no two of a table are equal. The text is read
line by line: `Leads` says that the lines of a text lead from one draft of the document to another,
whatever follows them.
-/

namespace PeerFinder.Toml

variable {key : Key} {text rest after : List Char}

/-! ## Keys -/

/-- A key that is written without quotes. -/
structure IsBare (key : Key) : Prop where
  some : key ≠ []
  bare : ∀ character ∈ key, isBareKeyChar character = true

instance (key : Key) : Decidable (IsBare key) :=
  decidable_of_iff (key ≠ [] ∧ key.all isBareKeyChar = true)
    ⟨fun ⟨hsome, hbare⟩ => ⟨hsome, List.all_eq_true.mp hbare⟩,
      fun ⟨hsome, hbare⟩ => ⟨hsome, List.all_eq_true.mpr hbare⟩⟩

/-- A character of a key without quotes is none of those that begin something else. -/
theorem ne_of_bare (other : Char) {character : Char} (hother : isBareKeyChar other = false)
    (hbare : isBareKeyChar character = true) : character ≠ other := by
  rintro rfl
  rw [hother] at hbare
  cases hbare

/-- The blanks at the head of a text that begins with something else are none. -/
theorem skip_blanks_cons {first : Char} (hfirst : isBlank first = false) :
    skipBlanks (first :: text) = first :: text :=
  List.dropWhile_cons_of_neg (by rw [hfirst]; nofun)

/-- A character of a key without quotes is no blank. -/
theorem is_blank_of_bare {character : Char} (hbare : isBareKeyChar character = true) :
    isBlank character = false := by
  have hspace := ne_of_bare ' ' rfl hbare
  have htab := ne_of_bare '\t' rfl hbare
  simp [isBlank, hspace, htab]

/-- A key without quotes is read up to the character that ends it. -/
theorem read_key_bare (hkey : IsBare key) (after : List Char)
    (hafter : ∀ first ∈ after.head?, isBareKeyChar first = false)
    (hdot : (skipBlanks after).head? ≠ some '.') :
    readKey (key ++ after) = some ([key], skipBlanks after) := by
  obtain ⟨hsome, hbare⟩ := hkey
  have hspan : (key ++ after).span isBareKeyChar = (key, after) := by
    rw [List.span_eq_takeWhile_dropWhile, List.takeWhile_append_of_pos hbare,
      List.dropWhile_append_of_pos hbare]
    cases after with
    | nil => simp
    | cons first others =>
        have hends : ¬ isBareKeyChar first = true := by simp [hafter first rfl]
        rw [List.takeWhile_cons_of_neg hends, List.dropWhile_cons_of_neg hends, List.append_nil]
  cases key with
  | nil => exact absurd rfl hsome
  | cons first others =>
      have hfirst := hbare first (.head _)
      have hsimple : readSimpleKey (first :: others ++ after) = some (first :: others, after) := by
        have hdouble := ne_of_bare '"' rfl hfirst
        have hsingle := ne_of_bare '\'' rfl hfirst
        rw [readSimpleKey.eq_def]
        split <;> simp_all
      show readKeyParts (78 + 1) _ = _
      rw [readKeyParts, List.cons_append, skip_blanks_cons (is_blank_of_bare hfirst), ← List.cons_append,
        hsimple]
      simp only [Option.bind_eq_bind, Option.bind_some]
      split
      · rename_i heq
        rw [heq] at hdot
        exact absurd rfl hdot
      · rfl

/-! ## Lines -/

/-- A value that was written does not begin with a blank. -/
theorem skip_blanks_render {field : Field} (hrender : field.render? = some text) (rest : List Char) :
    skipBlanks (text ++ rest) = text ++ rest := by
  cases field with
  | text characters =>
      cases hrender
      obtain ⟨quote, others, rfl | rfl, heq⟩ := render_text_head characters <;> rw [heq] <;> rfl
  | texts elements =>
      cases hrender
      match elements with
      | [] | [_] | _ :: _ :: _ => rfl
  | integer number =>
      simp only [Field.render?] at hrender
      split_ifs at hrender
      cases hrender
      obtain ⟨first, others, h⟩ := Text.Numeral.exists_spells (by decide : 1 < 10) number
      rw [h.text]
      refine skip_blanks_cons ?_
      simp [isBlank]
  | boolean flag =>
      cases hrender
      cases flag <;> rfl

/-- A line that gives a key the value of a field. -/
def fieldLine (key : Key) (value rest : List Char) : List Char :=
  key ++ (" = ".toList ++ (value ++ '\n' :: rest))

/-- A line that was written is read back as a key and a value. -/
theorem read_pair_field_line (hkey : IsBare key) {field : Field} (hrender : field.render? = some text)
    (rest : List Char) :
    readPair readDocumentValue (fieldLine key text rest) =
      some (([key], field.value), '\n' :: rest) := by
  have hread := read_key_bare hkey (" = ".toList ++ (text ++ '\n' :: rest))
    (by rintro first ⟨⟩; rfl) nofun
  rw [fieldLine, readPair, hread]
  show ((readDocumentValue (skipBlanks (' ' :: (text ++ '\n' :: rest)))).bind _) = _
  have hblank : skipBlanks (' ' :: (text ++ '\n' :: rest)) = text ++ '\n' :: rest :=
    (skip_blanks_render hrender ('\n' :: rest) : skipBlanks _ = _)
  rw [hblank, read_document_value_render hrender]
  rfl

/-! ## Tables -/

namespace Entries

variable {entries : Entries} {value : Value}

/-- The keys of a table. -/
def keys (entries : Entries) : List Key :=
  entries.map Prod.fst

/-- A key that a table does not have has no value. -/
theorem get_of_not_mem (hkey : key ∉ keys entries) : Entries.get? entries key = none := by
  rw [get?, List.lookup_eq_none_iff]
  intro entry hmem
  have hne : key ≠ entry.1 := fun heq => hkey (heq ▸ List.mem_map_of_mem hmem)
  simpa using hne

/-- The value of a key that a table has is found, if no two of its keys are equal. -/
theorem get_of_mem (hdistinct : (keys entries).Nodup) (hmem : (key, value) ∈ entries) :
    Entries.get? entries key = some value := by
  induction entries with
  | nil => cases hmem
  | cons entry entries ih =>
      obtain ⟨hfresh, hothers⟩ := List.nodup_cons.mp hdistinct
      cases hmem with
      | head => simp [get?]
      | tail _ hmem =>
          have hne : key ≠ entry.1 := fun heq =>
            hfresh (heq ▸ List.mem_map_of_mem (f := Prod.fst) hmem)
          rw [get?, List.lookup_cons, beq_eq_false_iff_ne.mpr hne]
          exact ih hothers hmem

/-- The value of the last key of a table, if no other one is equal. -/
theorem get_append_singleton (hkey : key ∉ keys entries) :
    Entries.get? (entries ++ [(key, value)]) key = some value := by
  have hnone := get_of_not_mem hkey
  simp only [get?] at hnone ⊢
  rw [List.lookup_append, hnone]
  simp

/-- A key that a table does not have is added at its end. -/
theorem set_of_not_mem (hkey : key ∉ keys entries) :
    Entries.set entries key value = entries ++ [(key, value)] := by
  induction entries with
  | nil => rfl
  | cons entry entries ih =>
      have hne : entry.1 ≠ key := fun heq => hkey (heq ▸ .head _)
      rw [set, if_neg hne, ih fun hmem => hkey (.tail _ hmem)]
      rfl

/-- The value of the last key of a table is replaced, if no other one is equal. -/
theorem set_append_singleton (hkey : key ∉ keys entries) (held : Value) :
    Entries.set (entries ++ [(key, held)]) key value = entries ++ [(key, value)] := by
  induction entries with
  | nil =>
      show (if key = key then _ else _) = _
      rw [if_pos rfl]
      rfl
  | cons entry entries ih =>
      have hne : entry.1 ≠ key := fun heq => hkey (heq ▸ .head _)
      rw [List.cons_append, set, if_neg hne, ih fun hmem => hkey (.tail _ hmem)]
      rfl

end Entries

/-- A document that was read up to some entries of the table of its last header. -/
def Draft.at (before : Entries) (name : Key) (held : Entries) : Draft :=
  ⟨⟨.header, before ++ [(name, .table .header held)]⟩, [name]⟩

variable {before held : Entries} {name : Key}

/-- A key is added to the table of the last header. -/
theorem assign_at (hname : name ∉ before.keys) (hkey : key ∉ held.keys) (value : Value) :
    (Draft.at before name held).root.update false (·.assignPair ([key], value)) [name] =
      some (Draft.at before name (held ++ [(key, value)])).root := by
  have hnone := Entries.get_of_not_mem hkey
  have hassign : OpenTable.assignPair ([key], value) ⟨.header, held⟩ =
      some ⟨.header, held ++ [(key, value)]⟩ := by
    simp [OpenTable.assignPair, splitKey, OpenTable.assign, OpenTable.update, hnone,
      Entries.set_of_not_mem hkey]
  simp only [Draft.at, OpenTable.update, Entries.get_append_singleton hname, Option.getD_some,
    Value.open?, Bool.false_eq_true, false_and, if_false]
  show (OpenTable.assignPair ([key], value) ⟨.header, held⟩).bind _ = _
  rw [hassign]
  show some (OpenTable.mk _ (Entries.set _ _ _)) = _
  rw [Entries.set_append_singleton hname]
  rfl

/-- A header that no other one is equal to opens an empty table. -/
theorem open_header (hname : name ∉ before.keys) :
    (⟨.header, before⟩ : OpenTable).update false (·.openHeader name) [] =
      some (Draft.at before name []).root := by
  simp [OpenTable.update, OpenTable.openHeader, Entries.get_of_not_mem hname,
    Entries.set_of_not_mem hname, Draft.at]

/-! ## Reading line by line -/

/-- The lines of a text lead from one draft to another, whatever follows them. -/
def Leads (text : List Char) (draft result : Draft) : Prop :=
  ∃ lines ≤ text.length, ∀ fuel rest,
    readLines (fuel + lines) draft (text ++ rest) = readLines fuel result rest

namespace Leads

variable {draft middle result : Draft}

/-- No lines leave a draft as it is. -/
theorem nil (draft : Draft) : Leads [] draft draft :=
  ⟨0, Nat.le_refl _, fun _ _ => rfl⟩

/-- An empty line leaves a draft as it is. -/
theorem empty_line (draft : Draft) : Leads ['\n'] draft draft :=
  ⟨1, Nat.le_refl _, fun _ _ => rfl⟩

/-- Lines are read one after another. -/
theorem append (htext : Leads text draft middle) (hafter : Leads after middle result) :
    Leads (text ++ after) draft result := by
  obtain ⟨lines, hlines, hread⟩ := htext
  obtain ⟨others, hothers, hreadOthers⟩ := hafter
  refine ⟨others + lines, by rw [List.length_append]; omega, fun fuel rest => ?_⟩
  rw [← Nat.add_assoc, List.append_assoc, hread, hreadOthers]

/-- A document whose lines lead from the empty draft to another one is read as that one. -/
theorem parse (htext : Leads text .empty result) (hmark : text.head? ≠ some '\ufeff') :
    parse? text = some result.root.entries := by
  obtain ⟨lines, hlines, hread⟩ := htext
  have hskip : skipMark text = text := by
    rw [skipMark.eq_def]
    split
    · exact absurd rfl hmark
    · rfl
  -- A document is read with one line more than it has characters, which is never too few.
  obtain ⟨spare, hspare⟩ := Nat.le.dest hlines
  have hall := hread (spare + 1) []
  rw [List.append_nil, show spare + 1 + lines = text.length + 1 by omega] at hall
  rw [parse?, hskip, hall]
  rfl

end Leads

/-- The line of a key that the table of the last header does not have adds the key with its value. -/
theorem leads_field (hname : name ∉ before.keys) (hkey : IsBare key) (hfresh : key ∉ held.keys)
    {field : Field} (hrender : field.render? = some text) :
    Leads (fieldLine key text []) (.at before name held)
      (.at before name (held ++ [(key, field.value)])) := by
  refine ⟨1, by simp only [fieldLine, List.length_append, List.length_cons]; omega,
    fun fuel rest => ?_⟩
  have hline : fieldLine key text [] ++ rest = fieldLine key text rest := by simp [fieldLine]
  have hread : readAssignment (.at before name held) (fieldLine key text rest) =
      some (.at before name (held ++ [(key, field.value)]), rest) := by
    rw [readAssignment, read_pair_field_line hkey hrender]
    show ((Draft.at before name held).root.update false _ [name]).bind _ = _
    rw [assign_at hname hfresh]
    rfl
  obtain ⟨hsome, hbare⟩ := hkey
  match key, hsome with
  | first :: others, _ =>
      have hfirst := hbare first (.head _)
      have hblanks : skipBlanks (fieldLine (first :: others) text rest) =
          fieldLine (first :: others) text rest := skip_blanks_cons (is_blank_of_bare hfirst)
      have hcomment := ne_of_bare '#' rfl hfirst
      have hheader := ne_of_bare '[' rfl hfirst
      have hbreak := ne_of_bare '\n' rfl hfirst
      have hreturn := ne_of_bare '\r' rfl hfirst
      rw [hline, readLines, hblanks]
      split <;> simp_all [fieldLine]

/-- The line of a header that the document does not have opens an empty table. -/
theorem leads_header (hname : name ∉ before.keys) (hbare : IsBare name) (current : List Key) :
    Leads ('[' :: (name ++ [']', '\n'])) ⟨⟨.header, before⟩, current⟩ (.at before name []) := by
  refine ⟨1, by simp, fun fuel rest => ?_⟩
  have hkey := read_key_bare hbare (']' :: '\n' :: rest) (by rintro first ⟨⟩; rfl) nofun
  have hread : readHeader ⟨⟨.header, before⟩, current⟩ (name ++ ']' :: '\n' :: rest) =
      some (.at before name [], rest) := by
    rw [readHeader, hkey]
    show ((OpenTable.update false (·.openHeader name) [] ⟨.header, before⟩).bind _) = _
    rw [open_header hname]
    rfl
  obtain ⟨hsome, hbare⟩ := hbare
  match name, hsome with
  | first :: others, _ =>
      have hdouble := ne_of_bare '[' rfl (hbare first (.head _))
      have hline : '[' :: (first :: others ++ [']', '\n']) ++ rest =
          '[' :: (first :: others ++ ']' :: '\n' :: rest) := by simp
      rw [hline, readLines, skip_blanks_cons rfl]
      split <;> simp_all

/-! ## Sections -/

/-- The entries that are read where keys and values were written. -/
def fieldEntries (fields : List (Key × Field)) : Entries :=
  fields.map fun (key, field) => (key, field.value)

/-- The entry that is read where a section was written. -/
def Section.entry (part : Section) : Key × Value :=
  (part.name, .table .header (fieldEntries part.fields))

/-- The keys of a section. -/
def Section.keys (part : Section) : List Key :=
  part.fields.map Prod.fst

/-- A section that needs no quotes in its header and its keys, of which no two are equal. -/
structure Section.IsPlain (part : Section) : Prop where
  name : IsBare part.name
  keys : ∀ key ∈ part.keys, IsBare key
  distinct : part.keys.Nodup

/-- Keys and values are written one by one. -/
theorem render_fields_cons_eq_some {field : Field} {fields : List (Key × Field)}
    (hrender : renderFields? ((key, field) :: fields) = some text) :
    ∃ value lines, field.render? = some value ∧ renderFields? fields = some lines ∧
      key ++ " = ".toList ++ value ++ ['\n'] ++ lines = text := by
  obtain ⟨value, hvalue, lines, hlines, htext⟩ :
      ∃ value, field.render? = some value ∧ ∃ lines, renderFields? fields = some lines ∧
        key ++ " = ".toList ++ value ++ ['\n'] ++ lines = text := by
    simpa [renderFields?, Option.bind_eq_some_iff] using hrender
  exact ⟨value, lines, hvalue, hlines, htext⟩

/-- A section is written as its header and its keys and values. -/
theorem Section.render_eq_some {part : Section} (hrender : part.render? = some text) :
    ∃ lines, renderFields? part.fields = some lines ∧
      ['['] ++ part.name ++ [']', '\n'] ++ lines = text := by
  simpa [Section.render?, Option.bind_eq_some_iff] using hrender

/-- Sections are written one by one, with an empty line between neighbours. -/
theorem render_cons_eq_some {part next : Section} {others : List Section}
    (hrender : render? (part :: next :: others) = some text) :
    ∃ first rest, part.render? = some first ∧ render? (next :: others) = some rest ∧
      first ++ ['\n'] ++ rest = text := by
  obtain ⟨first, hfirst, rest, hrest, htext⟩ :
      ∃ first, part.render? = some first ∧ ∃ rest, render? (next :: others) = some rest ∧
        first ++ ['\n'] ++ rest = text := by
    simpa [render?, Option.bind_eq_some_iff] using hrender
  exact ⟨first, rest, hfirst, hrest, htext⟩

/-- The lines of keys and values add their entries to the table of the last header. -/
theorem leads_fields (hname : name ∉ before.keys) {fields : List (Key × Field)}
    (hbare : ∀ key ∈ fields.map Prod.fst, IsBare key)
    (hdistinct : (held.keys ++ fields.map Prod.fst).Nodup)
    (hrender : renderFields? fields = some text) :
    Leads text (.at before name held) (.at before name (held ++ fieldEntries fields)) := by
  -- What is held already has none of the keys that are still to come.
  induction fields generalizing held text with
  | nil =>
      cases hrender
      rw [fieldEntries, List.map_nil, List.append_nil]
      exact .nil _
  | cons pair fields ih =>
      obtain ⟨key, field⟩ := pair
      obtain ⟨value, lines, hvalue, hlines, rfl⟩ := render_fields_cons_eq_some hrender
      have hfresh : key ∉ held.keys := fun hmem =>
        (List.nodup_append.mp hdistinct).2.2 key hmem key (.head _) rfl
      have hfield := leads_field hname (hbare _ (.head _)) hfresh hvalue
      have hkeys : (Entries.keys (held ++ [(key, field.value)]) ++ fields.map Prod.fst).Nodup := by
        simpa [Entries.keys] using hdistinct
      have hothers := ih (fun key hmem => hbare key (.tail _ hmem)) hkeys hlines
      have hall := hfield.append hothers
      rw [List.append_assoc] at hall
      simpa [fieldLine, fieldEntries] using hall

/-- The lines of a section add its entry to a document. -/
theorem leads_section {part : Section} (hplain : part.IsPlain) (hname : part.name ∉ before.keys)
    (hrender : part.render? = some text) (current : List Key) :
    Leads text ⟨⟨.header, before⟩, current⟩ ⟨⟨.header, before ++ [part.entry]⟩, [part.name]⟩ := by
  obtain ⟨lines, hlines, rfl⟩ := Section.render_eq_some hrender
  have hheader := leads_header hname hplain.name current
  exact hheader.append (leads_fields hname hplain.keys hplain.distinct hlines)

/-- The lines of sections add their entries to a document. -/
theorem leads_sections {sections : List Section} (hplain : ∀ part ∈ sections, part.IsPlain)
    (hnames : (before.keys ++ sections.map Section.name).Nodup)
    (hrender : render? sections = some text) (current : List Key) :
    ∃ last, Leads text ⟨⟨.header, before⟩, current⟩
      ⟨⟨.header, before ++ sections.map Section.entry⟩, last⟩ := by
  induction sections generalizing before text current with
  | nil =>
      cases hrender
      rw [List.map_nil, List.append_nil]
      exact ⟨current, .nil _⟩
  | cons part others ih =>
      have hname : part.name ∉ before.keys := fun hmem =>
        (List.nodup_append.mp hnames).2.2 _ hmem _ (.head _) rfl
      have hfirstPlain := hplain part (.head _)
      cases others with
      | nil => exact ⟨_, leads_section hfirstPlain hname hrender current⟩
      | cons next others =>
          obtain ⟨first, rest, hfirst, hrest, rfl⟩ := render_cons_eq_some hrender
          have hrestNames : (Entries.keys (before ++ [part.entry]) ++
              (next :: others).map Section.name).Nodup := by
            simpa [Entries.keys, Section.entry] using hnames
          obtain ⟨last, hothers⟩ :=
            ih (fun part hmem => hplain part (.tail _ hmem)) hrestNames hrest [part.name]
          rw [List.append_assoc] at hothers
          have hpart := leads_section hfirstPlain hname hfirst current
          exact ⟨last, (hpart.append (.empty_line _)).append hothers⟩

/-- A section that was written begins with its header. -/
theorem Section.render_head {part : Section} (hrender : part.render? = some text) :
    text.head? = some '[' := by
  obtain ⟨lines, -, rfl⟩ := Section.render_eq_some hrender
  rfl

/-- A document that was written does not begin with a mark of byte order. -/
theorem render_head {sections : List Section} (hrender : render? sections = some text) :
    text.head? ≠ some '\ufeff' := by
  match sections with
  | [] =>
      cases hrender
      nofun
  | [part] =>
      rw [Section.render_head (show part.render? = some text from hrender)]
      nofun
  | part :: next :: others =>
      obtain ⟨first, rest, hfirst, -, rfl⟩ := render_cons_eq_some hrender
      rw [List.append_assoc, List.head?_append, Section.render_head hfirst]
      nofun

/-- A document that was written is read back: it has the names, the keys and the values of its
sections. -/
theorem parse_render {sections : List Section} (hplain : ∀ part ∈ sections, part.IsPlain)
    (hnames : (sections.map Section.name).Nodup) (hrender : render? sections = some text) :
    parse? text = some (sections.map Section.entry) := by
  have hkeys : (Entries.keys [] ++ sections.map Section.name).Nodup := hnames
  obtain ⟨last, hleads⟩ := leads_sections hplain hkeys hrender []
  exact hleads.parse (render_head hrender)

end PeerFinder.Toml
