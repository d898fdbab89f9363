import PeerFinder.Proofs.Toml.Numbers
import PeerFinder.Proofs.Toml.Strings
import PeerFinder.Toml.Parser

/-!
# Reading back values

`read_document_value_render` says that a value that a section holds is read back from the text that
is written for it, up to the end of its line. Strings and lists of strings are read back wherever a
value may stand, numbers wherever a line ends behind them.
-/

namespace PeerFinder.Toml

open Text.Numeral

variable {characters written text rest : List Char}

/-- The value that is read where a section holds a value. -/
def Field.value : Field → Value
  | .text characters => .text characters
  | .texts elements => .array (elements.map .text)
  | .integer number => .integer number
  | .boolean flag => .boolean flag

/-- A string that was written begins with a quote. -/
theorem render_text_head (characters : List Char) :
    ∃ quote others, (quote = '"' ∨ quote = '\'') ∧ renderText characters = quote :: others := by
  rw [renderText]
  cases StringForm.of characters with
  | basic | multiBasic => exact ⟨'"', _, .inl rfl, rfl⟩
  | literal | multiLiteral => exact ⟨'\'', _, .inr rfl, rfl⟩

/-- A string is read back wherever a value may stand. -/
theorem read_value_text (depth : Nat) (characters rest : List Char)
    (hdouble : rest.head? ≠ some '"') (hsingle : rest.head? ≠ some '\'') :
    readValue depth (renderText characters ++ rest) = some (.text characters, rest) := by
  have hread := read_string_render characters hdouble hsingle
  obtain ⟨quote, others, hquote, heq⟩ := render_text_head characters
  rw [heq] at hread ⊢
  have hscalar : readScalar (quote :: others ++ rest) = some (.text characters, rest) := by
    show (if quote = '"' ∨ quote = '\'' then _ else _) = _
    rw [if_pos hquote]
    show (readString (quote :: others ++ rest)).map _ = _
    rw [hread]
    rfl
  cases depth with
  | zero => exact hscalar
  | succ depth => obtain rfl | rfl := hquote <;> exact hscalar

/-- The first of the characters of a string is no blank and begins no comment, line or end of a list. -/
theorem skip_lines_text (characters : List Char) (rest : List Char) :
    skipLines false (renderText characters ++ rest) = renderText characters ++ rest := by
  obtain ⟨quote, others, rfl | rfl, heq⟩ := render_text_head characters <;> rw [heq] <;> rfl

/-- An element that a comma follows is read before the other elements. -/
theorem read_elements_comma {element : Reader Value} {value : Value} {first : Char}
    {others after : List Char} (hskip : skipLines false text = first :: others) (hfirst : first ≠ ']')
    (helement : element (first :: others) = some (value, ',' :: after)) (count : Nat) :
    readElements element (count + 1) text =
      (readElements element count after).map fun read => (value :: read.1, read.2) := by
  rw [readElements.eq_2, hskip]
  split
  · rename_i heq
    exact absurd (List.cons.inj heq).1 hfirst
  · rw [helement]
    show (readElements element count after).bind _ = _
    cases readElements element count after <;> rfl

/-- An element that the end of the list follows is the last one. -/
theorem read_elements_last {element : Reader Value} {value : Value} {first : Char}
    {others after : List Char} (hskip : skipLines false text = first :: others) (hfirst : first ≠ ']')
    (helement : element (first :: others) = some (value, ']' :: after)) (count : Nat) :
    readElements element (count + 1) text = some ([value], after) := by
  rw [readElements.eq_2, hskip]
  split
  · rename_i heq
    exact absurd (List.cons.inj heq).1 hfirst
  · rw [helement]
    rfl

/-- A list of strings with a line for each is read back. -/
theorem read_elements_lines (depth : Nat) (elements : List (List Char)) (rest : List Char) {count : Nat}
    (hcount : (elements.flatMap renderTexts.renderElement).length < count) :
    readElements (readValue depth) count
        ('\n' :: (elements.flatMap renderTexts.renderElement ++ ']' :: rest)) =
      some (elements.map .text, rest) := by
  -- Each element is longer than one character, so that the count lasts until the bracket.
  induction elements generalizing count with
  | nil =>
      cases count with
      | zero => cases hcount
      | succ count => rfl
  | cons element elements ih =>
      cases count with
      | zero => cases hcount
      | succ count =>
          have hless : (elements.flatMap renderTexts.renderElement).length < count := by
            rw [List.flatMap_cons, List.length_append, renderTexts.renderElement, List.length_append,
              List.length_cons] at hcount
            omega
          let after := '\n' :: (elements.flatMap renderTexts.renderElement ++ ']' :: rest)
          obtain ⟨quote, others, hquote, heq⟩ := render_text_head element
          have hskip : skipLines false ('\n' :: ((element :: elements).flatMap renderTexts.renderElement ++
              ']' :: rest)) = quote :: (others ++ ',' :: after) := by
            have hline := skip_lines_text element (',' :: after)
            rw [heq] at hline
            simp only [List.flatMap_cons, renderTexts.renderElement, heq, List.append_assoc,
              List.cons_append, List.nil_append]
            exact hline
          have helement := read_value_text depth element (',' :: after) nofun nofun
          rw [heq] at helement
          have hfirst : quote ≠ ']' := by
            obtain rfl | rfl := hquote <;> decide
          rw [read_elements_comma hskip hfirst helement, ih hless]
          rfl

/-- A list of strings is read back. -/
theorem read_value_texts (depth : Nat) (elements : List (List Char)) (rest : List Char) :
    readValue (depth + 1) (renderTexts elements ++ rest) =
      some (.array (elements.map .text), rest) := by
  have hbracket : ∀ text, readValue (depth + 1) ('[' :: text) =
      (readElements (readValue depth) (text.length + 1) text).map fun read =>
        (.array read.1, read.2) := by
    intro text
    show (readElements _ _ text).bind _ = _
    cases readElements (readValue depth) (text.length + 1) text <;> rfl
  match elements with
  | [] => exact hbracket (']' :: rest)
  | [element] =>
      obtain ⟨quote, others, hquote, heq⟩ := render_text_head element
      have hskip := skip_lines_text element (']' :: rest)
      have helement := read_value_text depth element (']' :: rest) nofun nofun
      rw [heq] at hskip helement
      have hfirst : quote ≠ ']' := by
        obtain rfl | rfl := hquote <;> decide
      have hread := read_elements_last hskip hfirst helement
      simp only [renderTexts, heq, List.append_assoc, List.cons_append, List.nil_append] at hread ⊢
      rw [hbracket, hread]
      rfl
  | first :: second :: others =>
      have hlong : ∀ lines : List Char, lines.length < ('\n' :: (lines ++ ']' :: rest)).length + 1 := by
        intro lines
        rw [List.length_cons, List.length_append]
        omega
      simp only [renderTexts, List.append_assoc, List.cons_append, List.nil_append]
      rw [hbracket, read_elements_lines depth (first :: second :: others) rest (hlong _)]
      rfl

/-- A number is read back up to the end of its line, wherever a value may stand. -/
theorem read_value_nat (depth : Nat) {number : Nat} (hnumber : number < 2 ^ 63) (rest : List Char) :
    readValue depth (ofNat 10 number ++ '\n' :: rest) = some (.integer number, '\n' :: rest) := by
  have hread := read_numeric_of_nat number hnumber rest
  obtain ⟨first, others, h⟩ := exists_spells (by decide : 1 < 10) number
  have hdigit : (Nat.digitChar first).isDigit = true := by simpa using h.below first (.head _)
  rw [h.text, List.map_cons, List.cons_append] at hread ⊢
  have hscalar : readScalar (Nat.digitChar first :: (others.map Nat.digitChar ++ '\n' :: rest)) =
      some (.integer number, '\n' :: rest) := by
    simp [readScalar, hdigit, hread]
  cases depth with
  | zero => exact hscalar
  | succ depth =>
      rw [readValue.eq_2]
      dsimp only
      split <;> simp_all

/-- The value of a field is read back up to the end of its line. -/
theorem read_document_value_render {field : Field} (hrender : field.render? = some text)
    (rest : List Char) :
    readDocumentValue (text ++ '\n' :: rest) = some (field.value, '\n' :: rest) := by
  cases field with
  | text characters =>
      cases hrender
      exact read_value_text _ characters _ nofun nofun
  | texts elements =>
      cases hrender
      exact read_value_texts _ elements _
  | integer number =>
      simp only [Field.render?] at hrender
      split_ifs at hrender with hnumber
      cases hrender
      exact read_value_nat _ hnumber rest
  | boolean flag =>
      cases hrender
      cases flag <;> rfl

end PeerFinder.Toml
