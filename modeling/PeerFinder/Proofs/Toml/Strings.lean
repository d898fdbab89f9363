import Mathlib.Tactic.SplitIfs
import PeerFinder.Toml.Lexical
import PeerFinder.Toml.Printer

/-!
# Reading back strings

A string is written in one of four forms, and `read_string_render` says that it is read back from each
of them, if no quote follows. Between double quotes it is read character by character: `Writes` says
how a character is written that does not stand for itself. Strings of several lines end at three
quotes: `Encloses` says how their readers take quotes, and that the text of such a string has at most
two in a row keeps it from ending early.
-/

namespace PeerFinder.Toml

variable {character : Char} {characters written text rest : List Char} {multiline : Bool}

/-- A character that needs no escape stands for itself in any string, unless it is a line break. -/
theorem is_text_char_of_not_needs_escape (hplain : needsEscape character = false)
    (hbreak : character ≠ '\n') : isTextChar character = true := by
  simp only [needsEscape, Bool.or_eq_false_iff, Bool.and_eq_false_iff, decide_eq_false_iff_not,
    bne_eq_false_iff_eq, beq_eq_false_iff_ne, hbreak, or_false] at hplain
  simp only [isTextChar, isWide, Bool.or_eq_true, Bool.and_eq_true, decide_eq_true_eq, beq_iff_eq]
  obtain ⟨hlow | rfl, hhigh⟩ := hplain
  · omega
  · exact .inl (.inl rfl)

/-- The code of a character in four digits stands for it, if it is written so. -/
theorem exists_code_escape (hneeds : needsEscape character = true) :
    ∃ first second third fourth,
      codeEscape character = ['\\', 'u', first, second, third, fourth] ∧
        charOfHex? [first, second, third, fourth] = some character := by
  -- No character above these needs an escape, so that it is enough to try them all.
  have hall : ∀ code < 0x80, needsEscape (Char.ofNat code) = true →
      ∃ digits, codeEscape (Char.ofNat code) = '\\' :: 'u' :: digits ∧ digits.length = 4 ∧
        charOfHex? digits = some (Char.ofNat code) := by
    intro code hcode hneeds
    exact ⟨(codeEscape (Char.ofNat code)).drop 2, by
      revert code; decide +kernel⟩
  have hcode : character.toNat < 0x80 := by
    simp only [needsEscape, Bool.or_eq_true, Bool.and_eq_true, decide_eq_true_eq, beq_iff_eq] at hneeds
    omega
  obtain ⟨digits, hescape, hlength, hdigits⟩ := hall _ hcode (by rwa [Char.ofNat_toNat])
  rw [Char.ofNat_toNat] at hescape hdigits
  match digits, hlength with
  | [first, second, third, fourth], _ => exact ⟨first, second, third, fourth, hescape, hdigits⟩

/-- How a character is written between double quotes, where quotes do not stand for themselves. -/
inductive Writes (multiline : Bool) (character : Char) : List Char → Prop where
  | lineBreak (hmultiline : multiline = true) (hbreak : character = '\n') :
      Writes multiline character ['\n']
  | letter (letter : Char) (hescape : shortEscape? letter = some character) :
      Writes multiline character ['\\', letter]
  | code (first second third fourth : Char)
      (hcode : charOfHex? [first, second, third, fourth] = some character) :
      Writes multiline character ['\\', 'u', first, second, third, fourth]
  | plain (htext : isTextChar character = true) (hquote : character ≠ '"')
      (hbackslash : character ≠ '\\') : Writes multiline character [character]

/-- A string between double quotes is written one character after another: a quote stands for itself
as long as it may, and all else is written by itself. -/
theorem escaped_cons (multiline : Bool) (allowed quotes : Nat) (character : Char)
    (characters : List Char) :
    (character = '"' ∧ quotes < allowed ∧ escaped multiline allowed quotes (character :: characters) =
      '"' :: escaped multiline allowed (quotes + 1) characters) ∨
    ∃ written, Writes multiline character written ∧
      escaped multiline allowed quotes (character :: characters) =
        written ++ escaped multiline allowed 0 characters := by
  rw [escaped.eq_def]
  by_cases hquote : character = '"'
  · subst hquote
    dsimp only
    rw [if_pos rfl]
    split_ifs with hallowed
    · exact .inl ⟨rfl, hallowed, rfl⟩
    · exact .inr ⟨_, .letter '"' rfl, rfl⟩
  · dsimp only
    rw [if_neg hquote]
    refine .inr ⟨_, ?_, rfl⟩
    split
    · exact .letter 'b' rfl
    · exact .letter 't' rfl
    · cases multiline with
      | true => exact .lineBreak rfl rfl
      | false => exact .letter 'n' rfl
    · exact .letter 'f' rfl
    · exact .letter 'r' rfl
    · exact .letter '\\' rfl
    · rename_i hbreak _ _ hbackslash
      split_ifs with hneeds
      · obtain ⟨first, second, third, fourth, hescape, hcode⟩ := exists_code_escape hneeds
        exact hescape ▸ .code first second third fourth hcode
      · exact .plain (is_text_char_of_not_needs_escape (by simpa using hneeds) hbreak) hquote hbackslash

/-- What a character is written as does not begin with a quote. -/
theorem Writes.head_ne (h : Writes multiline character written) :
    ∃ first others, written = first :: others ∧ first ≠ '"' := by
  cases h with
  | lineBreak | letter | code => exact ⟨_, _, rfl, by decide⟩
  | plain htext hquote => exact ⟨_, _, rfl, hquote⟩

/-- In a string of one line a character is read as it was written. -/
theorem Writes.read_basic (h : Writes false character written) (text : List Char) :
    readBasic (written ++ text) = prepend character (readBasic text) := by
  cases h with
  | lineBreak hmultiline => cases hmultiline
  | letter letter hescape =>
      unfold shortEscape? at hescape
      split at hescape <;> cases hescape <;> rfl
  | code first second third fourth hcode =>
      show (charOfHex? _).bind _ = _
      rw [hcode]
      rfl
  | plain htext hquote hbackslash =>
      rw [List.singleton_append, readBasic.eq_def]
      split <;> simp_all

/-- What is written between the quotes of one line is read back. -/
theorem read_basic_escaped (characters rest : List Char) :
    readBasic (escaped false 0 0 characters ++ '"' :: rest) = some (characters, rest) := by
  induction characters with
  | nil => rfl
  | cons character characters ih =>
      obtain ⟨-, hallowed, -⟩ | ⟨written, hwrites, heq⟩ := escaped_cons false 0 0 character characters
      · cases hallowed
      · rw [heq, List.append_assoc, hwrites.read_basic, ih]
        rfl

/-! ## Quotes in strings of several lines -/

/-- How a reader of strings of several lines takes quotes: three of them close the string, and others
stand for themselves. -/
structure Encloses (reader : Reader (List Char)) (quote : Char) : Prop where
  closes : ∀ text, reader (quote :: quote :: quote :: text) = some (closingQuotes quote text)
  stands : ∀ text, (∀ rest, text ≠ quote :: quote :: rest) →
    reader (quote :: text) = prepend quote (reader text)

namespace Encloses

variable {reader : Reader (List Char)} {quote first : Char} {quotes : Nat}

/-- Up to two quotes that no third one follows stand for themselves. -/
theorem read_quotes (h : Encloses reader quote) (hquotes : quotes ≤ 2) (hfirst : first ≠ quote)
    (hread : reader (first :: text) = some (characters, rest)) :
    reader (List.replicate quotes quote ++ first :: text) =
      some (List.replicate quotes quote ++ characters, rest) := by
  have hone : reader (quote :: first :: text) = some (quote :: characters, rest) := by
    rw [h.stands _ (by simp [hfirst]), hread]
    rfl
  match quotes, hquotes with
  | 0, _ => exact hread
  | 1, _ => exact hone
  | 2, _ =>
      show reader (quote :: quote :: first :: text) = some (quote :: quote :: characters, rest)
      rw [h.stands _ (by simp [hfirst]), hone]
      rfl

/-- The quotes that close a string may follow up to two others, as long as none follows them. -/
theorem read_closing (h : Encloses reader quote) (hquotes : quotes ≤ 2)
    (hrest : rest.head? ≠ some quote) :
    reader (List.replicate quotes quote ++ quote :: quote :: quote :: rest) =
      some (List.replicate quotes quote, rest) := by
  have hcloses : closingQuotes quote (List.replicate quotes quote ++ rest) =
      (List.replicate quotes quote, rest) := by
    match quotes, hquotes, rest with
    | 0, _, [] | 0, _, [_] | 0, _, _ :: _ :: _ | 1, _, [] | 1, _, _ :: _ =>
        simp_all [closingQuotes]
    | 2, _, _ => simp [closingQuotes, List.replicate]
  have hswap : List.replicate quotes quote ++ quote :: quote :: quote :: rest =
      quote :: quote :: quote :: (List.replicate quotes quote ++ rest) := by
    match quotes, hquotes with
    | 0, _ | 1, _ | 2, _ => rfl
  rw [hswap, h.closes, hcloses]

end Encloses

/-! ## Strings with escapes over several lines -/

/-- A character that may stand for itself is read as it is. -/
theorem read_multi_basic_cons (htext : isTextChar character = true) (hbackslash : character ≠ '\\')
    (hopen : ∀ rest, character = '"' → text ≠ '"' :: '"' :: rest) :
    readMultiBasic .none (character :: text) = prepend character (readMultiBasic .none text) := by
  have hreturn : character ≠ '\x0d' := by
    rintro rfl
    cases htext
  rw [readMultiBasic.eq_def]
  split <;> simp_all

/-- Quotes in strings with escapes. -/
theorem encloses_multi_basic : Encloses (readMultiBasic .none) '"' where
  closes _ := rfl
  stands _ hopen := read_multi_basic_cons rfl (by decide) fun rest _ => hopen rest

/-- In a string of several lines a character is read as it was written. -/
theorem Writes.read_multi_basic (h : Writes true character written) (text : List Char) :
    readMultiBasic .none (written ++ text) = prepend character (readMultiBasic .none text) := by
  cases h with
  | lineBreak hmultiline hbreak => rw [hbreak]; rfl
  | letter letter hescape =>
      unfold shortEscape? at hescape
      split at hescape <;> cases hescape <;> rfl
  | code first second third fourth hcode =>
      show (charOfHex? _).bind _ = _
      rw [hcode]
      rfl
  | plain htext hquote hbackslash =>
      exact read_multi_basic_cons htext hbackslash fun _ hsame => absurd hsame hquote

/-- What is written between the quotes of several lines is read back, with the quotes before it. -/
theorem read_multi_basic_escaped (characters : List Char) {quotes : Nat} (hquotes : quotes ≤ 2)
    (hrest : rest.head? ≠ some '"') :
    readMultiBasic .none (List.replicate quotes '"' ++
        (escaped true 2 quotes characters ++ '"' :: '"' :: '"' :: rest)) =
      some (List.replicate quotes '"' ++ characters, rest) := by
  -- The quotes that were written last stand in front, until it is known what follows them.
  induction characters generalizing quotes with
  | nil =>
      rw [List.append_nil]
      exact encloses_multi_basic.read_closing hquotes hrest
  | cons character characters ih =>
      obtain ⟨rfl, hallowed, heq⟩ | ⟨written, hwrites, heq⟩ :=
        escaped_cons true 2 quotes character characters
      · rw [heq]
        simpa [List.replicate_succ'] using ih (Nat.succ_le_of_lt hallowed)
      · obtain ⟨first, others, rfl, hfirst⟩ := hwrites.head_ne
        have hread := hwrites.read_multi_basic
          (escaped true 2 0 characters ++ '"' :: '"' :: '"' :: rest)
        have hothers := @ih 0 (Nat.zero_le 2)
        simp only [List.replicate_zero, List.nil_append] at hothers
        rw [hothers] at hread
        rw [heq, List.append_assoc]
        exact encloses_multi_basic.read_quotes hquotes hfirst hread

/-! ## Strings without escapes -/

/-- Characters that stand for themselves are read as they are up to the quote. -/
theorem read_literal_append (htext : ∀ character ∈ characters,
    isTextChar character = true ∧ character ≠ '\'') (rest : List Char) :
    readLiteral (characters ++ '\'' :: rest) = some (characters, rest) := by
  induction characters with
  | nil => rfl
  | cons character characters ih =>
      obtain ⟨⟨hplain, hquote⟩, hothers⟩ := List.forall_mem_cons.1 htext
      rw [List.cons_append, readLiteral.eq_def]
      split <;> simp_all [prepend]

/-- A character that may stand for itself, or a line break, is read as it is. -/
theorem read_multi_literal_cons (htext : isTextChar character = true ∨ character = '\n')
    (hopen : ∀ rest, character = '\'' → text ≠ '\'' :: '\'' :: rest) :
    readMultiLiteral (character :: text) = prepend character (readMultiLiteral text) := by
  have hreturn : character ≠ '\x0d' := by
    rintro rfl
    obtain htext | hbreak := htext
    · cases htext
    · cases hbreak
  rw [readMultiLiteral.eq_def]
  split <;> simp_all

/-- Quotes in strings without escapes. -/
theorem encloses_multi_literal : Encloses readMultiLiteral '\'' where
  closes _ := rfl
  stands _ hopen := read_multi_literal_cons (.inl rfl) fun rest _ => hopen rest

/-- Characters that stand for themselves over several lines are read as they are, if no more than two
quotes follow one another, with the quotes before them. -/
theorem read_multi_literal_append (htext : ∀ character ∈ characters,
      isTextChar character = true ∨ character = '\n') {quotes : Nat}
    (hrun : longestRun '\'' quotes characters ≤ 2) (hrest : rest.head? ≠ some '\'') :
    readMultiLiteral (List.replicate quotes '\'' ++
        (characters ++ '\'' :: '\'' :: '\'' :: rest)) =
      some (List.replicate quotes '\'' ++ characters, rest) := by
  induction characters generalizing quotes with
  | nil =>
      rw [List.append_nil]
      exact encloses_multi_literal.read_closing hrun hrest
  | cons character characters ih =>
      obtain ⟨hplain, hothers⟩ := List.forall_mem_cons.1 htext
      rw [longestRun] at hrun
      split_ifs at hrun with hquote
      · subst hquote
        simpa [List.replicate_succ'] using ih hothers hrun
      · have hread := @ih hothers 0 (Nat.le_trans (Nat.le_max_right _ _) hrun)
        simp only [List.replicate_zero, List.nil_append] at hread
        refine encloses_multi_literal.read_quotes (Nat.le_trans (Nat.le_max_left _ _) hrun) hquote ?_
        have hcons := @read_multi_literal_cons _ (characters ++ '\'' :: '\'' :: '\'' :: rest) hplain
          fun _ hsame => absurd hsame hquote
        rwa [hread] at hcons

/-! ## The form of a string -/

/-- The longest run is no shorter than the one that has begun. -/
theorem le_longest_run (wanted : Char) (current : Nat) (characters : List Char) :
    current ≤ longestRun wanted current characters := by
  induction characters generalizing current with
  | nil => exact Nat.le_refl current
  | cons character characters ih =>
      rw [longestRun]
      split_ifs
      · exact Nat.le_of_succ_le (ih (current + 1))
      · exact Nat.le_max_left _ _

/-- A character that occurs has a run. -/
theorem longest_run_pos {wanted : Char} (hmem : wanted ∈ characters) (current : Nat) :
    0 < longestRun wanted current characters := by
  induction characters generalizing current with
  | nil => cases hmem
  | cons character characters ih =>
      rw [longestRun]
      split_ifs with hsame
      · exact Nat.lt_of_lt_of_le (Nat.succ_pos current) (le_longest_run _ _ _)
      · have hrest : wanted ∈ characters := (List.mem_cons.1 hmem).resolve_left (Ne.symm hsame)
        exact Nat.lt_of_lt_of_le (ih hrest 0) (Nat.le_max_right _ _)

/-- What a string without escapes is like: its characters stand for themselves. -/
theorem is_text_of_no_escapes (hescapes : characters.any needsEscape = false) :
    ∀ character ∈ characters, isTextChar character = true ∨ character = '\n' := by
  intro character hmem
  have hplain : needsEscape character = false := by
    simpa using List.any_eq_false.1 hescapes character hmem
  by_cases hbreak : character = '\n'
  · exact .inr hbreak
  · exact .inl (is_text_char_of_not_needs_escape hplain hbreak)

/-- A string is written without escapes on one line only if it has neither quotes nor line breaks. -/
theorem StringForm.of_eq_literal (hform : StringForm.of characters = .literal) :
    characters ≠ [] ∧ ∀ character ∈ characters, isTextChar character = true ∧ character ≠ '\'' := by
  refine ⟨fun hnil => ?_, fun character hmem => ?_⟩
  · rw [hnil] at hform
    cases hform
  simp only [StringForm.of] at hform
  split_ifs at hform with hbasic hliteral
  simp only [Bool.and_eq_true, Bool.not_eq_true', beq_iff_eq] at hliteral
  obtain ⟨⟨hescapes, hsingle⟩, hbreaks⟩ := hliteral
  refine ⟨(is_text_of_no_escapes hescapes character hmem).resolve_right ?_, ?_⟩
  · rintro rfl
    exact absurd hmem (by simpa using hbreaks)
  · rintro rfl
    exact absurd hsingle (Nat.ne_of_gt (longest_run_pos hmem 0))

/-- A string is written without escapes on several lines only if no quotes in it close it. -/
theorem StringForm.of_eq_multi_literal (hform : StringForm.of characters = .multiLiteral) :
    (∀ character ∈ characters, isTextChar character = true ∨ character = '\n') ∧
      longestRun '\'' 0 characters ≤ 2 := by
  simp only [StringForm.of] at hform
  split_ifs at hform with hbasic hliteral hmulti hboth
  simp only [Bool.and_eq_true, Bool.not_eq_true', decide_eq_true_eq] at hboth
  exact ⟨is_text_of_no_escapes hboth.1, hboth.2⟩

/-! ## Strings of all forms -/

/-- The line break with which a string of several lines begins is dropped, and nothing else is. -/
theorem skip_break_lead (hbody : '\n' ∉ characters → ∀ first ∈ text.head?, isTextChar first = true) :
    skipBreak ((if characters.contains '\n' then ['\n'] else []) ++ text) = text := by
  split_ifs with hbreaks
  · rfl
  · have hplain := hbody (by simpa using hbreaks)
    cases text with
    | nil => rfl
    | cons first text =>
        have hfirst : isTextChar first = true := hplain first rfl
        have hnone : readBreak (first :: text) = none := by
          rw [readBreak.eq_def]
          split
          · rename_i heq
            cases heq
            cases hfirst
          · rename_i heq
            cases heq
            cases hfirst
          · rfl
        rw [List.nil_append, skipBreak, hnone]
        rfl

/-- What is written between double quotes begins with a character that stands for itself, unless the string
begins with a line break. -/
theorem head_escaped (hbreaks : '\n' ∉ characters) {first : Char}
    (hfirst : first ∈ (escaped multiline 2 0 characters ++ '"' :: rest).head?) :
    isTextChar first = true := by
  cases characters with
  | nil =>
      cases hfirst
      rfl
  | cons character characters =>
      obtain ⟨-, -, heq⟩ | ⟨written, hwrites, heq⟩ := escaped_cons multiline 2 0 character characters
      · rw [heq] at hfirst
        cases hfirst
        rfl
      · rw [heq] at hfirst
        cases hwrites with
        | lineBreak hmultiline hbreak => exact absurd (List.mem_cons.2 (.inl hbreak.symm)) hbreaks
        | letter | code =>
            cases hfirst
            rfl
        | plain htext =>
            cases hfirst
            exact htext

/-- A string on one line begins with one quote only. -/
theorem read_string_basic (hopen : ∀ rest, text ≠ '"' :: '"' :: rest) :
    readString ('"' :: text) = readBasic text := by
  rw [readString.eq_def]
  split <;> simp_all

/-- A string without escapes on one line begins with one quote only. -/
theorem read_string_literal (hopen : ∀ rest, text ≠ '\'' :: '\'' :: rest) :
    readString ('\'' :: text) = readLiteral text := by
  rw [readString.eq_def]
  split <;> simp_all

/-- A string that was written is read back, in whatever form it was written. -/
theorem read_string_render (characters : List Char) (hdouble : rest.head? ≠ some '"')
    (hsingle : rest.head? ≠ some '\'') :
    readString (renderText characters ++ rest) = some (characters, rest) := by
  rw [renderText]
  cases hform : StringForm.of characters with
  | basic =>
      simp only [List.append_assoc, List.cons_append, List.nil_append]
      rw [read_string_basic, read_basic_escaped]
      intro after hsame
      cases characters with
      | nil =>
          cases hsame
          exact hdouble rfl
      | cons character characters =>
          obtain ⟨-, hallowed, -⟩ | ⟨written, hwrites, heq⟩ := escaped_cons false 0 0 character characters
          · cases hallowed
          · obtain ⟨first, others, rfl, hfirst⟩ := hwrites.head_ne
            rw [heq] at hsame
            exact hfirst (List.cons.inj hsame).1
  | literal =>
      obtain ⟨hsome, htext⟩ := StringForm.of_eq_literal hform
      simp only [List.append_assoc, List.cons_append, List.nil_append]
      rw [read_string_literal, read_literal_append htext]
      intro after hsame
      cases characters with
      | nil => exact hsome rfl
      | cons character characters =>
          have hhead : character = '\'' := (List.cons.inj hsame).1
          exact (htext character (.head _)).2 hhead
  | multiBasic =>
      simp only [List.append_assoc, List.cons_append, List.nil_append]
      show readMultiBasic .none (skipBreak _) = _
      rw [skip_break_lead fun hbreaks first => head_escaped hbreaks]
      exact read_multi_basic_escaped characters (Nat.zero_le 2) hdouble
  | multiLiteral =>
      obtain ⟨htext, hrun⟩ := StringForm.of_eq_multi_literal hform
      simp only [List.append_assoc, List.cons_append, List.nil_append]
      show readMultiLiteral (skipBreak _) = _
      rw [skip_break_lead]
      · exact read_multi_literal_append htext hrun hsingle
      · intro hbreaks first hfirst
        cases characters with
        | nil =>
            cases hfirst
            rfl
        | cons character characters =>
            cases hfirst
            obtain hplain | rfl := htext first (.head _)
            · exact hplain
            · exact absurd (.head _) hbreaks

end PeerFinder.Toml
