import Mathlib.Algebra.Group.Nat.Defs
import PeerFinder.Proofs.Text.Numerals
import PeerFinder.Toml.Number

/-!
# Reading back numbers

The reader of numbers first tries the forms that begin like one: points in time, numbers in other
bases, and numbers with a fraction or an exponent. `read_numeric_of_nat` says that the decimal digits
of a number are none of these if their line ends behind them, and that they are read back.
-/

namespace PeerFinder.Toml

open Text Text.Numeral

variable {rest : List Char} {number first : Nat} {others digits : List Nat}

/-- The decimal digits of a number and the end of its line. -/
def digitLine (digits : List Nat) (rest : List Char) : List Char :=
  digits.map Nat.digitChar ++ '\n' :: rest

/-- What follows decimal digits on their line is one more of them or the end of the line. -/
theorem head_digit_line {character : Char} (hdigits : ∀ digit ∈ digits, digit < 10)
    (hhead : character ∈ (digitLine digits rest).head?) : character = '\n' ∨ character.isDigit = true := by
  cases digits with
  | nil =>
      cases hhead
      exact .inl rfl
  | cons digit digits =>
      cases hhead
      exact .inr (by simpa using hdigits digit (.head _))

/-- A list of which some item cannot be mapped cannot be mapped. -/
theorem map_m_eq_none {α β : Type} {f : α → Option β} {items : List α} {item : α}
    (hmem : item ∈ items) (hitem : f item = none) : items.mapM f = none := by
  induction items with
  | nil => cases hmem
  | cons other items ih =>
      rw [List.mapM_cons]
      obtain rfl | hmem := List.mem_cons.1 hmem
      · rw [hitem]
        rfl
      · rw [ih hmem]
        cases f other <;> rfl

/-- A number of few digits on the line of a number is followed by digits or the end of the line. -/
theorem read_field_digit_line (digits : List Nat) {count least greatest value : Nat} {after : List Char}
    (hread : readField count least greatest (digitLine digits rest) = some (value, after)) :
    after = digitLine (digits.drop count) rest := by
  have hcount : count ≤ digits.length := by
    refine Nat.le_of_not_lt fun hmore => ?_
    have hbreak : '\n' ∈ (digitLine digits rest).take count := by
      rw [List.mem_take_iff_getElem]
      exact ⟨digits.length, by simp [digitLine]; omega, by simp [digitLine]⟩
    have hnone : ((digitLine digits rest).take count).mapM (digit? 10) = none :=
      map_m_eq_none hbreak rfl
    simp [readField, hnone] at hread
  simp only [readField, Option.bind_eq_bind, Option.bind_eq_some_iff] at hread
  obtain ⟨values, -, hread⟩ := hread
  split at hread <;> cases hread
  simp [digitLine, List.drop_append, hcount]

/-- What follows a number of few digits on the line of a number is none of the marks that go on with a
point in time. -/
theorem head_read_field (hdigits : ∀ digit ∈ digits, digit < 10) {count least greatest value : Nat}
    {mark : Char} {after : List Char} (hmark : mark ≠ '\n') (hdigit : mark.isDigit = false) :
    readField count least greatest (digitLine digits rest) ≠ some (value, mark :: after) := by
  intro hread
  have hafter := read_field_digit_line digits hread
  have hhead : mark ∈ (digitLine (digits.drop count) rest).head? := by
    rw [← hafter]
    rfl
  obtain hbreak | hisdigit :=
    head_digit_line (fun digit hmem => hdigits digit (List.mem_of_mem_drop hmem)) hhead
  · exact hmark hbreak
  · rw [hdigit] at hisdigit
    cases hisdigit

/-- A number on a line of its own does not begin like a point in time. -/
theorem attempt_moment_digit_line (hdigits : ∀ digit ∈ digits, digit < 10) :
    attemptMoment (digitLine digits rest) = .absent := by
  have htime : attemptTime (digitLine digits rest) = .absent := by
    unfold attemptTime
    split
    · rename_i hread
      exact absurd hread (head_read_field hdigits (by decide) rfl)
    · rfl
  have hdate : attemptDate (digitLine digits rest) = .absent := by
    unfold attemptDate
    split
    · rename_i hread
      exact absurd hread (head_read_field hdigits (by decide) rfl)
    · rfl
  rw [attemptMoment, hdate]
  exact htime

/-- Digits are read up to the end of their line. -/
theorem read_more_digits_line (hdigits : ∀ digit ∈ digits, digit < 10) :
    readMoreDigits 10 (digitLine digits rest) = some (digits, '\n' :: rest) := by
  induction digits with
  | nil => rfl
  | cons digit digits ih =>
      obtain ⟨hdigit, hothers⟩ := List.forall_mem_cons.1 hdigits
      have hread := digit_digit_char hdigit (by decide)
      have hunderscore : Nat.digitChar digit ≠ '_' := by simp
      have hmore : readMoreDigits 10 (digitLine (digit :: digits) rest) =
          (readMoreDigits 10 (digitLine digits rest)).map fun read => (digit :: read.1, read.2) := by
        show readMoreDigits 10 (Nat.digitChar digit :: digitLine digits rest) = _
        rw [readMoreDigits.eq_def]
        split <;> simp_all
      rw [hmore, ih hothers]
      rfl

/-- A number is read as its digits up to the end of its line. -/
theorem read_decimal_line (h : Spells 10 number first others) :
    readDecimal (digitLine (first :: others) rest) = some (first :: others, '\n' :: rest) := by
  obtain ⟨hfirst, hothers⟩ := List.forall_mem_cons.1 h.below
  by_cases hzero : first = 0
  · rw [hzero, h.leading hzero]
    rfl
  · have hhead : Nat.digitChar first ≠ '0' := by simpa using hzero
    have hread : readDigits 10 (digitLine (first :: others) rest) =
        some (first :: others, '\n' :: rest) := by
      show (digit? 10 (Nat.digitChar first)).bind (fun digit =>
        (readMoreDigits 10 (digitLine others rest)).bind fun read => some (digit :: read.1, read.2)) = _
      rw [digit_digit_char hfirst (by decide), read_more_digits_line hothers]
      rfl
    rw [← hread]
    show readDecimal (Nat.digitChar first :: digitLine others rest) = _
    rw [readDecimal.eq_def]
    split
    · simp_all
    · rfl

/-- A number is not written with a sign. -/
theorem split_sign_digit_line (first : Nat) (others : List Nat) (rest : List Char) :
    splitSign (digitLine (first :: others) rest) = (false, digitLine (first :: others) rest) := by
  show splitSign (Nat.digitChar first :: digitLine others rest) = _
  rw [splitSign.eq_def]
  split <;> simp_all [digitLine]

/-- A number on a line of its own has no fraction. -/
theorem attempt_fraction_digit_line (h : Spells 10 number first others) :
    attemptFraction (digitLine (first :: others) rest) = .absent := by
  rw [attemptFraction, split_sign_digit_line]
  dsimp only
  rw [read_decimal_line h]
  rfl

/-- A digit begins neither infinity nor the undefined number. -/
theorem read_special_digit_line (first : Nat) (others : List Nat) (rest : List Char) :
    readSpecial (digitLine (first :: others) rest) = none := by
  have hunsigned : (splitSign (digitLine (first :: others) rest)).2 =
      Nat.digitChar first :: digitLine others rest := by
    rw [split_sign_digit_line]
    rfl
  rw [readSpecial, hunsigned]
  split <;> simp_all

/-- A number is read in decimal digits. -/
theorem read_integer_digit_line (h : Spells 10 number first others) (hnumber : number < 2 ^ 63) :
    readInteger (digitLine (first :: others) rest) = some ((number : Int), '\n' :: rest) := by
  -- Only zero begins with a zero, and then its line ends, so that no letter of a base follows.
  have hbase : ∀ letter after, digitLine (first :: others) rest = '0' :: letter :: after →
      letter = '\n' := by
    intro letter after heq
    obtain ⟨hhead, htail⟩ := List.cons.inj heq
    have hnone : others = [] := h.leading (Nat.digitChar_eq_zero.1 hhead)
    subst hnone
    exact (List.cons.inj htail).1.symm
  rw [readInteger.eq_def]
  split
  · rename_i heq
    cases hbase _ _ heq
  · rename_i heq
    cases hbase _ _ heq
  · rename_i heq
    cases hbase _ _ heq
  · have hinteger : integerOfDigits? false 10 (first :: others) = some (number : Int) := by
      rw [integerOfDigits?, h.value]
      exact if_pos hnumber
    rw [split_sign_digit_line]
    simp only [read_decimal_line h, hinteger, Option.bind_eq_bind, Option.bind_some]

/-- A number is read back. -/
theorem read_numeric_of_nat (number : Nat) (hnumber : number < 2 ^ 63) (rest : List Char) :
    readNumeric (ofNat 10 number ++ '\n' :: rest) = some (.integer number, '\n' :: rest) := by
  obtain ⟨first, others, h⟩ := exists_spells (by decide : 1 < 10) number
  have hline : ofNat 10 number ++ '\n' :: rest = digitLine (first :: others) rest := by
    rw [h.text]
    rfl
  rw [hline, readNumeric, attempt_moment_digit_line h.below, attempt_fraction_digit_line h,
    read_special_digit_line, read_integer_digit_line h hnumber]
  rfl

end PeerFinder.Toml
