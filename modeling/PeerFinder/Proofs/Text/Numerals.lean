import PeerFinder.Text.Numeral

/-!
# Numerals that are read back

A number is written with digits that are below the base and stand for it, and has no leading zeros.
Its digits are read back up to the text that follows it (`Numeral.exists_span_of_nat`).
-/

namespace PeerFinder.Text.Numeral

variable {base number digit : Nat}

/-- The character of a digit is read as that digit. -/
theorem digit_digit_char (hdigit : digit < base) (hbase : base ≤ 16) :
    digit? base (Nat.digitChar digit) = some digit := by
  have hall : ∀ digit < 16, digit? 16 (Nat.digitChar digit) = some digit := by decide
  have hread := hall digit (Nat.lt_of_lt_of_le hdigit hbase)
  simp only [digit?, Option.filter_eq_some_iff] at hread ⊢
  exact ⟨hread.1, decide_eq_true hdigit⟩

/-- One digit more stands for the base times the number, and the digit. -/
theorem value_append_singleton (base : Nat) (digits : List Nat) (digit : Nat) :
    value base (digits ++ [digit]) = value base digits * base + digit :=
  List.foldl_append

/-- The digits of a number, the first of which is zero only if there is no other. -/
structure Spells (base number first : Nat) (others : List Nat) : Prop where
  text : ofNat base number = (first :: others).map Nat.digitChar
  below : ∀ digit ∈ first :: others, digit < base
  value : Numeral.value base (first :: others) = number
  leading : first = 0 → others = []

/-- Every number is spelled by some digits. -/
theorem exists_spells (hbase : 1 < base) (number : Nat) :
    ∃ first others, Spells base number first others := by
  induction number using Nat.strongRecOn with
  | ind number ih =>
      by_cases hdigit : number < base
      · exact ⟨number, [], Nat.toDigits_of_lt_base hdigit, by simpa using hdigit, by simp [value],
          fun _ => rfl⟩
      · have hle : base ≤ number := Nat.le_of_not_lt hdigit
        have hlt : number / base < number := Nat.div_lt_self (by omega) hbase
        obtain ⟨first, others, htext, hbelow, hvalue, hleading⟩ := ih _ hlt
        refine ⟨first, others ++ [number % base], ?_, fun digit hmem => ?_, ?_, fun hzero => ?_⟩
        · rw [ofNat, Nat.toDigits_of_base_le hbase hle, ← ofNat, htext]
          simp
        · rw [← List.cons_append, List.mem_append, List.mem_singleton] at hmem
          obtain hmem | rfl := hmem
          · exact hbelow digit hmem
          · exact Nat.mod_lt _ (by omega)
        · rw [← List.cons_append, value_append_singleton, hvalue, Nat.mul_comm, Nat.div_add_mod]
        · rw [hleading hzero, hzero] at hvalue
          have hnone : number / base = 0 := by simpa [value] using hvalue.symm
          rw [Nat.div_eq_zero_iff] at hnone
          omega

/-- Whether a text does not go on with a digit. -/
def Ends (base : Nat) (rest : List Char) : Prop :=
  ∀ character ∈ rest.head?, digit? base character = none

/-- Digits are read up to the text after them. -/
theorem span_append (hbase : base ≤ 16) {rest : List Char} (hrest : Ends base rest)
    {digits : List Nat} (hbelow : ∀ digit ∈ digits, digit < base) :
    span base (digits.map Nat.digitChar ++ rest) = (digits, rest) := by
  induction digits with
  | nil =>
      cases rest with
      | nil => rfl
      | cons character others =>
          have hnone : digit? base character = none := hrest character rfl
          simp [span, hnone]
  | cons digit others ih =>
      obtain ⟨hdigit, hothers⟩ := List.forall_mem_cons.1 hbelow
      simp only [List.map_cons, List.cons_append, span, digit_digit_char hdigit hbase, ih hothers]

/-- What follows the digits of a text is the text without them. -/
theorem span_snd (base : Nat) (text : List Char) :
    (span base text).2 = text.dropWhile fun character => (digit? base character).isSome := by
  induction text with
  | nil => rfl
  | cons character rest ih => cases hdigit : digit? base character <;> simp [span, hdigit, ih]

/-- A number is read up to the text after it. -/
theorem exists_span_of_nat (hone : 1 < base) (hbase : base ≤ 16) (number : Nat) {rest : List Char}
    (hrest : Ends base rest) :
    ∃ digits, span base (ofNat base number ++ rest) = (digits, rest) ∧ digits ≠ [] ∧
      value base digits = number ∧ digits.length = (ofNat base number).length := by
  obtain ⟨first, others, htext, hbelow, hvalue, -⟩ := exists_spells hone number
  refine ⟨first :: others, ?_, List.cons_ne_nil _ _, hvalue, ?_⟩
  · rw [htext]
    exact span_append hbase hrest hbelow
  · rw [htext, List.length_map]

end PeerFinder.Text.Numeral
