import Mathlib.Data.List.TakeDrop
import PeerFinder.Proofs.Address.RoundTrip
import PeerFinder.Proofs.Rendezvous.Answers
import PeerFinder.Seed.Address

/-!
# Written seeds that are read back

An identity may be written in several ways and so may an address, but each has one written form,
which is read back. So every seed without flow information is read back from its text, and white
space around a text makes no difference (`Seed.read_back`).
-/

namespace PeerFinder

namespace Text.Blank

/-- Whether a text is all white space. -/
def AllBlank (text : List Char) : Prop :=
  ∀ character ∈ text, isBlank character = true

/-- Whether a text is all white space can be looked up. -/
instance (text : List Char) : Decidable (AllBlank text) :=
  decidable_of_iff (text.all isBlank = true) List.all_eq_true

variable {left text right : List Char}

/-- White space before a text is left out. -/
theorem trim_append_left (hleft : AllBlank left)
    (text : List Char) : trim (left ++ text) = trim text := by
  rw [trim, List.dropWhile_append_of_pos hleft, trim]

/-- White space after a text is left out. -/
theorem trim_append_right (hright : AllBlank right)
    (text : List Char) : trim (text ++ right) = trim text := by
  have hreverse : ∀ character ∈ right.reverse, isBlank character = true :=
    fun character hmem => hright character (List.mem_reverse.1 hmem)
  unfold trim
  rw [List.dropWhile_append]
  split
  · rename_i hempty
    rw [List.isEmpty_iff.1 hempty, List.dropWhile_eq_nil_iff.2 hright]
  · rw [List.reverse_append, List.dropWhile_append_of_pos hreverse]

/-- A text without white space is left as it is. -/
theorem trim_eq_self (htext : ∀ character ∈ text, isBlank character = false) :
    trim text = text := by
  have hdrop : ∀ {text : List Char}, (∀ character ∈ text, isBlank character = false) →
      text.dropWhile isBlank = text := by
    intro text htext
    cases text with
    | nil => rfl
    | cons first rest => simp [htext first List.mem_cons_self]
  have hreverse : ∀ character ∈ text.reverse, isBlank character = false :=
    fun character hmem => htext character (List.mem_reverse.1 hmem)
  rw [trim, hdrop htext, hdrop hreverse, List.reverse_reverse]

end Text.Blank

namespace Text.Hex

/-- The digits of bytes are read back. -/
theorem decode_from_encode (position : Nat) (bytes : List UInt8) :
    decodeFrom position (encode bytes) = .ok bytes := by
  induction bytes generalizing position with
  | nil => rfl
  | cons byte rest ih =>
      have hdigits : ∀ digit < 16, digit? (Nat.digitChar digit) = some digit := by decide
      have hlt := byte.toNat_lt
      have hhigh := hdigits (byte.toNat / 16) (by omega)
      have hlow := hdigits (byte.toNat % 16) (by omega)
      have hbyte : byte.toNat / 16 * 16 + byte.toNat % 16 = byte.toNat := by omega
      have htext : encode (byte :: rest) = Nat.digitChar (byte.toNat / 16) ::
          Nat.digitChar (byte.toNat % 16) :: encode rest := rfl
      simp [htext, decodeFrom, hhigh, hlow, ih, hbyte, Except.map]

/-- Bytes are written with digits. -/
theorem exists_digit_of_mem_encode {bytes : List UInt8} {character : Char}
    (h : character ∈ encode bytes) : ∃ digit < 16, character = Nat.digitChar digit := by
  simp only [encode, List.mem_flatMap, encodeByte, List.mem_cons, List.not_mem_nil, or_false] at h
  obtain ⟨byte, -, hdigit⟩ := h
  have hlt := byte.toNat_lt
  rcases hdigit with rfl | rfl
  · exact ⟨byte.toNat / 16, by omega, rfl⟩
  · exact ⟨byte.toNat % 16, by omega, rfl⟩

/-- Each byte is written with two digits. -/
theorem length_encode (bytes : List UInt8) : (encode bytes).length = 2 * bytes.length := by
  simp [encode, encodeByte, Nat.mul_comm]

end Text.Hex

namespace PeerId

/-- Characters of one byte are a symbol each. -/
theorem symbols_eq_self {text : List Char} (htext : ∀ character ∈ text, character.utf8Size = 1) :
    symbols text = text := by
  induction text with
  | nil => rfl
  | cons character rest ih =>
      obtain ⟨hone, hrest⟩ := List.forall_mem_cons.1 htext
      have hcons : symbols (character :: rest) =
          List.replicate character.utf8Size character ++ symbols rest := List.flatMap_cons
      rw [hcons, hone, ih hrest]
      rfl

/-- An identity is read back from its text. -/
theorem parse_text (id : PeerId) : PeerId.parse id.text.toList = .ok id := by
  have htext : id.text.toList = Text.Hex.encode id.bytes := String.toList_ofList
  have hsymbols : symbols (Text.Hex.encode id.bytes) = Text.Hex.encode id.bytes := by
    have hsize : ∀ digit < 16, (Nat.digitChar digit).utf8Size = 1 := by decide
    refine symbols_eq_self fun character hmem => ?_
    obtain ⟨digit, hdigit, rfl⟩ := Text.Hex.exists_digit_of_mem_encode hmem
    exact hsize digit hdigit
  have hlength : (Text.Hex.encode id.bytes).length = 64 := by
    rw [Text.Hex.length_encode, id.length_eq]
  have hdecode : decode (Text.Hex.encode id.bytes) = .ok id.bytes := by
    simp only [decode, hsymbols, hlength, if_true, Text.Hex.decode, Text.Hex.decode_from_encode]
    rfl
  simp only [PeerId.parse, htext, hdecode, bind, Except.bind, of_bytes]
  rfl

end PeerId

namespace Seed

/-- The characters that seeds are written with. -/
def alphabet : List Char :=
  "0123456789abcdef.:[]%@".toList

/-- Digits are characters that seeds are written with. -/
theorem digit_char_mem_alphabet {digit : Nat} (hdigit : digit < 16) :
    Nat.digitChar digit ∈ alphabet := by
  have hall : ∀ digit < 16, Nat.digitChar digit ∈ alphabet := by decide
  exact hall digit hdigit

/-- Numbers are written with such characters. -/
theorem of_nat_subset_alphabet {base : Nat} (hone : 1 < base) (hbase : base ≤ 16) (number : Nat) :
    Text.Numeral.ofNat base number ⊆ alphabet := by
  obtain ⟨first, others, htext, hbelow, -⟩ := Text.Numeral.exists_spells hone number
  rw [htext]
  intro character hmem
  obtain ⟨digit, hdigit, rfl⟩ := List.mem_map.1 hmem
  exact digit_char_mem_alphabet ((hbelow digit hdigit).trans_le hbase)

/-- Addresses of version 4 are written with such characters. -/
theorem v4_subset_alphabet (ip : Ipv4) : ip.render ⊆ alphabet := by
  have hdot : '.' ∈ alphabet := by decide
  simp only [Ipv4.render_eq, List.append_subset, List.cons_subset, hdot, true_and]
  exact ⟨of_nat_subset_alphabet (by decide) (by decide) _,
    of_nat_subset_alphabet (by decide) (by decide) _,
    of_nat_subset_alphabet (by decide) (by decide) _,
    of_nat_subset_alphabet (by decide) (by decide) _⟩

/-- Groups are written with such characters. -/
theorem groups_subset_alphabet (groups : List UInt16) : Ipv6.renderGroups groups ⊆ alphabet := by
  cases groups with
  | nil => exact List.nil_subset _
  | cons group others =>
      rw [Ipv6.render_groups_cons, List.append_subset]
      refine ⟨of_nat_subset_alphabet (by decide) (by decide) _, fun character hmem => ?_⟩
      obtain ⟨other, -, hother⟩ := List.mem_flatMap.1 hmem
      rcases List.mem_cons.1 hother with rfl | hdigit
      · decide
      · exact of_nat_subset_alphabet (by decide) (by decide) _ hdigit

/-- Addresses of version 6 are written with such characters. -/
theorem v6_subset_alphabet (ip : Ipv6) : ip.render ⊆ alphabet := by
  have hcolons : [':', ':'] ⊆ alphabet := by decide
  have hmapped : [':', ':', 'f', 'f', 'f', 'f', ':'] ⊆ alphabet := by decide
  unfold Ipv6.render
  split
  · exact List.append_subset.2 ⟨hmapped, v4_subset_alphabet _⟩
  · dsimp only
    split
    · simp only [List.append_subset, hcolons, groups_subset_alphabet, and_self]
    · exact groups_subset_alphabet _

/-- Addresses are written with such characters. -/
theorem address_subset_alphabet (address : Address) : address.render ⊆ alphabet := by
  have hnumber : ∀ number, Text.Numeral.ofNat 10 number ⊆ alphabet :=
    of_nat_subset_alphabet (by decide) (by decide)
  have hsigns : ':' ∈ alphabet ∧ '[' ∈ alphabet ∧ ']' ∈ alphabet ∧ '%' ∈ alphabet := by decide
  obtain ⟨hcolon, hopen, hclose, hpercent⟩ := hsigns
  cases address with
  | v4 ip port =>
      simp only [Address.render, List.append_subset, List.cons_subset, v4_subset_alphabet, hcolon,
        hnumber, and_self]
  | v6 ip port flow scope =>
      have hsuffix : (if scope = 0 then [] else '%' :: Text.Numeral.ofNat 10 scope.toNat) ⊆
          alphabet := by
        split
        · exact List.nil_subset _
        · exact List.cons_subset.2 ⟨hpercent, hnumber _⟩
      simp only [Address.render, List.cons_append, List.append_subset, List.cons_subset,
        v6_subset_alphabet, hsuffix, hcolon, hopen, hclose, hnumber, and_self]

/-- The characters of a seed. -/
theorem to_list_text (seed : Seed) :
    seed.text.toList = seed.id.text.toList ++ '@' :: seed.address.render := by
  simp [text, Address.text]

/-- Seeds are written with such characters. -/
theorem text_subset_alphabet (seed : Seed) : seed.text.toList ⊆ alphabet := by
  have hat : '@' ∈ alphabet := by decide
  simp only [to_list_text, List.append_subset, List.cons_subset, hat, address_subset_alphabet,
    and_self, and_true]
  rw [show seed.id.text.toList = Text.Hex.encode seed.id.bytes from String.toList_ofList]
  intro character hmem
  obtain ⟨digit, hdigit, rfl⟩ := Text.Hex.exists_digit_of_mem_encode hmem
  exact digit_char_mem_alphabet hdigit

/-- A text is cut at the first separator. -/
theorem split_at_first_append {separator : Char} {before : List Char}
    (hbefore : separator ∉ before) (after : List Char) :
    splitAtFirst separator (before ++ separator :: after) = some (before, after) := by
  have hplain : ∀ character ∈ before, decide (character ≠ separator) = true :=
    fun character hmem => decide_eq_true fun heq => hbefore (heq ▸ hmem)
  rw [splitAtFirst, List.span_eq_takeWhile_dropWhile, List.takeWhile_append_of_pos hplain,
    List.dropWhile_append_of_pos hplain]
  simp

/-- A seed without flow information is read back from its text. -/
theorem read_text {seed : Seed} (hflow : seed.address.flow = 0) :
    Seed.read seed.text.toList = .ok seed := by
  have hblank : alphabet.all (!Text.Blank.isBlank ·) = true := by decide
  have htrim : Text.Blank.trim seed.text.toList = seed.text.toList :=
    Text.Blank.trim_eq_self fun character hmem => by
      simpa using List.all_eq_true.1 hblank character (seed.text_subset_alphabet hmem)
  have hsplit : splitAtFirst '@' seed.text.toList =
      some (seed.id.text.toList, seed.address.render) := by
    rw [to_list_text]
    refine split_at_first_append ?_ _
    have hat : ∀ digit < 16, Nat.digitChar digit ≠ '@' := by decide
    rw [show seed.id.text.toList = Text.Hex.encode seed.id.bytes from String.toList_ofList]
    intro hmem
    obtain ⟨digit, hdigit, heq⟩ := Text.Hex.exists_digit_of_mem_encode hmem
    exact hat digit hdigit heq.symm
  simp only [Seed.read, htrim, hsplit, PeerId.parse_text, Address.parse_render _ hflow]
  rfl

/-- White space around a text makes no difference. -/
theorem read_append_blank {left right : List Char} (hleft : Text.Blank.AllBlank left)
    (hright : Text.Blank.AllBlank right) (text : List Char) :
    Seed.read (left ++ text ++ right) = Seed.read text := by
  unfold Seed.read
  rw [Text.Blank.trim_append_right hright, Text.Blank.trim_append_left hleft]

/-- A text is a seed if its characters are. -/
theorem parse_eq_ok_iff {text : String} {seed : Seed} :
    Seed.parse text = .ok seed ↔ Seed.read text.toList = .ok seed := by
  unfold Seed.parse
  cases Seed.read text.toList <;> simp [Except.mapError]

/-- No seed that is read has flow information. -/
theorem flow_of_read {text : List Char} {seed : Seed} (hread : Seed.read text = .ok seed) :
    seed.address.flow = 0 := by
  unfold Seed.read at hread
  cases hsplit : splitAtFirst '@' (Text.Blank.trim text) with
  | none => simp [hsplit, throw, throwThe, MonadExceptOf.throw] at hread
  | some parts =>
      cases hid : PeerId.parse parts.1 with
      | error fault => simp [hsplit, hid, Except.mapError, bind, Except.bind] at hread
      | ok id =>
          cases haddress : Address.parse? parts.2 with
          | none => simp [hsplit, hid, haddress, Except.mapError, bind, Except.bind] at hread
          | some address =>
              simp only [hsplit, hid, haddress, Except.mapError, bind, Except.bind, pure,
                Except.pure, Except.ok.injEq] at hread
              rw [← hread]
              exact Address.flow_of_parse haddress

/-- Every seed without flow information is read back from its text, and so is every seed that is
read from a text, however that is spelled. White space around a text makes no difference. -/
theorem read_back :
    (∀ seed : Seed, seed.address.flow = 0 → Seed.parse seed.text = .ok seed) ∧
      (∀ text seed, Seed.parse text = .ok seed → Seed.parse seed.text = .ok seed) ∧
      ∀ left text right : String, Text.Blank.AllBlank left.toList →
        Text.Blank.AllBlank right.toList → ∀ seed,
        (Seed.parse (left ++ text ++ right) = .ok seed ↔ Seed.parse text = .ok seed) := by
  refine ⟨fun seed hflow => ?_, fun text seed hread => ?_,
    fun left text right hleft hright seed => ?_⟩
  · exact parse_eq_ok_iff.2 (read_text hflow)
  · exact parse_eq_ok_iff.2 (read_text (flow_of_read (parse_eq_ok_iff.1 hread)))
  · rw [parse_eq_ok_iff, parse_eq_ok_iff, String.toList_append, String.toList_append,
      read_append_blank hleft hright]

/-- A seed at a local address with a scope. -/
def linkLocal : Seed where
  id := ⟨28 :: List.replicate 31 0, rfl, by decide +kernel⟩
  address := .v6 ⟨[0xfe80, 0, 0, 0, 0, 0, 0, 2], rfl⟩ 4001 0 3

/-- That seed with its identity in base 32, and with its address in another spelling. -/
def respelled : String :=
  "dqaaaaaaaaaaaaaaaaaaaaaaaaaaaaaaaaaaaaaaaaaaaaaaaaaa" ++ "@" ++ "[FE80:0:0::0.0.0.2%03]:04001"

/-- That seed is read from the other spelling with white space around it, and from its own text. -/
theorem read_back_link_local :
    linkLocal.address.flow = 0 ∧ Seed.parse respelled = .ok linkLocal ∧
      Text.Blank.AllBlank " ".toList ∧ Text.Blank.AllBlank "\n".toList ∧
      Seed.parse (" " ++ respelled ++ "\n") = .ok linkLocal ∧
      Seed.parse linkLocal.text = .ok linkLocal := by
  have hread : Seed.parse respelled = .ok linkLocal := by
    decide +kernel
  have hspace : Text.Blank.AllBlank " ".toList := by decide
  have hline : Text.Blank.AllBlank "\n".toList := by decide
  exact ⟨rfl, hread, hspace, hline,
    (read_back.2.2 " " respelled "\n" hspace hline linkLocal).2 hread,
    read_back.2.1 respelled linkLocal hread⟩

end Seed

end PeerFinder
