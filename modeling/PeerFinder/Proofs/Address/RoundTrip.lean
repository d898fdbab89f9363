import Mathlib.Data.List.TakeWhile
import Mathlib.Data.Nat.Digits.Defs
import PeerFinder.Address.Parser
import PeerFinder.Address.Printer
import PeerFinder.Proofs.Record.RoundTrip
import PeerFinder.Proofs.Text.Numerals

/-!
# Written addresses that are read back

Every address without flow information is read back from its written form, whichever run of zero
groups is shrunk in it and whether or not it embeds one of version 4 (`Address.parse_render`). The
invariant of the reader of groups is that it takes the groups that were written and stops at what
follows them (`Ipv6.read_groups_append`).
-/

namespace PeerFinder

open Text.Numeral

namespace Text.Reader

variable {base largest number : Nat} {rest : List Char}

/-- A given character is read. -/
theorem exactly_cons (character : Char) (rest : List Char) :
    exactly character (character :: rest) = some rest :=
  if_pos rfl

/-- A written number that is not too large is read. -/
theorem number_of_nat (hone : 1 < base) (hbase : base ≤ 16) (hlargest : number ≤ largest)
    (hrest : Ends base rest) :
    Reader.number base largest (ofNat base number ++ rest) = some (number, rest) := by
  obtain ⟨digits, hspan, hdigits, hvalue, -⟩ := exists_span_of_nat hone hbase number hrest
  simp only [Reader.number, hspan, hvalue]
  exact if_pos ⟨hdigits, hlargest⟩

/-- A written number that is not too large and has few enough digits is read. -/
theorem short_number_of_nat {length : Nat} (hone : 1 < base) (hbase : base ≤ 16)
    (hlargest : number ≤ largest) (hlength : 0 < length) (hbound : number < base ^ length)
    (hrest : Ends base rest) :
    shortNumber base largest length (ofNat base number ++ rest) = some (number, rest) := by
  obtain ⟨digits, hspan, -, -, hdigits⟩ := exists_span_of_nat hone hbase number hrest
  have hshort := Nat.toDigits_length base number length hlength hbound
  rw [shortNumber, hspan, number_of_nat hone hbase hlargest hrest]
  exact if_pos (hdigits.trans_le hshort)

/-- What follows a short number are the characters after its digits. -/
theorem rest_of_short_number {text : List Char} {length value : Nat}
    (hread : shortNumber base largest length text = some (value, rest)) :
    rest = text.dropWhile fun character => (digit? base character).isSome := by
  unfold shortNumber Reader.number at hread
  dsimp only at hread
  split at hread
  · split at hread
    · cases hread
      exact span_snd base text
    · cases hread
  · cases hread

/-- A number is read from digits. -/
theorem short_number_of_ends {length : Nat} (hrest : Ends base rest) :
    shortNumber base largest length rest = none := by
  have hspan : (span base rest).1 = [] := by
    cases rest with
    | nil => rfl
    | cons character others =>
        have hnone : digit? base character = none := hrest character rfl
        simp [span, hnone]
  simp [shortNumber, Reader.number, hspan]

end Text.Reader

open Text.Reader

namespace Ipv4

variable {rest : List Char}

/-- An octet is read back. -/
theorem read_octet_append (octet : UInt8) (hrest : Ends 10 rest) :
    readOctet (ofNat 10 octet.toNat ++ rest) = some (octet, rest) := by
  unfold readOctet
  split
  · -- Of the numbers only zero begins with the digit zero, which is all of it.
    rename_i next others htext
    obtain ⟨first, digits, hspelled, hbelow, hvalue, hleading⟩ :=
      exists_spells (show 1 < 10 by decide) octet.toNat
    rw [hspelled, List.map_cons, List.cons_append, List.cons.injEq] at htext
    have hfirst : first = 0 := by
      have hread := digit_digit_char (hbelow first List.mem_cons_self) (by decide)
      rw [htext.1] at hread
      exact (Option.some.inj hread).symm
    rw [hleading hfirst, List.map_nil, List.nil_append] at htext
    have hnext : digit? 10 next = none := hrest next (by rw [htext.2]; rfl)
    have hzero : octet = 0 := by
      rw [hfirst, hleading hfirst] at hvalue
      exact UInt8.toNat_inj.1 hvalue.symm
    simp [hnext, hzero, htext.2]
  · have hlt := octet.toNat_lt
    rw [short_number_of_nat (by decide) (by decide) (by omega) (by decide) (by omega) hrest]
    simp

/-- The four numbers of an address and the dots between them. -/
theorem render_eq (ip : Ipv4) :
    ip.render = ofNat 10 ip.a.toNat ++ '.' :: (ofNat 10 ip.b.toNat ++
      '.' :: (ofNat 10 ip.c.toNat ++ '.' :: ofNat 10 ip.d.toNat)) := by
  simp [render, octets, Text.joined, List.intercalate]

/-- An address of version 4 is read back. -/
theorem read_append (ip : Ipv4) (hrest : Ends 10 rest) :
    Ipv4.read (ip.render ++ rest) = some (ip, rest) := by
  have hdot : ∀ others, Ends 10 ('.' :: others) := by
    rintro others character ⟨⟩
    decide
  simp only [Ipv4.read, render_eq, List.append_assoc, List.cons_append, read_octet_append, hdot,
    hrest, exactly_cons, Option.bind_eq_bind, Option.bind_some]

/-- What follows an octet are the characters after its digits. -/
theorem rest_of_octet {text : List Char} {octet : UInt8}
    (hread : readOctet text = some (octet, rest)) :
    rest = text.dropWhile fun character => (digit? 10 character).isSome := by
  unfold readOctet at hread
  split at hread
  · split at hread
    · cases hread
    · rename_i next others hnext
      cases hread
      have hzero : (digit? 10 '0').isSome = true := by decide
      simp [hzero, hnext]
  · obtain ⟨⟨value, after⟩, hshort, heq⟩ := Option.map_eq_some_iff.1 hread
    cases heq
    exact rest_of_short_number hshort

/-- No address of version 4 is read from a text in which no dot follows the first digits. -/
theorem read_eq_none {text : List Char}
    (hdot : (text.dropWhile fun character => (digit? 10 character).isSome).head? ≠ some '.') :
    Ipv4.read text = none := by
  unfold Ipv4.read
  cases hoctet : readOctet text with
  | none => rfl
  | some read =>
      obtain ⟨octet, rest⟩ := read
      rw [← rest_of_octet hoctet] at hdot
      have hnone : exactly '.' rest = none := by
        cases rest with
        | nil => rfl
        | cons character others => exact if_neg fun heq => hdot (congrArg some heq)
      simp [hnone]

end Ipv4

namespace Ipv6

/-- Whether a text begins with one of the characters that may follow a group. -/
def Follows (rest : List Char) : Prop :=
  ∃ delimiter others, rest = delimiter :: others ∧ delimiter ∈ [':', ']', '%']

variable {rest : List Char}

/-- A text that begins with such a character does not go on with a digit. -/
theorem Follows.ends (h : Follows rest) {base : Nat} (hbase : base ≤ 16) : Ends base rest := by
  obtain ⟨delimiter, others, rfl, hdelimiter⟩ := h
  have hdigits : [':', ']', '%'].all (fun character => digit? 16 character = none) = true := by
    decide
  rintro character ⟨⟩
  have hnone := of_decide_eq_true (List.all_eq_true.1 hdigits delimiter hdelimiter)
  simp only [digit?, Option.filter_eq_none_iff] at hnone ⊢
  intro value hvalue hbelow
  exact hnone value hvalue (decide_eq_true ((of_decide_eq_true hbelow).trans_le hbase))

/-- No address of version 4 is read where no dot comes before such a character. -/
theorem read_v4_append {text : List Char} (htext : '.' ∉ text) (hrest : Follows rest) :
    Ipv4.read (text ++ rest) = none := by
  refine Ipv4.read_eq_none ?_
  induction text with
  | nil =>
      obtain ⟨delimiter, others, rfl, hdelimiter⟩ := hrest
      have hplain : [':', ']', '%'].all
          (fun character => digit? 10 character = none ∧ character ≠ '.') = true := by decide
      have hdelimiter := of_decide_eq_true (List.all_eq_true.1 hplain delimiter hdelimiter)
      simp [hdelimiter]
  | cons character others ih =>
      rw [List.mem_cons, not_or] at htext
      cases hdigit : digit? 10 character with
      | none => simpa [hdigit] using Ne.symm htext.1
      | some digit => simpa [hdigit] using ih htext.2

/-- No address of version 4 is read where a group was written. -/
theorem read_v4_of_group (group : UInt16) (hrest : Follows rest) :
    Ipv4.read (ofNat 16 group.toNat ++ rest) = none := by
  refine read_v4_append ?_ hrest
  obtain ⟨first, others, hspelled, hbelow, -⟩ := exists_spells (show 1 < 16 by decide) group.toNat
  have hplain : ∀ digit < 16, Nat.digitChar digit ≠ '.' := by decide
  rw [hspelled, List.mem_map]
  rintro ⟨digit, hdigit, hdot⟩
  exact hplain digit (hbelow digit hdigit) hdot

/-- A group is read back. -/
theorem read_group_append (group : UInt16) (hrest : Follows rest) :
    readGroup (ofNat 16 group.toNat ++ rest) = some (group, rest) := by
  have hlt := group.toNat_lt
  rw [readGroup, short_number_of_nat (by decide) (by decide) (by omega) (by decide) (by omega)
    (hrest.ends (by decide))]
  simp

/-- No group is read from a text that begins with a character that may follow one. -/
theorem read_group_of_follows (hrest : Follows rest) : readGroup rest = none := by
  rw [readGroup, short_number_of_ends (hrest.ends (by decide)), Option.map_none]

/-- Groups behind a first one, each after a colon. -/
def renderOthers (groups : List UInt16) : List Char :=
  groups.flatMap fun group => ':' :: ofNat 16 group.toNat

/-- Groups are written as the first one and the others after colons. -/
theorem render_groups_cons (group : UInt16) (others : List UInt16) :
    renderGroups (group :: others) = ofNat 16 group.toNat ++ renderOthers others := by
  induction others generalizing group with
  | nil => simp [renderGroups, renderOthers, Text.joined, List.intercalate]
  | cons next others ih =>
      have hnext := ih next
      unfold renderGroups Text.joined renderOthers at hnext ⊢
      rw [List.map_cons, List.intercalate_cons_of_ne_nil (by simp), hnext]
      simp

/-- Whether no group is read from a text behind others. -/
def Stops (rest : List Char) : Prop :=
  ∀ slots, readGroups slots false rest = ⟨[], false, rest⟩

/-- No group is read from a text that does not begin with a colon. -/
theorem stops_of_cons {delimiter : Char} (others : List Char) (hdelimiter : delimiter ≠ ':') :
    Stops (delimiter :: others) := by
  rintro (- | slots)
  · rfl
  · have hstart : exactly ':' (delimiter :: others) = none := if_neg hdelimiter
    simp [readGroups, hstart]

/-- No group is read from a text that begins with two colons. -/
theorem stops_of_colons (others : List Char) : Stops (':' :: ':' :: others) := by
  have hfollows : Follows (':' :: others) := ⟨':', others, rfl, by decide⟩
  have hv4 : Ipv4.read (':' :: others) = none := read_v4_append (List.not_mem_nil (a := '.')) hfollows
  rintro (- | slots)
  · rfl
  · simp [readGroups, exactly_cons, hv4, read_group_of_follows hfollows]

/-- Groups behind others are read back. -/
theorem read_others_append {slots : Nat} (hrest : Follows rest)
    (hstop : readGroups slots false rest = ⟨[], false, rest⟩) (groups : List UInt16) :
    readGroups (groups.length + slots) false (renderOthers groups ++ rest) =
      ⟨groups, false, rest⟩ := by
  induction groups with
  | nil => simpa [renderOthers] using hstop
  | cons group others ih =>
      have hfollows : Follows (renderOthers others ++ rest) := by
        cases others with
        | nil => exact hrest
        | cons next others => exact ⟨':', _, rfl, by decide⟩
      have htext : renderOthers (group :: others) ++ rest =
          ':' :: (ofNat 16 group.toNat ++ (renderOthers others ++ rest)) := by
        simp [renderOthers]
      rw [htext, List.length_cons, Nat.add_right_comm, readGroups]
      simp only [Bool.false_eq_true, if_false, exactly_cons, Option.bind_some,
        read_v4_of_group group hfollows, read_group_append group hfollows, ite_self, ih]

/-- Groups are read back. -/
theorem read_groups_append (slots : Nat) (hrest : Follows rest)
    (hstop : readGroups slots false rest = ⟨[], false, rest⟩) (groups : List UInt16) :
    readGroups (groups.length + slots) true (renderGroups groups ++ rest) =
      ⟨groups, false, rest⟩ := by
  cases groups with
  | nil =>
      have hv4 : Ipv4.read rest = none := read_v4_append (List.not_mem_nil (a := '.')) hrest
      rw [List.length_nil, Nat.zero_add]
      show readGroups slots true rest = _
      cases slots with
      | zero => rfl
      | succ slots => simp [readGroups, hv4, read_group_of_follows hrest]
  | cons group others =>
      have hfollows : Follows (renderOthers others ++ rest) := by
        cases others with
        | nil => exact hrest
        | cons next others => exact ⟨':', _, rfl, by decide⟩
      rw [render_groups_cons, List.append_assoc, List.length_cons, Nat.add_right_comm, readGroups]
      simp only [if_true, Option.bind_some, read_v4_of_group group hfollows,
        read_group_append group hfollows, ite_self, read_others_append hrest hstop others]

/-- Groups begin with their leading zeros. -/
theorem exists_leading_zeros (groups : List UInt16) :
    ∃ after, groups = List.replicate (leadingZeros groups) 0 ++ after := by
  have hzeros : groups.takeWhile (· == 0) = List.replicate (leadingZeros groups) 0 := by
    refine List.eq_replicate_of_mem fun group hgroup => ?_
    have hzero := List.mem_takeWhile_imp hgroup
    exact eq_of_beq hzero
  refine ⟨groups.dropWhile (· == 0), ?_⟩
  rw [← hzeros, List.takeWhile_append_dropWhile]

/-- The longest run of zeros lies within the groups and is all zeros. -/
theorem exists_longest_zeros (start : Nat) (groups : List UInt16) :
    ∃ before after, (longestZeros start groups).1 = start + before.length ∧
      groups = before ++ List.replicate (longestZeros start groups).2 0 ++ after := by
  induction groups generalizing start with
  | nil => exact ⟨[], [], rfl, rfl⟩
  | cons group rest ih =>
      obtain ⟨before, after, hposition, hgroups⟩ := ih (start + 1)
      unfold longestZeros
      dsimp only
      split
      · obtain ⟨after, hleading⟩ := exists_leading_zeros (group :: rest)
        exact ⟨[], after, rfl, hleading⟩
      · refine ⟨group :: before, after, ?_, ?_⟩
        · rw [hposition, List.length_cons]
          omega
        · rw [List.cons_append, List.cons_append, ← hgroups]

/-- The address with the groups of an address is that one. -/
theorem of_groups_groups (ip : Ipv6) : ofGroups? ip.groups = some ip :=
  dif_pos ip.length_eq

/-- An address whose groups are all written is read back. -/
theorem read_whole (ip : Ipv6) (hrest : Follows rest) :
    Ipv6.read (renderGroups ip.groups ++ rest) = some (ip, rest) := by
  have hhead := read_groups_append 0 hrest rfl ip.groups
  rw [ip.length_eq] at hhead
  simp [Ipv6.read, hhead, ip.length_eq, of_groups_groups]

/-- A run of zeros and the groups around it are eight groups. -/
theorem length_of_shrunk {ip : Ipv6} {before after : List UInt16} {count : Nat}
    (hgroups : ip.groups = before ++ List.replicate count 0 ++ after) :
    before.length + count + after.length = 8 := by
  have hlength := ip.length_eq
  rw [hgroups] at hlength
  simpa [Nat.add_assoc] using hlength

/-- An address is read back from the groups before a run of zeros and a tail that stands for the
groups after it, which has two colons before it. -/
theorem read_shrunk {ip : Ipv6} {before after : List UInt16} {count : Nat} {tail : List Char}
    {embedded : Bool} (hgroups : ip.groups = before ++ List.replicate count 0 ++ after)
    (hcount : 0 < count)
    (htail : readGroups (7 - before.length) true tail = ⟨after, embedded, rest⟩) :
    Ipv6.read (renderGroups before ++ ':' :: ':' :: tail) = some (ip, rest) := by
  have hlength := length_of_shrunk hgroups
  have hhead := read_groups_append (8 - before.length) ⟨':', ':' :: tail, rfl, by decide⟩
    (stops_of_colons tail _) before
  rw [Nat.add_sub_cancel' (by omega)] at hhead
  have hshort : before.length ≠ 8 := by omega
  have hzeros : 8 - before.length - after.length = count := by omega
  simp only [Ipv6.read, hhead, hshort, exactly_cons, htail, hzeros, ← hgroups, of_groups_groups,
    if_false, Bool.false_eq_true, Option.bind_eq_bind, Option.bind_some]
  rfl

/-- The groups that an embedded address of version 4 stands for. -/
theorem groups_of_embedded {ip : Ipv6} {inner : Ipv4} (hinner : ip.embedded? = some inner) :
    ip.groups = [] ++ List.replicate 5 0 ++
      [0xffff, groupOfOctets inner.a inner.b, groupOfOctets inner.c inner.d] := by
  unfold embedded? at hinner
  split at hinner
  · rename_i high low hgroups
    cases hinner
    simp only [group_of_octets, hgroups]
    rfl
  · cases hinner

/-- The end of an address with an embedded one of version 4 is read back as three groups. -/
theorem read_embedded (inner : Ipv4) (hrest : Ends 10 rest) :
    readGroups 7 true ('f' :: 'f' :: 'f' :: 'f' :: ':' :: (inner.render ++ rest)) =
      ⟨[0xffff, groupOfOctets inner.a inner.b, groupOfOctets inner.c inner.d], true, rest⟩ := by
  have hfollows : Follows (':' :: (inner.render ++ rest)) := ⟨':', _, rfl, by decide⟩
  have hv4 := read_v4_append (show '.' ∉ ['f', 'f', 'f', 'f'] by decide) hfollows
  have hgroup := read_group_append 0xffff hfollows
  rw [show ofNat 16 (0xffff : UInt16).toNat = ['f', 'f', 'f', 'f'] by decide] at hgroup
  have hinner : readGroups 6 false (':' :: (inner.render ++ rest)) =
      ⟨[groupOfOctets inner.a inner.b, groupOfOctets inner.c inner.d], true, rest⟩ := by
    simp [readGroups, exactly_cons, Ipv4.read_append inner hrest]
  simp only [List.cons_append, List.nil_append] at hv4 hgroup
  rw [readGroups]
  simp [hv4, hgroup, hinner]

/-- An address of version 6 is read back. -/
theorem read_append (ip : Ipv6) (hrest : Follows rest) (hstop : Stops rest) :
    Ipv6.read (ip.render ++ rest) = some (ip, rest) := by
  unfold render
  split
  · rename_i inner hinner
    exact read_shrunk (groups_of_embedded hinner) (by decide)
      (read_embedded inner (hrest.ends (by decide)))
  · obtain ⟨before, after, hposition, hgroups⟩ := exists_longest_zeros 0 ip.groups
    generalize longestZeros 0 ip.groups = run at hposition hgroups
    dsimp only
    split
    · have hlength := length_of_shrunk hgroups
      have hslots : after.length + (7 - before.length - after.length) = 7 - before.length := by
        omega
      have htail := read_groups_append (7 - before.length - after.length) hrest
        (hstop _) after
      rw [hslots] at htail
      have hbefore : ip.groups.take run.1 = before := by
        rw [hposition, Nat.zero_add, hgroups, List.append_assoc, List.take_left]
      have hafter : ip.groups.drop (run.1 + run.2) = after := by
        rw [hposition, Nat.zero_add, hgroups]
        exact List.drop_left' (by simp)
      rw [hbefore, hafter]
      simpa using read_shrunk hgroups (by omega) htail
    · exact read_whole ip hrest

end Ipv6

namespace Address

/-- The flow information of an address; one of version 4 has none. -/
def flow : Address → UInt32
  | .v4 .. => 0
  | .v6 _ _ flow _ => flow

/-- A port behind a colon is read back. -/
theorem read_port_render (port : UInt16) :
    readPort (':' :: ofNat 10 port.toNat) = some (port, []) := by
  have hlt := port.toNat_lt
  have hread : number 10 65535 (ofNat 10 port.toNat ++ []) = some (port.toNat, []) :=
    number_of_nat (by decide) (by decide) (by omega) nofun
  rw [List.append_nil] at hread
  simp [readPort, exactly_cons, hread]

/-- A scope is read back, or zero where none was written. -/
theorem read_scope_append (scope : UInt32) (rest : List Char) :
    readScope ((if scope = 0 then [] else '%' :: ofNat 10 scope.toNat) ++ ']' :: rest) =
      (scope, ']' :: rest) := by
  have hlt := scope.toNat_lt
  have hends : Ends 10 (']' :: rest) := by
    rintro character ⟨⟩
    decide
  unfold readScope
  split_ifs with hzero
  · simp [exactly, hzero]
  · have hread : number 10 4294967295 (ofNat 10 scope.toNat ++ ']' :: rest) =
        some (scope.toNat, ']' :: rest) :=
      number_of_nat (by decide) (by decide) (by omega) hends
    simp [exactly_cons, hread]

/-- Every address without flow information is read back from its written form. -/
theorem parse_render (address : Address) (hflow : address.flow = 0) :
    parse? address.render = some address := by
  cases address with
  | v4 ip port =>
      have hends : Ends 10 (':' :: ofNat 10 port.toNat) := by
        rintro character ⟨⟩
        decide
      have hip := Ipv4.read_append ip hends
      simp [parse?, readV4, render, hip, read_port_render]
  | v6 ip port flow scope =>
      obtain rfl : flow = 0 := hflow
      let closing := ']' :: ':' :: ofNat 10 port.toNat
      let suffix := (if scope = 0 then [] else '%' :: ofNat 10 scope.toNat) ++ closing
      have hsuffix : Ipv6.Follows suffix ∧ Ipv6.Stops suffix := by
        dsimp only [suffix, closing]
        split_ifs
        · exact ⟨⟨']', _, rfl, by decide⟩, Ipv6.stops_of_cons _ (by decide)⟩
        · exact ⟨⟨'%', _, rfl, by decide⟩, Ipv6.stops_of_cons _ (by decide)⟩
      have htext : render (.v6 ip port 0 scope) = '[' :: (ip.render ++ suffix) := by
        simp [render, suffix, closing]
      have hv4 : readV4 ('[' :: (ip.render ++ suffix)) = none := by
        have hnone : Ipv4.read ('[' :: (ip.render ++ suffix)) = none :=
          Ipv4.read_eq_none (by simp [digit?])
        simp [readV4, hnone]
      have hscope : readScope suffix = (scope, closing) := read_scope_append scope _
      simp [parse?, htext, hv4, readV6, exactly_cons, Ipv6.read_append ip hsuffix.1 hsuffix.2,
        hscope, closing, read_port_render]

/-- No address that is read has flow information. -/
theorem flow_of_parse {text : List Char} {address : Address} (hread : parse? text = some address) :
    address.flow = 0 := by
  have hv4 : ∀ {rest}, readV4 text = some (address, rest) → address.flow = 0 := by
    intro rest hv4
    simp only [readV4, Option.bind_eq_bind, Option.bind_eq_some_iff] at hv4
    obtain ⟨_, -, _, -, heq⟩ := hv4
    cases heq
    rfl
  have hv6 : ∀ {rest}, readV6 text = some (address, rest) → address.flow = 0 := by
    intro rest hv6
    simp only [readV6, Option.bind_eq_bind, Option.bind_eq_some_iff] at hv6
    obtain ⟨_, -, _, -, _, -, _, -, heq⟩ := hv6
    cases heq
    rfl
  unfold parse? at hread
  split at hread
  · rename_i read hsome
    cases hread
    cases hfirst : readV4 text with
    | some read =>
        rw [hfirst] at hsome
        cases hsome
        exact hv4 hfirst
    | none =>
        rw [hfirst] at hsome
        exact hv6 hsome
  · cases hread

end Address

end PeerFinder
