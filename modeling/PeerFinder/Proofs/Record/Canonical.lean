import PeerFinder.Proofs.Record.Truncation

/-!
# The stored form as the canonical one

A reader accepts more than what is ever stored: longer spellings of a number, and any bytes after the
record. `IsDelimited` says of a reader that whatever it accepts has a beginning it reads and needs all
of, and is carried from the parts of a record to the whole. `ProviderRecord.decode_canonicalises` says
that what is read is stored in no more bytes than it was read from, and is read back as it is.
-/

namespace PeerFinder

namespace Record

/-- Whether whatever a reader accepts begins with bytes that fit the value, that it reads as the value
whatever follows them, and that it needs all of. -/
def IsDelimited {α : Type} (read : Decoder α) (fits : List UInt8 → α → Prop) : Prop :=
  ∀ bytes value rest, read bytes = .ok (value, rest) →
    ∃ part, part ++ rest = bytes ∧ (∀ other, read (part ++ other) = .ok (value, other)) ∧
      NeedsAll read part ∧ fits part value

section Sequences

variable {α β : Type} {first : Decoder α}
  {next : α × List UInt8 → Except CodecFault (β × List UInt8)}
  {fits : List UInt8 → α → Prop} {fitsBoth : List UInt8 → β → Prop}

/-- A reader that leaves all bytes is delimited. -/
theorem is_delimited_pure {value : α} (hfits : fits [] value) :
    IsDelimited (fun bytes => .ok (value, bytes)) fits := by
  intro bytes result rest h
  cases h
  exact ⟨[], rfl, fun _ => rfl, needs_all_nil _, hfits⟩

/-- A reader that accepts nothing is delimited. -/
theorem is_delimited_error (fault : CodecFault) : IsDelimited (fun _ => .error fault) fits :=
  fun _ _ _ h => by cases h

/-- A reader that needs a byte is delimited if it is after every byte. -/
theorem is_delimited_cons (hnil : first [] = .error .endOfBuffer)
    (h : ∀ byte, IsDelimited (fun bytes => first (byte :: bytes)) fun part => fits (byte :: part)) :
    IsDelimited first fits := by
  intro bytes value rest hread
  cases bytes with
  | nil =>
      rw [hnil] at hread
      cases hread
  | cons byte bytes =>
      obtain ⟨part, hbytes, hwhole, hneeds, hfits⟩ := h byte bytes value rest hread
      refine ⟨byte :: part, congrArg _ hbytes, hwhole, fun beginning missing heq hmissing => ?_, hfits⟩
      cases beginning with
      | nil => exact hnil
      | cons head beginning =>
          obtain ⟨rfl, hpart⟩ := List.cons_eq_cons.1 heq
          exact hneeds beginning missing hpart hmissing

/-- A reader of two parts is delimited if both parts are. -/
theorem IsDelimited.bind (hfirst : IsDelimited first fits)
    (hnext : ∀ left value, fits left value →
      IsDelimited (fun rest => next (value, rest)) fun right => fitsBoth (left ++ right)) :
    IsDelimited (fun bytes => first bytes >>= next) fitsBoth := by
  intro bytes result rest hread
  change first bytes >>= next = .ok (result, rest) at hread
  cases hstart : first bytes with
  | error fault =>
      rw [hstart] at hread
      cases hread
  | ok read =>
      obtain ⟨value, middle⟩ := read
      rw [hstart] at hread
      obtain ⟨left, hbytes, hwhole, hneeds, hfits⟩ := hfirst bytes value middle hstart
      obtain ⟨right, hmiddle, hwholeNext, hneedsNext, hfitsBoth⟩ :=
        hnext left value hfits middle result rest hread
      refine ⟨left ++ right, ?_, fun other => ?_, hneeds.bind hwhole hneedsNext, hfitsBoth⟩
      · rw [List.append_assoc, hmiddle, hbytes]
      · show first (left ++ right ++ other) >>= next = _
        rw [List.append_assoc, hwhole]
        exact hwholeNext other

end Sequences

/-- Reading so many bytes is delimited. -/
theorem is_delimited_take_bytes (count : Nat) :
    IsDelimited (takeBytes count) fun part bytes => part = bytes.1 := by
  intro bytes value rest hread
  unfold takeBytes at hread
  split_ifs at hread with hlength
  cases hread
  have hpart : (bytes.take count).length = count := by simp [hlength]
  exact ⟨bytes.take count, List.take_append_drop count bytes,
    fun other => take_bytes_append _ other hpart, needs_all_take_bytes hpart, rfl⟩

namespace Varint

/-- The shortest spelling of a number that fits seven bits is one byte. -/
theorem encode_groups_of_lt {number : Nat} (hsmall : number < 128) (before : Nat) :
    encodeGroups before number = [UInt8.ofNat number] := by
  cases before with
  | zero => rfl
  | succ before => exact if_pos hsmall

/-- A group below others makes the shortest spelling longer by one byte at most. -/
theorem length_encode_groups_le (before high : Nat) {low : Nat} (hlow : low < 128) :
    (encodeGroups (before + 1) (low + 128 * high)).length ≤ (encodeGroups before high).length + 1 := by
  have hhigh : (low + 128 * high) / 128 = high := by omega
  rw [encodeGroups, hhigh]
  split <;> simp

/-- A number is delimited by its last byte. It fits, and its shortest spelling is no longer than the
one that is read. -/
theorem is_delimited_groups (last before : Nat) :
    IsDelimited (decodeGroups last before) fun part number =>
      number < 128 ^ before * (last + 1) ∧ (encodeGroups before number).length ≤ part.length := by
  induction before with
  | zero =>
      refine is_delimited_cons rfl fun byte => ?_
      by_cases hfits : byte.toNat ≤ last
      · simp only [decodeGroups, if_pos hfits]
        exact is_delimited_pure ⟨by omega, le_rfl⟩
      · simp only [decodeGroups, if_neg hfits]
        exact is_delimited_error _
  | succ before ih =>
      refine is_delimited_cons rfl fun byte => ?_
      by_cases hsmall : byte.toNat < 128
      · simp only [decodeGroups, if_pos hsmall]
        refine is_delimited_pure ⟨?_, (congrArg List.length (encode_groups_of_lt hsmall _)).le⟩
        calc byte.toNat < 128 := hsmall
          _ ≤ 128 ^ before * (last + 1) * 128 :=
            Nat.le_mul_of_pos_left 128 (Nat.mul_pos (Nat.pow_pos (by decide)) (Nat.succ_pos last))
          _ = 128 ^ (before + 1) * (last + 1) := by rw [Nat.pow_succ]; ac_rfl
      · simp only [decodeGroups, if_neg hsmall]
        refine ih.bind fun part high hpart => ?_
        obtain ⟨hfits, hshort⟩ := hpart
        show IsDelimited (fun rest => .ok (byte.toNat % 128 + 128 * high, rest)) _
        refine is_delimited_pure ?_
        rw [List.append_nil]
        have hlow : byte.toNat % 128 < 128 := Nat.mod_lt _ (by decide)
        refine ⟨?_, (length_encode_groups_le before high hlow).trans (Nat.succ_le_succ hshort)⟩
        calc byte.toNat % 128 + 128 * high < 128 * (high + 1) := by omega
          _ ≤ 128 * (128 ^ before * (last + 1)) := Nat.mul_le_mul_left 128 hfits
          _ = 128 ^ (before + 1) * (last + 1) := by rw [Nat.pow_succ]; ac_rfl

/-- A number of a type is delimited, fits the type, and is stored in no more bytes than are read. -/
theorem is_delimited_decode (width : Width) :
    IsDelimited (decode width) fun part number =>
      number < width.bound ∧ (encode width number).length ≤ part.length :=
  is_delimited_groups width.last width.before

end Varint

end Record

open Record

namespace Address

/-- A port is delimited, and stored in no more bytes than are read. -/
theorem is_delimited_port :
    IsDelimited decodePort fun part port =>
      (Varint.encode .u16 port.toNat).length ≤ part.length :=
  (Varint.is_delimited_decode .u16).bind fun part number ⟨hfits, hshort⟩ => is_delimited_pure (by
    rwa [UInt16.toNat_ofNat_of_lt' hfits, List.append_nil])

/-- A version 4 address is delimited, and stored in as many bytes as are read. -/
theorem is_delimited_ipv4 :
    IsDelimited decodeIpv4 fun part ip => ip.octets.length = part.length :=
  is_delimited_cons rfl fun _ => is_delimited_cons rfl fun _ => is_delimited_cons rfl fun _ =>
    is_delimited_cons rfl fun _ => is_delimited_pure rfl

/-- Groups are delimited, and stored in as many bytes as are read. -/
theorem is_delimited_groups (count : Nat) :
    IsDelimited (decodeGroups count) fun part groups =>
      (groups.1.flatMap Ipv6.groupOctets).length = part.length := by
  induction count with
  | zero => exact is_delimited_pure rfl
  | succ count ih =>
      refine is_delimited_cons rfl fun high => is_delimited_cons rfl fun low => ?_
      refine ih.bind fun part groups hlength => is_delimited_pure ?_
      simp [Ipv6.groupOctets, ← hlength]

/-- An address is delimited, has nothing that is not stored, and is stored in no more bytes than are
read. -/
theorem is_delimited_decode :
    IsDelimited decode fun part address =>
      address.stored = address ∧ address.encode.length ≤ part.length := by
  refine (Varint.is_delimited_decode .u32).bind fun left tag ⟨_, htag⟩ => ?_
  match tag with
  | 0 =>
      refine is_delimited_ipv4.bind fun middle ip hip =>
        is_delimited_port.bind fun right port hport => is_delimited_pure ⟨rfl, ?_⟩
      simp only [encode, List.length_append, List.length_nil]
      omega
  | 1 =>
      refine (is_delimited_groups 8).bind fun middle groups hgroups =>
        is_delimited_port.bind fun right port hport => is_delimited_pure ⟨rfl, ?_⟩
      simp only [encode, Ipv6.octets, List.length_append, List.length_nil]
      omega
  | _ + 2 => exact is_delimited_error _

/-- Addresses are delimited, as many as are to be read, have nothing that is not stored, and are stored
in no more bytes than are read. -/
theorem is_delimited_many (count : Nat) :
    IsDelimited (decodeMany count) fun part addresses =>
      addresses.length = count ∧ addresses.map stored = addresses ∧
        (addresses.flatMap encode).length ≤ part.length := by
  induction count with
  | zero => exact is_delimited_pure ⟨rfl, rfl, le_rfl⟩
  | succ count ih =>
      refine is_delimited_decode.bind fun left address ⟨hstored, hshort⟩ =>
        ih.bind fun right addresses ⟨hlength, hstoredAll, hshortAll⟩ =>
        is_delimited_pure ⟨congrArg Nat.succ hlength, ?_, ?_⟩
      · rw [List.map_cons, hstored, hstoredAll]
      · simp only [List.flatMap_cons, List.length_append]
        exact Nat.add_le_add hshort hshortAll

end Address

namespace ProviderRecord

/-- A record is delimited, has nothing that is not stored, and is stored in no more bytes than are
read. -/
theorem is_delimited_decode_from :
    IsDelimited decodeFrom fun part record =>
      record.IsStorable ∧ record.stored = record ∧ record.encode.length ≤ part.length := by
  refine (is_delimited_take_bytes 32).bind fun head nodeId hhead =>
    (Varint.is_delimited_decode .u64).bind fun number count ⟨hcount, hnumber⟩ =>
    (Address.is_delimited_many count).bind fun middle addresses ⟨hlength, hstored, hmiddle⟩ =>
    (Varint.is_delimited_decode .u64).bind fun last publishedAt ⟨htime, hlast⟩ =>
    is_delimited_pure ?_
  subst hlength hhead
  refine ⟨hcount, ?_, ?_⟩
  · rw [stored, hstored]
  · simp only [encode, List.length_append, List.length_nil, UInt64.toNat_ofNat_of_lt' htime]
    omega

/-- A record that is read of some bytes is followed by those that the reader leaves. -/
theorem exists_decode_from {bytes : List UInt8} {record : ProviderRecord}
    (hread : decode bytes = .ok record) : ∃ rest, decodeFrom bytes = .ok (record, rest) := by
  unfold decode at hread
  cases hfrom : decodeFrom bytes with
  | error fault =>
      rw [hfrom] at hread
      cases hread
  | ok read =>
      rw [hfrom] at hread
      cases hread
      exact ⟨read.2, rfl⟩

/-- Whatever bytes are read as a record begin with exactly one part that the reader takes for it. That
part is read as the record whatever follows it, what is only the beginning of it ends too early, and
the record is stored in no more bytes than it has. What is stored is read as the record again. -/
theorem decode_canonicalises {bytes : List UInt8} {record : ProviderRecord}
    (hread : decode bytes = .ok record) :
    (∃! part, ∃ rest, part ++ rest = bytes ∧ decodeFrom bytes = .ok (record, rest)) ∧
    (∀ part rest, part ++ rest = bytes → decodeFrom bytes = .ok (record, rest) →
      (∀ other, decodeFrom (part ++ other) = .ok (record, other) ∧
        decode (part ++ other) = .ok record) ∧
      (∀ shorter, shorter <+: part → shorter ≠ part → decode shorter = .error .endOfBuffer) ∧
      record.encode.length ≤ part.length) ∧
    decode record.encode = .ok record := by
  obtain ⟨rest, hfrom⟩ := exists_decode_from hread
  obtain ⟨part, hbytes, hwhole, hneeds, hstorable, hstored, hshort⟩ :=
    is_delimited_decode_from bytes record rest hfrom
  -- What is left tells the part that is taken.
  have hunique : ∀ other left, other ++ left = bytes → decodeFrom bytes = .ok (record, left) →
      other = part := by
    intro other left hother hleft
    rw [hfrom] at hleft
    cases hleft
    exact List.append_cancel_right (hother.trans hbytes.symm)
  refine ⟨⟨part, ⟨rest, hbytes, hfrom⟩, fun other ⟨left, hother, hleft⟩ =>
    hunique other left hother hleft⟩, fun other left hother hleft => ?_, ?_⟩
  · obtain rfl := hunique other left hother hleft
    refine ⟨fun more => ⟨hwhole more, ?_⟩, fun shorter ⟨missing, hpart⟩ hne => ?_, hshort⟩
    · rw [decode, hwhole]
      rfl
    · have hmissing : missing ≠ [] := by
        rintro rfl
        exact hne (by rw [← hpart, List.append_nil])
      rw [decode, hneeds shorter missing hpart hmissing]
      rfl
  · rw [decode_encode record hstorable, hstored]

/-- The bytes of a record with an address, every number of it in a longer spelling than is stored, and
two bytes behind it. -/
def longWinded : List UInt8 :=
  List.replicate 32 7 ++ [0x81, 0] ++ [0x80, 0x80, 0, 10, 0, 0, 1, 0xd0, 0x80, 0] ++ [0x85, 0x80, 0] ++
    [255, 7]

/-- The record that these bytes are read as. -/
def spelledOut : ProviderRecord where
  nodeId := List.replicate 32 7
  length_eq := rfl
  addresses := [.v4 ⟨10, 0, 0, 1⟩ 80]
  publishedAt := 5

/-- It is read from 47 bytes, none of which may be missing, stored in 40, and read back as it is. -/
theorem decode_canonicalises_long_winded :
    decode longWinded = .ok spelledOut ∧
      (∀ other, decode (longWinded.take 47 ++ other) = .ok spelledOut) ∧
      decode (longWinded.take 46) = .error .endOfBuffer ∧
      spelledOut.encode.length = 40 ∧ decode spelledOut.encode = .ok spelledOut := by
  have hread : decode longWinded = .ok spelledOut := by rfl
  have hfrom : decodeFrom longWinded = .ok (spelledOut, [255, 7]) := by rfl
  obtain ⟨-, hpart, hagain⟩ := decode_canonicalises hread
  obtain ⟨hwhole, hcut, -⟩ := hpart (longWinded.take 47) [255, 7] rfl hfrom
  exact ⟨hread, fun other => (hwhole other).2,
    hcut (longWinded.take 46) ⟨[0], rfl⟩ (by decide), rfl, hagain⟩

end ProviderRecord

end PeerFinder
