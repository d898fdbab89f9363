import PeerFinder.Proofs.Record.RoundTrip

/-!
# Records that are cut off

A reader that gets only the beginning of what was stored hits the end of the buffer, wherever the
bytes are cut off: inside the identity, inside a number, or between two addresses.
`ProviderRecord.decode_whole_or_cut` says so of records, next to what is read when bytes follow.
`NeedsAll` is the property of a reader that is carried from the parts of the stored form to the
whole.
-/

namespace PeerFinder

namespace Record

/-- Whether a reader hits the end of the buffer on all that is only the beginning of some bytes. -/
def NeedsAll {α : Type} (read : Decoder α) (bytes : List UInt8) : Prop :=
  ∀ part missing, part ++ missing = bytes → missing ≠ [] → read part = .error .endOfBuffer

section Sequences

variable {α β : Type} {first : Decoder α} {left right bytes : List UInt8}
  {next : α × List UInt8 → Except CodecFault (β × List UInt8)}

/-- Nothing is missing of no bytes. -/
theorem needs_all_nil (read : Decoder α) : NeedsAll read [] := by
  intro part missing hbytes hmissing
  exact absurd (List.append_eq_nil_iff.1 hbytes).2 hmissing

/-- A reader needs all that its first part needs. -/
theorem NeedsAll.bind_last (hfirst : NeedsAll first bytes) :
    NeedsAll (fun bytes => first bytes >>= next) bytes := by
  intro part missing hbytes hmissing
  show first part >>= next = .error .endOfBuffer
  rw [hfirst part missing hbytes hmissing]
  rfl

/-- A reader of two parts needs both: cut off in the first part it fails there, and cut off later it
reads the first part and fails in the second one. -/
theorem NeedsAll.bind (hfirst : NeedsAll first left) {value : α}
    (hreads : ∀ rest, first (left ++ rest) = .ok (value, rest))
    (hnext : NeedsAll (fun rest => next (value, rest)) right) :
    NeedsAll (fun bytes => first bytes >>= next) (left ++ right) := by
  intro part missing hbytes hmissing
  have hgo : ∀ rest, first (left ++ rest) >>= next = next (value, rest) := by
    intro rest
    rw [hreads]
    rfl
  obtain ⟨rest, hleft, hrest⟩ | ⟨rest, hpart, hright⟩ := List.append_eq_append_iff.1 hbytes
  · cases rest with
    | nil =>
        -- The cut is exactly between the two parts.
        rw [List.append_nil] at hleft
        rw [List.nil_append] at hrest
        show first part >>= next = .error .endOfBuffer
        rw [← hleft, ← List.append_nil left, hgo]
        exact hnext [] missing hrest hmissing
    | cons byte rest =>
        exact hfirst.bind_last part (byte :: rest) hleft.symm (List.cons_ne_nil byte rest)
  · show first part >>= next = .error .endOfBuffer
    rw [hpart, hgo]
    exact hnext rest missing hright.symm hmissing

end Sequences

/-- A number needs all its bytes, as every byte but the last says that another one follows. -/
theorem Varint.needs_all_encode_groups (last before number : Nat) :
    NeedsAll (decodeGroups last before) (encodeGroups before number) := by
  intro part missing hbytes hmissing
  induction before generalizing number part with
  | zero =>
      cases part with
      | nil => rfl
      | cons byte part =>
          rw [encodeGroups, List.cons_append, List.cons.injEq, List.append_eq_nil_iff] at hbytes
          exact absurd hbytes.2.2 hmissing
  | succ before ih =>
      cases part with
      | nil => rfl
      | cons byte part =>
          rw [List.cons_append, encodeGroups] at hbytes
          split at hbytes
          · rw [List.cons.injEq, List.append_eq_nil_iff] at hbytes
            exact absurd hbytes.2.2 hmissing
          · rw [List.cons.injEq] at hbytes
            obtain ⟨hbyte, hrest⟩ := hbytes
            have hgoes : ¬ byte.toNat < 128 := by
              rw [hbyte, UInt8.toNat_ofNat']
              omega
            rw [decodeGroups, if_neg hgoes, ih (number / 128) part hrest]
            rfl

/-- A number needs all its bytes. -/
theorem Varint.needs_all_encode (width : Width) (number : Nat) :
    NeedsAll (decode width) (encode width number) :=
  needs_all_encode_groups width.last width.before number

/-- What is cut off is shorter. -/
theorem length_lt_of_cut {bytes part missing : List UInt8} (hbytes : part ++ missing = bytes)
    (hmissing : missing ≠ []) : part.length < bytes.length := by
  rw [← hbytes, List.length_append]
  exact Nat.lt_add_of_pos_right (List.length_pos_iff.2 hmissing)

/-- Reading so many bytes needs all of them. -/
theorem needs_all_take_bytes {bytes : List UInt8} {count : Nat} (hlength : bytes.length = count) :
    NeedsAll (takeBytes count) bytes := by
  intro part missing hbytes hmissing
  have hshort := length_lt_of_cut hbytes hmissing
  exact dif_neg (Nat.not_le.2 (hlength ▸ hshort))

end Record

open Record

namespace Address

/-- A port needs all its bytes. -/
theorem needs_all_port (port : UInt16) :
    NeedsAll decodePort (Varint.encode .u16 port.toNat) :=
  (Varint.needs_all_encode .u16 port.toNat).bind_last

/-- A version 4 address needs its four bytes. -/
theorem needs_all_ipv4 (ip : Ipv4) : NeedsAll decodeIpv4 ip.octets := by
  intro part missing hbytes hmissing
  have hshort : part.length < 4 := length_lt_of_cut hbytes hmissing
  match part with
  | [] | [_] | [_, _] | [_, _, _] => rfl
  | _ :: _ :: _ :: _ :: rest =>
      simp only [List.length_cons] at hshort
      omega

/-- Groups need all their bytes. -/
theorem needs_all_groups {count : Nat} (groups : List UInt16) (hlength : groups.length = count) :
    NeedsAll (decodeGroups count) (groups.flatMap Ipv6.groupOctets) := by
  intro part missing hbytes hmissing
  induction groups generalizing count part with
  | nil => exact absurd (List.append_eq_nil_iff.1 hbytes).2 hmissing
  | cons group groups ih =>
      subst hlength
      match part with
      | [] | [_] => rfl
      | high :: low :: part =>
          simp only [List.flatMap_cons, Ipv6.groupOctets, List.cons_append, List.nil_append,
            List.cons.injEq] at hbytes
          simp [decodeGroups, ih rfl part hbytes.2.2, bind, Except.bind]

/-- An address needs all its bytes. -/
theorem needs_all_encode (address : Address) : NeedsAll decode address.encode := by
  cases address with
  | v4 ip port =>
      rw [encode, List.append_assoc]
      refine (Varint.needs_all_encode .u32 0).bind (decode_tag_encode (by decide)) ?_
      refine (needs_all_ipv4 ip).bind (fun rest => rfl) ?_
      exact (needs_all_port port).bind_last
  | v6 ip port flow scope =>
      rw [encode, List.append_assoc]
      refine (Varint.needs_all_encode .u32 1).bind (decode_tag_encode (by decide)) ?_
      refine (needs_all_groups ip.groups ip.length_eq).bind
        (decode_groups_octets ip.groups ip.length_eq) ?_
      exact (needs_all_port port).bind_last

/-- Addresses need all their bytes. -/
theorem needs_all_many (addresses : List Address) :
    NeedsAll (decodeMany addresses.length) (addresses.flatMap encode) := by
  induction addresses with
  | nil => exact needs_all_nil _
  | cons address addresses ih =>
      rw [List.flatMap_cons]
      exact (needs_all_encode address).bind (decode_encode address) ih.bind_last

end Address

namespace ProviderRecord

/-- A record needs all its bytes. -/
theorem needs_all_encode (record : ProviderRecord) (hstorable : record.IsStorable) :
    NeedsAll decodeFrom record.encode := by
  have hcount : record.addresses.length < Varint.Width.u64.bound := hstorable
  rw [encode, List.append_assoc, List.append_assoc]
  refine (needs_all_take_bytes record.length_eq).bind
    (fun rest => take_bytes_append record.nodeId rest record.length_eq) ?_
  refine (Varint.needs_all_encode .u64 record.addresses.length).bind
    (fun rest => Varint.decode_encode .u64 (by decide) _ rest hcount) ?_
  refine (Address.needs_all_many record.addresses).bind
    (Address.decode_many_encode record.addresses) ?_
  exact (Varint.needs_all_encode .u64 record.publishedAt.toNat).bind_last

/-- The stored form of a record is read as the record without flow information and scopes, with its
addresses in order and as often as they are listed, whatever bytes follow. If anything of it is
missing at the end, the reader hits the end of the buffer. -/
theorem decode_whole_or_cut (record : ProviderRecord) (hstorable : record.IsStorable) :
    (∀ rest, decode (record.encode ++ rest) = .ok record.stored) ∧
      ∀ part, part <+: record.encode → part ≠ record.encode → decode part = .error .endOfBuffer := by
  refine ⟨fun rest => ?_, fun part hprefix hne => ?_⟩
  · rw [decode, decode_from_encode record hstorable rest]
    rfl
  · obtain ⟨missing, hbytes⟩ := hprefix
    have hmissing : missing ≠ [] := by
      intro hnone
      rw [hnone, List.append_nil] at hbytes
      exact hne hbytes
    rw [decode, needs_all_encode record hstorable part missing hbytes hmissing]
    rfl

/-- A record of bytes that are no identity, with an address of either version. The one of version 6 has
a scope and is listed twice. -/
def repeating : ProviderRecord where
  nodeId := List.replicate 32 2
  length_eq := rfl
  addresses :=
    [.v6 ⟨[0xfe80, 0, 0, 0, 0, 0, 0, 1], rfl⟩ 4001 7 3, .v4 ⟨10, 0, 0, 1⟩ 80,
      .v6 ⟨[0xfe80, 0, 0, 0, 0, 0, 0, 1], rfl⟩ 4001 7 3]
  publishedAt := 18446744073709551615

/-- The scopes of that record are gone when it is read with a byte behind it, and without its last byte
it is not read at all. -/
theorem decode_whole_or_cut_repeating :
    repeating.IsStorable ∧ (PeerId.ofBytes? repeating.nodeId).isSome = false ∧
      decode (repeating.encode ++ [255]) = .ok
        { repeating with
          addresses :=
            [.v6 ⟨[0xfe80, 0, 0, 0, 0, 0, 0, 1], rfl⟩ 4001 0 0, .v4 ⟨10, 0, 0, 1⟩ 80,
              .v6 ⟨[0xfe80, 0, 0, 0, 0, 0, 0, 1], rfl⟩ 4001 0 0] } ∧
      decode repeating.encode.dropLast = .error .endOfBuffer := by
  have hstorable : repeating.IsStorable := by
    show 3 < 2 ^ 64
    decide
  obtain ⟨hwhole, hcut⟩ := decode_whole_or_cut repeating hstorable
  refine ⟨hstorable, by decide +kernel, hwhole [255], hcut _ (List.dropLast_prefix _) ?_⟩
  decide

end ProviderRecord

end PeerFinder
