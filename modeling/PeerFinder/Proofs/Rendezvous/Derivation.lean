import Mathlib.Data.List.Nodup
import Mathlib.Data.Set.Function
import PeerFinder.Proofs.Rendezvous.Directory

/-!
# What is hashed for slots

The key pair and the salt of a slot come from digests of byte strings: a domain, the length of the
label, the label, the minute, and the number of the slot. No two slots have the same byte string,
whatever their labels hold, and none has the same for its key as any has for its salt
(`Slot.derivation_separates`). So only a collision of the digest lets two slots share a salt.
-/

namespace PeerFinder.Rendezvous

namespace Slot

/-- Different numbers have different bytes. -/
theorem little_endian_injective : Function.Injective littleEndian := by
  intro left right h
  simp only [littleEndian, List.range, List.range.loop, List.map_cons, List.map_nil,
    List.cons.injEq, and_true, ← UInt8.toNat_inj, UInt64.toNat_toUInt8, UInt64.toNat_shiftRight,
    UInt64.toNat_ofNat', Nat.shiftRight_eq_div_pow, Nat.reduceMul, Nat.reduceMod, Nat.reducePow,
    Nat.div_one] at h
  have hleft := left.toNat_lt
  have hright := right.toNat_lt
  rw [← UInt64.toNat_inj]
  omega

/-- A number has eight bytes. -/
theorem length_little_endian (number : UInt64) : (littleEndian number).length = 8 := by
  rw [littleEndian, List.length_map, List.length_range]

/-- All but the label takes the same room for every slot. -/
theorem length_material (domain : List UInt8) (slot : Slot) :
    (slot.material domain).length = domain.length + slot.label.length + 17 := by
  simp only [material, List.length_append, length_little_endian, List.length_singleton]
  omega

/-- Under one domain different slots have different byte strings. -/
theorem material_injective (domain : List UInt8) :
    Function.Injective (material domain) := by
  intro left right h
  -- As many bytes belong to either label, so the fields stand at the same places.
  have hlength : left.label.length = right.label.length := by
    have htotal := congrArg List.length h
    rw [length_material, length_material] at htotal
    omega
  unfold material at h
  rw [hlength] at h
  obtain ⟨h, hindex⟩ := List.append_inj' h rfl
  obtain ⟨h, hminute⟩ := List.append_inj' h (by simp only [length_little_endian])
  have hlabel := (List.append_inj' h hlength).2
  cases left
  cases right
  simp only [mk.injEq]
  exact ⟨hlabel, little_endian_injective hminute, List.singleton_inj.1 hindex⟩

/-- The byte strings of a slot begin with their domain. -/
theorem take_material (domain : List UInt8) (slot : Slot) {count : Nat}
    (hcount : count ≤ domain.length) : (slot.material domain).take count = domain.take count := by
  simp only [material, List.append_assoc]
  exact List.take_append_of_le_length hcount

/-- The domains of keys and of salts differ early on. -/
theorem domains_differ : keyDomain.take 31 ≠ saltDomain.take 31 := by
  simp only [keyDomain, saltDomain, byte_array_to_list]
  decide

/-- What is hashed for the key of a slot is not what is hashed for the salt of any. -/
theorem key_material_ne_salt_material (left right : Slot) :
    left.material keyDomain ≠ right.material saltDomain := by
  have hlengths : keyDomain.length = 31 ∧ saltDomain.length = 32 := by
    simp only [keyDomain, saltDomain, byte_array_to_list]
    decide
  intro h
  refine domains_differ ?_
  rw [← take_material keyDomain left (by omega), ← take_material saltDomain right (by omega), h]

/-- The byte strings that are hashed for some slots. -/
def hashed (slots : Set Slot) : Set (List UInt8) :=
  {bytes | ∃ slot ∈ slots, bytes = slot.material keyDomain ∨ bytes = slot.material saltDomain}

/-- The byte strings that are hashed for the keys of slots and for their salts are all different,
whatever the labels of the slots hold. So where the digest has no collision among those of some
slots, no two of these have a salt or a key in common, and none has the salt of another as its key
or the same address. -/
theorem derivation_separates :
    (∀ left right : Slot, (left.material keyDomain = right.material keyDomain ↔ left = right) ∧
      (left.material saltDomain = right.material saltDomain ↔ left = right) ∧
      left.material keyDomain ≠ right.material saltDomain) ∧
    ∀ slots : Set Slot, Set.InjOn Digest.Sha256.digest (hashed slots) →
      Set.InjOn salt slots ∧ Set.InjOn keySeed slots ∧ Set.InjOn layout.address slots ∧
      ∀ left ∈ slots, ∀ right ∈ slots, left.keySeed ≠ right.salt := by
  refine ⟨fun left right => ⟨(material_injective _).eq_iff, (material_injective _).eq_iff,
    key_material_ne_salt_material left right⟩, fun slots hcollision => ?_⟩
  have hkey : ∀ slot ∈ slots, slot.material keyDomain ∈ hashed slots :=
    fun slot hslot => ⟨slot, hslot, .inl rfl⟩
  have hsalt : ∀ slot ∈ slots, slot.material saltDomain ∈ hashed slots :=
    fun slot hslot => ⟨slot, hslot, .inr rfl⟩
  have hsalts : Set.InjOn salt slots := fun left hleft right hright heq =>
    material_injective _ (hcollision (hsalt left hleft) (hsalt right hright) heq)
  refine ⟨hsalts, fun left hleft right hright heq => ?_, fun left hleft right hright heq => ?_,
    fun left hleft right hright heq => ?_⟩
  · exact material_injective _ (hcollision (hkey left hleft) (hkey right hright) heq)
  · exact hsalts hleft hright (congrArg SlotAddress.salt heq)
  · exact key_material_ne_salt_material left right
      (hcollision (hkey left hleft) (hsalt right hright) heq)

/-- A slot whose label is empty. -/
def unlabelled : Slot :=
  ⟨[], 0, 1⟩

/-- A slot whose label is the byte that is the number of the other one. -/
def imitating : Slot :=
  ⟨[1], 0, 0⟩

/-- The digest has no collision among the byte strings of these two slots, so their salts differ. -/
theorem derivation_separates_imitating :
    Set.InjOn Digest.Sha256.digest (hashed {unlabelled, imitating}) ∧
      unlabelled.salt ≠ imitating.salt := by
  have hcollision : Set.InjOn Digest.Sha256.digest (hashed {unlabelled, imitating}) := by
    have hdistinct : ([unlabelled.material keyDomain, unlabelled.material saltDomain,
        imitating.material keyDomain, imitating.material saltDomain].map
          Digest.Sha256.digest).Nodup := by
      simp only [material, keyDomain, saltDomain, byte_array_to_list]
      decide +kernel
    have hlisted : ∀ bytes ∈ hashed {unlabelled, imitating},
        bytes ∈ [unlabelled.material keyDomain, unlabelled.material saltDomain,
          imitating.material keyDomain, imitating.material saltDomain] := by
      rintro bytes ⟨slot, rfl | rfl, rfl | rfl⟩ <;> simp
    intro left hleft right hright heq
    exact List.inj_on_of_nodup_map hdistinct (hlisted left hleft) (hlisted right hright) heq
  refine ⟨hcollision, fun heq => ?_⟩
  have hsalts := (derivation_separates.2 {unlabelled, imitating} hcollision).1
  exact absurd (hsalts (.inl rfl) (.inr rfl) heq) (by decide)

end Slot

end PeerFinder.Rendezvous
