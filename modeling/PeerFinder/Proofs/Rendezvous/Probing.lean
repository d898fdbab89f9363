import Mathlib.Data.Nat.ModEq
import Mathlib.Data.Set.Function
import PeerFinder.Proofs.Record.RoundTrip
import PeerFinder.Rendezvous.Claim

/-!
# What a claim does

A claim meets the slots of its minute in a circle and settles on the first one that no other node
holds. `Claim.step_moves` lists all that one step can do, and `Claim.run_settles` what becomes of a
claim that nothing interrupts. A table is seen through `SlotTable.holder?`, the node whose record a
slot holds; reading a slot does not change it.
-/

namespace PeerFinder.Rendezvous

variable {κ : Type} [DecidableEq κ]

namespace SlotTable

/-- The record in a slot, if it holds one that can be read. -/
def record? (table : SlotTable κ) (slot : Slot) : Option ProviderRecord :=
  (table.store.item? (table.layout.address slot)).bind fun item =>
    (ProviderRecord.decode item.value).toOption

/-- The node whose record is in a slot. -/
def holder? (table : SlotTable κ) (slot : Slot) : Option (List UInt8) :=
  (table.record? slot).map ProviderRecord.nodeId

/-- Whether a slot holds the record of another node than this one. -/
def IsTaken (table : SlotTable κ) (slot : Slot) (node : List UInt8) : Prop :=
  ∃ other, table.holder? slot = some other ∧ other ≠ node

/-- Two tables agree if they differ at most in how their stores were used. -/
structure Agrees (left right : SlotTable κ) : Prop where
  layout_eq : right.layout = left.layout
  slots_eq : right.slots = left.slots
  items_eq : right.store.items = left.store.items
  online_eq : right.store.online = left.store.online

omit [DecidableEq κ] in
/-- A table agrees with itself. -/
theorem Agrees.refl (table : SlotTable κ) : Agrees table table :=
  ⟨rfl, rfl, rfl, rfl⟩

omit [DecidableEq κ] in
/-- Agreement passes on. -/
theorem Agrees.trans {first second third : SlotTable κ} (hleft : Agrees first second)
    (hright : Agrees second third) : Agrees first third where
  layout_eq := hright.layout_eq.trans hleft.layout_eq
  slots_eq := hright.slots_eq.trans hleft.slots_eq
  items_eq := hright.items_eq.trans hleft.items_eq
  online_eq := hright.online_eq.trans hleft.online_eq

/-- Tables that agree hold the same items. -/
theorem Agrees.item_eq {left right : SlotTable κ} (h : Agrees left right) (address : κ) :
    right.store.item? address = left.store.item? address := by
  simp only [ItemStore.item?, h.items_eq]

/-- Tables that agree hold the same records. -/
theorem Agrees.record_eq {left right : SlotTable κ} (h : Agrees left right) (slot : Slot) :
    right.record? slot = left.record? slot := by
  simp only [record?, h.layout_eq, h.item_eq]

/-- Slots of tables that agree are held by the same nodes. -/
theorem Agrees.holder_eq {left right : SlotTable κ} (h : Agrees left right) (slot : Slot) :
    right.holder? slot = left.holder? slot := by
  simp only [holder?, h.record_eq]

/-- Slots of tables that agree are taken alike. -/
theorem Agrees.is_taken_iff {left right : SlotTable κ} (h : Agrees left right) (slot : Slot)
    (node : List UInt8) : right.IsTaken slot node ↔ left.IsTaken slot node := by
  simp only [IsTaken, h.holder_eq]

/-- Tables that agree take the same items. -/
theorem Agrees.accepts_eq {left right : SlotTable κ} (h : Agrees left right) (address : κ)
    (item : Item) : right.store.accepts address item = left.store.accepts address item := by
  simp only [ItemStore.accepts, h.item_eq]

/-- Tables that agree refuse the same items. -/
theorem Agrees.put_error_iff {left right : SlotTable κ} (h : Agrees left right) (address : κ)
    (item : Item) (error : Error) :
    right.store.put address item = .error error ↔ left.store.put address item = .error error := by
  simp only [ItemStore.put, h.online_eq, h.accepts_eq]
  split
  · rfl
  · split <;> simp

/-- The table after a slot was read. -/
def read (table : SlotTable κ) (slot : Slot) : SlotTable κ :=
  { table with store := (table.store.get (table.layout.address slot)).2 }

/-- Reading a slot changes nothing but the uses of the store. -/
theorem agrees_read (table : SlotTable κ) (slot : Slot) : Agrees table (table.read slot) :=
  ⟨rfl, rfl, rfl, rfl⟩

/-- The table with an item in a slot. -/
def withItem (table : SlotTable κ) (slot : Slot) (item : Item) : SlotTable κ :=
  { table with store := table.store.insert (table.layout.address slot) item }

/-- Tables that agree still do so when the same item is put into the same slot. -/
theorem Agrees.with_item {left right : SlotTable κ} (h : Agrees left right) (slot : Slot)
    (item : Item) : Agrees (left.withItem slot item) (right.withItem slot item) where
  layout_eq := h.layout_eq
  slots_eq := h.slots_eq
  items_eq := by simp only [withItem, ItemStore.insert, ItemStore.erase, h.items_eq, h.layout_eq]
  online_eq := h.online_eq

end SlotTable

namespace Claim

open SlotTable

/-- The slot that is so many steps from the one a node tries first, which is where a claim of the node
probes. -/
def circle (node : List UInt8) (minute : Minute) (slots offset : Nat) : UInt8 :=
  UInt8.ofNat ((firstSlot node minute slots + offset) % slots)

section Circle

variable {node : List UInt8} {minute : Minute} {slots : Nat}

/-- The numbers of slots fit a byte. -/
theorem circle_to_nat (hpos : 0 < slots) (hle : slots ≤ 255) (offset : Nat) :
    (circle node minute slots offset).toNat = (firstSlot node minute slots + offset) % slots := by
  have hlt : (firstSlot node minute slots + offset) % slots < slots := Nat.mod_lt _ hpos
  rw [circle, UInt8.toNat_ofNat']
  exact Nat.mod_eq_of_lt (by omega)

/-- A circle stays among the slots. -/
theorem circle_lt (hpos : 0 < slots) (hle : slots ≤ 255) (offset : Nat) :
    (circle node minute slots offset).toNat < slots := by
  rw [circle_to_nat hpos hle]
  exact Nat.mod_lt _ hpos

/-- A circle meets no slot twice. -/
theorem circle_injective (hpos : 0 < slots) (hle : slots ≤ 255) {left right : Nat}
    (hleft : left < slots) (hright : right < slots)
    (h : circle node minute slots left = circle node minute slots right) : left = right := by
  have hnat := congrArg UInt8.toNat h
  rw [circle_to_nat hpos hle, circle_to_nat hpos hle] at hnat
  have hmod : left ≡ right [MOD slots] := Nat.ModEq.add_left_cancel' _ hnat
  rwa [Nat.ModEq, Nat.mod_eq_of_lt hleft, Nat.mod_eq_of_lt hright] at hmod

/-- A circle meets every slot. -/
theorem exists_circle_eq (node : List UInt8) (minute : Minute) (hpos : 0 < slots)
    (hle : slots ≤ 255) {index : UInt8} (hindex : index.toNat < slots) :
    ∃ offset < slots, circle node minute slots offset = index := by
  have hfirst : firstSlot node minute slots < slots := Nat.mod_lt _ hpos
  refine ⟨(index.toNat + (slots - firstSlot node minute slots)) % slots, Nat.mod_lt _ hpos, ?_⟩
  apply UInt8.toNat_inj.1
  rw [circle_to_nat hpos hle, Nat.add_mod_mod]
  rw [show firstSlot node minute slots + (index.toNat + (slots - firstSlot node minute slots)) =
    index.toNat + slots by omega, Nat.add_mod_right, Nat.mod_eq_of_lt hindex]

end Circle

/-- The item that a claim writes into a slot. -/
def item (claim : Claim) (layout : Layout κ) (index : UInt8) (sequence : Int) : Item :=
  ⟨sequence, claim.record.encode,
    layout.sign (claim.slot index) sequence claim.record.encode⟩

/-- What one step of a claim can do to a table, and what is left of the claim. -/
inductive Moves (claim : Claim) (table : SlotTable κ) :
    SlotTable κ → Claim ⊕ Except Error UInt8 → Prop where
  /-- The circle is closed. -/
  | full (offset : Nat) (hpoint : claim.point = .probing offset) (hend : table.slots ≤ offset) :
      Moves claim table table (.inr (.error (allTaken table.slots)))
  /-- A slot is held by another node. -/
  | passed (offset : Nat) (after : SlotTable κ) (hpoint : claim.point = .probing offset)
      (hlt : offset < table.slots)
      (htaken : table.IsTaken (claim.slot (claim.probe table.slots offset)) claim.record.nodeId)
      (hagrees : Agrees table after) :
      Moves claim table after (.inl { claim with point := .probing (offset + 1) })
  /-- A slot is found free. -/
  | found (offset : Nat) (after : SlotTable κ) (hpoint : claim.point = .probing offset)
      (hlt : offset < table.slots)
      (hfree : ¬ table.IsTaken (claim.slot (claim.probe table.slots offset)) claim.record.nodeId)
      (hagrees : Agrees table after) :
      Moves claim table after (.inl { claim with
        point := .writing (claim.probe table.slots offset)
          (sequenceAfter (table.store.item?
            (table.layout.address (claim.slot (claim.probe table.slots offset)))) claim.record) })
  /-- The slot is written. -/
  | stored (index : UInt8) (sequence : Int) (after : SlotTable κ)
      (hpoint : claim.point = .writing index sequence)
      (haccepts : table.store.accepts (table.layout.address (claim.slot index))
        (claim.item table.layout index sequence) = true)
      (hagrees : Agrees (table.withItem (claim.slot index)
        (claim.item table.layout index sequence)) after) :
      Moves claim table after (.inr (.ok index))
  /-- The store does not take the item. -/
  | refused (index : UInt8) (sequence : Int) (error : Error)
      (hpoint : claim.point = .writing index sequence)
      (hput : table.store.put (table.layout.address (claim.slot index))
        (claim.item table.layout index sequence) = .error error) :
      Moves claim table table (.inr (.error error))

/-- An item is foreign exactly if the slot is taken. -/
theorem any_is_foreign_iff (table : SlotTable κ) (slot : Slot) (record : ProviderRecord) :
    (table.store.item? (table.layout.address slot)).any (isForeign record) = true ↔
      table.IsTaken slot record.nodeId := by
  simp only [IsTaken, holder?, SlotTable.record?]
  cases hitem : table.store.item? (table.layout.address slot) with
  | none => simp
  | some item =>
      cases hdecode : ProviderRecord.decode item.value with
      | ok held => simp [isForeign, hdecode, Except.toOption]
      | error fault => simp [isForeign, hdecode, Except.toOption]

/-- A put that a store takes is the insertion of the item. -/
theorem agrees_of_put {table : SlotTable κ} {slot : Slot} {item : Item} {store : ItemStore κ}
    (hput : table.store.put (table.layout.address slot) item = .ok store) :
    table.store.accepts (table.layout.address slot) item = true ∧
      Agrees (table.withItem slot item) { table with store := store } := by
  simp only [ItemStore.put] at hput
  split at hput
  · cases hput
  · split at hput
    · cases hput
    · rename_i hnot
      cases hput
      exact ⟨by simpa using hnot, ⟨rfl, rfl, rfl, rfl⟩⟩

/-- A claim never waits, and its steps do what `Moves` lists. -/
theorem step_moves (now : Clock.Instant) (table : Noted (SlotTable κ)) (claim : Claim) :
    ∃ after next, step now table claim = some (after, next) ∧
      Moves claim table.state after.state next := by
  cases hpoint : claim.point with
  | probing offset =>
      by_cases hend : table.state.slots ≤ offset
      · exact ⟨_, _, by simp only [step, hpoint, hend, if_true], .full offset hpoint hend⟩
      · have hlt : offset < table.state.slots := Nat.lt_of_not_le hend
        let index := claim.probe table.state.slots offset
        let slot := claim.slot index
        have hforeign := any_is_foreign_iff table.state slot claim.record
        by_cases htaken : table.state.IsTaken slot claim.record.nodeId
        · refine ⟨(table.modify (·.read slot)).note now (.slotTaken index.toNat), _, ?_,
            .passed offset _ hpoint hlt htaken (agrees_read _ slot)⟩
          simp only [step, hpoint, hend, if_false, ItemStore.get]
          exact if_pos (hforeign.2 htaken)
        · refine ⟨table.modify (·.read slot), _, ?_,
            .found offset _ hpoint hlt htaken (agrees_read _ slot)⟩
          simp only [step, hpoint, hend, if_false, ItemStore.get]
          exact if_neg (mt hforeign.1 htaken)
  | writing index sequence =>
      cases hput : table.state.store.put (table.state.layout.address (claim.slot index))
          (claim.item table.state.layout index sequence) with
      | ok store =>
          obtain ⟨haccepts, hagrees⟩ := agrees_of_put hput
          refine ⟨table.modify ({ · with store := store }), .inr (.ok index), ?_,
            .stored index sequence _ hpoint haccepts hagrees⟩
          unfold item at hput
          simp only [step, hpoint, hput]
      | error error =>
          refine ⟨table, .inr (.error error), ?_, .refused index sequence error hpoint hput⟩
          unfold item at hput
          simp only [step, hpoint, hput]

/-- What becomes of a claim that nothing interrupts: it settles on the first slot of its circle that
no other node holds. -/
inductive Settles (claim : Claim) (table : SlotTable κ) :
    Except Error UInt8 → SlotTable κ → Prop where
  /-- Every slot is held by another node. -/
  | full (after : SlotTable κ)
      (htaken : ∀ offset < table.slots,
        table.IsTaken (claim.slot (claim.probe table.slots offset)) claim.record.nodeId)
      (hagrees : Agrees table after) :
      Settles claim table (.error (allTaken table.slots)) after
  /-- The slot that so many steps lead to is written. -/
  | stored (offset : Nat) (item : Item) (after : SlotTable κ) (hlt : offset < table.slots)
      (htaken : ∀ earlier < offset,
        table.IsTaken (claim.slot (claim.probe table.slots earlier)) claim.record.nodeId)
      (hfree : ¬ table.IsTaken (claim.slot (claim.probe table.slots offset)) claim.record.nodeId)
      (hitem : item = claim.item table.layout (claim.probe table.slots offset)
        (sequenceAfter (table.store.item?
          (table.layout.address (claim.slot (claim.probe table.slots offset)))) claim.record))
      (haccepts : table.store.accepts
        (table.layout.address (claim.slot (claim.probe table.slots offset))) item = true)
      (hagrees : Agrees (table.withItem (claim.slot (claim.probe table.slots offset)) item) after) :
      Settles claim table (.ok (claim.probe table.slots offset)) after
  /-- The store does not take the item for that slot. -/
  | refused (offset : Nat) (item : Item) (after : SlotTable κ) (error : Error)
      (hlt : offset < table.slots)
      (htaken : ∀ earlier < offset,
        table.IsTaken (claim.slot (claim.probe table.slots earlier)) claim.record.nodeId)
      (hfree : ¬ table.IsTaken (claim.slot (claim.probe table.slots offset)) claim.record.nodeId)
      (hitem : item = claim.item table.layout (claim.probe table.slots offset)
        (sequenceAfter (table.store.item?
          (table.layout.address (claim.slot (claim.probe table.slots offset)))) claim.record))
      (hput : table.store.put
        (table.layout.address (claim.slot (claim.probe table.slots offset))) item = .error error)
      (hagrees : Agrees table after) :
      Settles claim table (.error error) after

/-- A claim that is about to write ends with its next step. -/
theorem run_call_writing (now : Clock.Instant) (budget : Nat) (table : Noted (SlotTable κ))
    (claim : Claim) {index : UInt8} {sequence : Int}
    (hpoint : claim.point = .writing index sequence) :
    ∃ result, (Activity.runCall (step now) (budget + 1) table claim).call = .inr result ∧
      Moves claim table.state (Activity.runCall (step now) (budget + 1) table claim).state.state
        (.inr result) := by
  obtain ⟨⟨state, journal⟩, next, hstep, hmoves⟩ := step_moves now table claim
  simp only [Activity.runCall, hstep]
  cases next with
  | inr result => exact ⟨result, rfl, hmoves⟩
  | inl later =>
      -- Only a claim that probes goes on.
      cases hmoves with
      | passed _ _ hprobing | found _ _ hprobing =>
          rw [hpoint] at hprobing
          cases hprobing

/-- A claim that has found the slot free which so many steps lead to. -/
def writingAt (claim : Claim) (table : SlotTable κ) (offset : Nat) : Claim :=
  { claim with
    point := .writing (claim.probe table.slots offset)
      (sequenceAfter (table.store.item? (table.layout.address
        (claim.slot (claim.probe table.slots offset)))) claim.record) }

/-- A claim that has found the first slot which no other node holds settles when it ends, if its
table differs from the first one only by how it was read. -/
theorem Moves.settles {claim : Claim} {origin table after : SlotTable κ} {offset : Nat}
    {result : Except Error UInt8}
    (hmoves : Moves (claim.writingAt origin offset) table after (.inr result))
    (hagrees : Agrees origin table) (hlt : offset < origin.slots)
    (htaken : ∀ earlier < offset,
      origin.IsTaken (claim.slot (claim.probe origin.slots earlier)) claim.record.nodeId)
    (hfree : ¬ origin.IsTaken (claim.slot (claim.probe origin.slots offset)) claim.record.nodeId) :
    Settles claim origin result after := by
  cases hmoves with
  | full met hpoint => cases hpoint
  | stored index sequence _ hpoint haccepts hwritten =>
      cases hpoint
      rw [hagrees.layout_eq, hagrees.accepts_eq] at haccepts
      rw [hagrees.layout_eq] at hwritten
      exact .stored offset _ _ hlt htaken hfree rfl haccepts
        ((hagrees.with_item _ _).trans hwritten)
  | refused index sequence error hpoint hput =>
      cases hpoint
      rw [hagrees.layout_eq, hagrees.put_error_iff] at hput
      exact .refused offset _ _ error hlt htaken hfree rfl hput hagrees

/-- A claim that probes, having met only slots of other nodes so far, settles if the budget covers
the slots that are left. The table differs from the first one only by how it was read. -/
theorem run_call_settles (now : Clock.Instant) (claim : Claim) (origin : SlotTable κ)
    (budget offset : Nat) (table : Noted (SlotTable κ)) (hagrees : Agrees origin table.state)
    (htaken : ∀ earlier < offset,
      origin.IsTaken (claim.slot (claim.probe origin.slots earlier)) claim.record.nodeId)
    (hoffset : offset ≤ origin.slots) (hbudget : origin.slots + 2 ≤ offset + budget) :
    ∃ result, (Activity.runCall (step now) budget table
        { claim with point := .probing offset }).call = .inr result ∧
      Settles claim origin result (Activity.runCall (step now) budget table
        { claim with point := .probing offset }).state.state := by
  -- On the steps left: a probe uses one and moves one slot on, and the write uses the last two.
  induction budget generalizing offset table with
  | zero => omega
  | succ budget ih =>
      obtain ⟨⟨state, journal⟩, next, hstep, hmoves⟩ :=
        step_moves now table { claim with point := .probing offset }
      simp only [Activity.runCall, hstep]
      cases hmoves with
      | full met hpoint hend =>
          cases hpoint
          rw [hagrees.slots_eq] at hend ⊢
          refine ⟨_, rfl, .full _ (fun other hother => htaken other ?_) hagrees⟩
          omega
      | passed met state hpoint hlt hnow hread =>
          cases hpoint
          have htaken : ∀ earlier < offset + 1,
              origin.IsTaken (claim.slot (claim.probe origin.slots earlier))
                claim.record.nodeId := by
            intro earlier hearlier
            rcases Nat.lt_succ_iff_lt_or_eq.1 hearlier with hearlier | rfl
            · exact htaken earlier hearlier
            · rw [← hagrees.slots_eq]
              exact (hagrees.is_taken_iff _ _).1 hnow
          rw [hagrees.slots_eq] at hlt
          exact ih (offset + 1) ⟨state, journal⟩ (hagrees.trans hread) htaken hlt (by omega)
      | found met state hpoint hlt hfree hread =>
          cases hpoint
          rw [hagrees.slots_eq] at hlt hfree
          rw [hagrees.is_taken_iff] at hfree
          have hread := hagrees.trans hread
          -- The slot is written with the next step, before anything else happens.
          obtain ⟨budget, rfl⟩ : ∃ left, budget = left + 1 := ⟨budget - 1, by omega⟩
          obtain ⟨result, hcall, hmoves⟩ := run_call_writing now budget ⟨state, journal⟩
            (claim.writingAt origin offset) rfl
          simp only [hagrees.slots_eq, hagrees.layout_eq, hagrees.item_eq]
          exact ⟨result, hcall, hmoves.settles hread hlt htaken hfree⟩
      | stored index sequence after hpoint => cases hpoint
      | refused index sequence error hpoint => cases hpoint

/-- A claim that nothing interrupts settles, from its first slot on. -/
theorem run_settles (now : Clock.Instant) (claim : Claim) (hpoint : claim.point = .probing 0)
    (table : Noted (SlotTable κ)) :
    Settles claim table.state (claim.run now table).1 (claim.run now table).2.state := by
  have hclaim : { claim with point := .probing 0 } = claim := by
    rw [← hpoint]
  obtain ⟨result, hcall, hsettles⟩ := run_call_settles now claim table.state
    (table.state.slots + 2) 0 table (.refl _) (fun _ h => absurd h (Nat.not_lt_zero _))
    (Nat.zero_le _) (by omega)
  rw [hclaim] at hcall hsettles
  simp only [run, hcall]
  exact hsettles

/-- A store takes an item with the sequence number of its successor, unless the number of the item
held is the last one. -/
theorem accepts_sequence_after {table : SlotTable κ} {slot : Slot} {item : Item}
    {record : ProviderRecord}
    (hheld : ∀ held, table.store.item? (table.layout.address slot) = some held →
      held.sequence < lastSequence)
    (hitem : item.sequence =
      sequenceAfter (table.store.item? (table.layout.address slot)) record) :
    table.store.accepts (table.layout.address slot) item = true := by
  rw [ItemStore.accepts, hitem]
  cases h : table.store.item? (table.layout.address slot) with
  | none => rfl
  | some held =>
      have hlt : held.sequence < min (held.sequence + 1) lastSequence :=
        lt_min (by omega) (hheld held h)
      rw [Option.all_some, decide_eq_true_eq, sequenceAfter, Option.elim_some]
      exact lt_max_of_lt_left hlt

/-- A time as a sequence number is at most the last one. -/
theorem stamp_le (publishedAt : UInt64) : stamp publishedAt ≤ lastSequence := by
  unfold stamp lastSequence
  rw [Int.bmod_def]
  push_cast
  split_ifs <;> omega

/-- No sequence number is past the last one. -/
theorem sequence_after_le (held : Option Item) (record : ProviderRecord) :
    sequenceAfter held record ≤ lastSequence := by
  cases held with
  | none => exact max_le (show (0 : Int) ≤ 2 ^ 63 - 1 by decide) (stamp_le _)
  | some item => exact max_le (min_le_right _ _) (stamp_le _)

end Claim

end PeerFinder.Rendezvous
