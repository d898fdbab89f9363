import PeerFinder.Proofs.Rendezvous.Directory

/-!
# Records that replace others

A record goes into the first slot that no other node holds, with a sequence number past that of the
item which it replaces. Sequence numbers end at `Claim.lastSequence`: an item that holds this one
cannot be replaced, and this is all that a store which is online ever refuses
(`History.run_replaces_by_larger`). A table that holds no number past a bound (`SlotTable.HoldsUpTo`)
holds none past the next number after one more record, so that records that are not published close
to the last number are never refused (`History.run_accepts_of_early`).
-/

namespace PeerFinder.Rendezvous

variable {κ : Type} [DecidableEq κ]

/-- What an online store says of an item that it does not accept. -/
theorem ItemStore.put_of_not_accepts {store : ItemStore κ} {address : κ} {item : Item}
    (honline : store.online = true) (hrefuses : ¬ store.accepts address item = true) :
    store.put address item = .error (.dht "sequence number too old") := by
  simp [put, honline, hrefuses]

/-- What an online store does not take it does not accept. -/
theorem ItemStore.not_accepts_of_put_error {store : ItemStore κ} {address : κ} {item : Item}
    {error : Error} (honline : store.online = true)
    (hput : store.put address item = .error error) : ¬ store.accepts address item = true := by
  intro haccepts
  obtain ⟨accesses, htook⟩ := put_of_accepts honline haccepts
  rw [htook] at hput
  cases hput

/-- The number of a record is larger than that of the item it replaces, unless that is the last
one. -/
theorem Claim.lt_sequence_after {held : Item} (hlt : held.sequence < lastSequence)
    (record : ProviderRecord) : held.sequence < sequenceAfter (some held) record :=
  lt_max_of_lt_left (lt_min (Int.lt_succ _) hlt)

/-- Nothing replaces an item with the last number. -/
theorem Claim.not_accepts_after_last {table : SlotTable κ} {slot : Slot} {item held : Item}
    {record : ProviderRecord}
    (hheld : table.store.item? (table.layout.address slot) = some held)
    (hlast : held.sequence = lastSequence)
    (hitem : item.sequence =
      sequenceAfter (table.store.item? (table.layout.address slot)) record) :
    ¬ table.store.accepts (table.layout.address slot) item = true := by
  rw [ItemStore.accepts, hheld, Option.all_some, decide_eq_true_eq, hitem, hlast, not_lt]
  exact sequence_after_le _ _

/-- The number of a record that replaces an item is at most the next one or that which the record
would have in an empty slot. -/
theorem Claim.sequence_after_some_le (held : Item) (record : ProviderRecord) :
    sequenceAfter (some held) record ≤ max (held.sequence + 1) (sequenceAfter none record) :=
  max_le_max (min_le_left _ _) (le_max_right _ _)

namespace SlotTable

/-- Whether a table can be written and holds no sequence number past a bound. -/
structure HoldsUpTo (table : SlotTable κ) (bound : Int) : Prop where
  online : table.store.online = true
  sequence_le : ∀ address item, table.store.item? address = some item → item.sequence ≤ bound

/-- The item in the slot that so many steps lead a node to. -/
def itemAt? (table : SlotTable κ) (call : Provision) (offset : Nat) : Option Item :=
  table.store.item? (table.layout.address (slotOf call.label call.minute
    (Claim.circle call.node call.minute table.slots offset)))

/-- The table with a record in the slot that so many steps lead its node to. -/
def withRecord (table : SlotTable κ) (call : Provision) (offset : Nat) : SlotTable κ :=
  let index := Claim.circle call.node call.minute table.slots offset
  table.withItem (slotOf call.label call.minute index)
    (call.claim.item table.layout index
      (Claim.sequenceAfter (table.itemAt? call offset) call.record))

variable {table : SlotTable κ} {call : Provision}

/-- There is one first slot that no other node holds. -/
theorem IsFirstFree.unique {left right : Nat} (hleft : table.IsFirstFree call left)
    (hright : table.IsFirstFree call right) : left = right := by
  rcases lt_trichotomy left right with hlt | heq | hlt
  · exact absurd (hright.taken left hlt) hleft.free
  · exact heq
  · exact absurd (hleft.taken right hlt) hright.free

namespace HoldsUpTo

variable {bound : Int}

/-- A table without items holds no sequence number at all. -/
theorem empty (layout : Layout κ) (slots : Nat) (bound : Int) :
    (SlotTable.withSlots layout slots {}).HoldsUpTo bound where
  online := rfl
  sequence_le _ _ h := by cases h

/-- What a table holds does not depend on how its store was used. -/
theorem congr (h : table.HoldsUpTo bound) {after : SlotTable κ} (hagrees : Agrees table after) :
    after.HoldsUpTo bound where
  online := hagrees.online_eq.trans h.online
  sequence_le address item hitem := h.sequence_le address item (hagrees.item_eq address ▸ hitem)

/-- A larger bound holds too. -/
theorem mono (h : table.HoldsUpTo bound) {larger : Int} (hle : bound ≤ larger) :
    table.HoldsUpTo larger where
  online := h.online
  sequence_le address item hitem := (h.sequence_le address item hitem).trans hle

/-- An item with a number within the bound may be put anywhere. -/
theorem with_item (h : table.HoldsUpTo bound) (slot : Slot) {item : Item}
    (hitem : item.sequence ≤ bound) : (table.withItem slot item).HoldsUpTo bound where
  online := h.online
  sequence_le address held hheld := by
    by_cases haddress : address = table.layout.address slot
    · rw [haddress, withItem, ItemStore.item_insert_self] at hheld
      cases hheld
      exact hitem
    · rw [withItem, ItemStore.item_insert_of_ne _ _ haddress] at hheld
      exact h.sequence_le address held hheld

/-- A record with a number within the bound may be put anywhere. -/
theorem with_record (h : table.HoldsUpTo bound) {offset : Nat}
    (hrecord : Claim.sequenceAfter (table.itemAt? call offset) call.record ≤ bound) :
    (table.withRecord call offset).HoldsUpTo bound :=
  h.with_item _ hrecord

/-- One more record raises the bound by one, if in an empty slot its number would be within it. -/
theorem with_next_record (h : table.HoldsUpTo bound)
    (hrecord : Claim.sequenceAfter none call.record ≤ bound + 1) (offset : Nat) :
    (table.withRecord call offset).HoldsUpTo (bound + 1) := by
  refine (h.mono (Int.le_add_one le_rfl)).with_record ?_
  cases hheld : table.itemAt? call offset with
  | none => exact hrecord
  | some held =>
      exact (Claim.sequence_after_some_le held call.record).trans
        (max_le (Int.add_le_add_right (h.sequence_le _ held hheld) 1) hrecord)

end HoldsUpTo

end SlotTable

namespace Provision

open SlotTable

variable {table : SlotTable κ} {call : Provision}

/-- The answer of a store that holds the number of an item already, or a larger one. -/
def outdated : Provide :=
  .answered (.error (.dht "sequence number too old"))

/-- The answer for lack of room is another one. -/
theorem all_taken_ne_outdated (slots : Nat) :
    Provide.answered (.error (Claim.allTaken slots)) ≠ outdated := by
  intro h
  rw [outdated, Provide.answered.injEq, Except.error.injEq, Claim.allTaken, Error.dht.injEq] at h
  have hhead := congrArg (fun text => text.toList.head?) h
  have hfirst : (toString "all ").toList.head? = some 'a' := by decide
  have hother : "sequence number too old".toList.head? = some 's' := by decide
  rw [String.toList_append, String.toList_append, List.head?_append, List.head?_append, hfirst,
    Option.some_or, Option.some_or, hother] at hhead
  exact absurd hhead (by decide)

/-- What comes of a record that is handed in to a table: the answer, and what the table is then. -/
inductive Replaces (call : Provision) (table : SlotTable κ) : Provide → SlotTable κ → Prop where
  /-- Every slot is held by another node. -/
  | full (after : SlotTable κ)
      (hroom : ¬ table.HasRoomFor call.label call.minute call.node)
      (hagrees : Agrees table after) :
      Replaces call table (.answered (.error (Claim.allTaken table.slots))) after
  /-- The record goes into the first free slot, with a larger number than what it replaces. -/
  | stored (offset : Nat) (after : SlotTable κ) (hfirst : table.IsFirstFree call offset)
      (hlarger : ∀ held, table.itemAt? call offset = some held →
        held.sequence < Claim.sequenceAfter (some held) call.record)
      (hagrees : Agrees (table.withRecord call offset) after) :
      Replaces call table (.answered (.ok ())) after
  /-- What is in the first free slot has the last number. -/
  | refused (offset : Nat) (held : Item) (after : SlotTable κ)
      (hfirst : table.IsFirstFree call offset) (hheld : table.itemAt? call offset = some held)
      (hlast : held.sequence = Claim.lastSequence) (hagrees : Agrees table after) :
      Replaces call table outdated after

/-- A table that can be written answers by what is in the first free slot. -/
theorem provide_replaces (h : table.HoldsUpTo Claim.lastSequence) (call : Provision)
    (journal : Journal) :
    ∃ after, (call.provide ⟨.slotted table, journal⟩).2.state = .slotted after ∧
      call.Replaces table (call.provide ⟨.slotted table, journal⟩).1 after := by
  obtain ⟨result, after, notes, hprovide, hsettles⟩ := provide_settles call table journal
  rw [hprovide]
  refine ⟨after, rfl, ?_⟩
  cases hsettles with
  | full _ htaken hagrees => exact .full after (not_has_room_for htaken) hagrees
  | stored offset item _ hlt htaken hfree hitem haccepts hagrees =>
      have hsequence : item.sequence =
          Claim.sequenceAfter (table.itemAt? call offset) call.record := by rw [hitem]; rfl
      subst hitem
      refine .stored offset after ⟨hlt, htaken, hfree⟩ (fun held hheld => ?_) hagrees
      refine Claim.lt_sequence_after (lt_of_le_of_ne (h.sequence_le _ held hheld) fun hlast => ?_) _
      exact Claim.not_accepts_after_last hheld hlast hsequence haccepts
  | refused offset item _ error hlt htaken hfree hitem hput hagrees =>
      have hsequence : item.sequence =
          Claim.sequenceAfter (table.itemAt? call offset) call.record := by rw [hitem]; rfl
      -- An online store refuses only what does not raise the number, which is then the last one.
      have hrefuses := ItemStore.not_accepts_of_put_error h.online hput
      have hspent : ∃ held, table.itemAt? call offset = some held ∧
          held.sequence = Claim.lastSequence := by
        by_contra hnot
        exact hrefuses (Claim.accepts_sequence_after (fun held hheld =>
          lt_of_le_of_ne (h.sequence_le _ held hheld) fun hlast => hnot ⟨held, hheld, hlast⟩)
          hsequence)
      obtain ⟨held, hheld, hlast⟩ := hspent
      rw [ItemStore.put_of_not_accepts h.online hrefuses] at hput
      cases hput
      exact .refused offset held after ⟨hlt, htaken, hfree⟩ hheld hlast hagrees

namespace Replaces

variable {answer : Provide} {after : SlotTable κ}

/-- Handing a record in leaves no number past the last one. -/
theorem holds_up_to_last (hreplaces : call.Replaces table answer after)
    (h : table.HoldsUpTo Claim.lastSequence) : after.HoldsUpTo Claim.lastSequence := by
  cases hreplaces with
  | full _ _ hagrees => exact h.congr hagrees
  | stored offset _ _ _ hagrees =>
      exact (h.with_record (Claim.sequence_after_le _ _)).congr hagrees
  | refused _ _ _ _ _ _ hagrees => exact h.congr hagrees

/-- Handing a record in raises the bound of a table by one at most. -/
theorem holds_up_to (hreplaces : call.Replaces table answer after) {bound : Int}
    (h : table.HoldsUpTo bound) (hrecord : Claim.sequenceAfter none call.record ≤ bound + 1) :
    after.HoldsUpTo (bound + 1) := by
  have hnext := h.mono (Int.le_add_one le_rfl)
  cases hreplaces with
  | full _ _ hagrees => exact hnext.congr hagrees
  | stored offset _ _ _ hagrees => exact (h.with_next_record hrecord offset).congr hagrees
  | refused _ _ _ _ _ _ hagrees => exact hnext.congr hagrees

/-- A record is refused exactly if it would replace an item with the last number. -/
theorem outdated_iff (hreplaces : call.Replaces table answer after) :
    answer = outdated ↔ ∃ offset held, table.IsFirstFree call offset ∧
      table.itemAt? call offset = some held ∧ held.sequence = Claim.lastSequence := by
  cases hreplaces with
  | full _ hroom =>
      refine ⟨fun h => absurd h (all_taken_ne_outdated _), ?_⟩
      rintro ⟨offset, held, hfirst, -⟩
      exact absurd (has_room_for hfirst.free) hroom
  | stored offset _ hfirst hlarger =>
      refine ⟨fun h => (by cases h), ?_⟩
      rintro ⟨other, held, hother, hheld, hlast⟩
      obtain rfl := hfirst.unique hother
      have hlt := hlarger held hheld
      rw [hlast] at hlt
      exact absurd (Claim.sequence_after_le _ _) (not_le.2 hlt)
  | refused offset held _ hfirst hheld hlast =>
      exact ⟨fun _ => ⟨offset, held, hfirst, hheld, hlast⟩, fun _ => rfl⟩

/-- Below the last number a record is taken in or turned down for lack of room. -/
theorem accepted_or_all_taken (hreplaces : call.Replaces table answer after) {bound : Int}
    (h : table.HoldsUpTo bound) (hbound : bound < Claim.lastSequence) :
    answer = .answered (.ok ()) ∨ answer = .answered (.error (Claim.allTaken table.slots)) := by
  cases hreplaces with
  | full => exact .inr rfl
  | stored => exact .inl rfl
  | refused offset held _ _ hheld hlast =>
      exact absurd (hlast ▸ h.sequence_le _ held hheld) (not_le.2 hbound)

/-- The number of slots stays as it is. -/
theorem slots_eq (hreplaces : call.Replaces table answer after) : after.slots = table.slots := by
  cases hreplaces with
  | full _ _ hagrees => exact hagrees.slots_eq
  | stored _ _ _ _ hagrees => exact hagrees.slots_eq
  | refused _ _ _ _ _ _ hagrees => exact hagrees.slots_eq

end Replaces

end Provision

namespace History

open SlotTable

/-- One more record that is handed in replaces what is in the first free slot. -/
theorem next_replaces {history : History κ} {table : SlotTable κ}
    (hstate : history.routing.state = .slotted table) (h : table.HoldsUpTo Claim.lastSequence)
    (call : Provision) :
    ∃ after, (history.next call).routing.state = .slotted after ∧
      call.Replaces table (call.provide history.routing).1 after := by
  obtain ⟨log, state, journal⟩ := history
  cases hstate
  exact Provision.provide_replaces h call journal

/-- Records that are handed in one after another leave no number past the last one. -/
theorem foldl_next_holds_up_to (calls : List Provision) {history : History κ} {table : SlotTable κ}
    (hstate : history.routing.state = .slotted table) (h : table.HoldsUpTo Claim.lastSequence) :
    ∃ after, (calls.foldl next history).routing.state = .slotted after ∧
      after.slots = table.slots ∧ after.HoldsUpTo Claim.lastSequence := by
  induction calls generalizing history table with
  | nil => exact ⟨table, hstate, rfl, h⟩
  | cons call rest ih =>
      obtain ⟨middle, hmiddle, hreplaces⟩ := next_replaces hstate h call
      obtain ⟨after, hafter, hslots, hlast⟩ := ih hmiddle (hreplaces.holds_up_to_last h)
      exact ⟨after, hafter, hslots.trans hreplaces.slots_eq, hlast⟩

/-- Whatever was handed in before, a record that is handed in to a table of its own goes into the
first slot that no other node holds, with a larger number than the item there; it is turned down if
there is no such slot, and refused exactly if the item there has the last number. -/
theorem run_replaces_by_larger (layout : Layout κ) (slots : Nat) (journal : Journal)
    (calls : List Provision) (call : Provision) :
    let history := run calls ⟨.slotted (.withSlots layout slots {}), journal⟩
    let answer := (call.provide history.routing).1
    ∃ table after, history.routing.state = .slotted table ∧
      table.slots = max (min slots 255) 1 ∧
      (history.next call).routing.state = .slotted after ∧ call.Replaces table answer after ∧
      (answer = Provision.outdated ↔ ∃ offset held, table.IsFirstFree call offset ∧
        table.itemAt? call offset = some held ∧ held.sequence = Claim.lastSequence) := by
  intro history answer
  have hempty : (⟨[], ⟨.slotted (.withSlots layout slots {}), journal⟩⟩ : History κ).routing.state =
      .slotted (.withSlots layout slots {}) := rfl
  obtain ⟨table, hstate, hslots, h⟩ :=
    foldl_next_holds_up_to calls hempty (.empty layout slots _)
  obtain ⟨after, hafter, hreplaces⟩ := next_replaces hstate h call
  exact ⟨table, after, hstate, hslots, hafter, hreplaces, hreplaces.outdated_iff⟩

/-- An empty table of two slots, which are kept apart by their numbers. -/
def twoNumbered : Noted (Routing UInt8) :=
  ⟨.slotted (.withSlots ⟨Slot.index, fun _ _ _ => []⟩ 2 {}), []⟩

/-- A record with the last number is refused when it is handed in again. -/
theorem run_last_number :
    (run [.sample 0 (2 ^ 63 - 1), .sample 0 (2 ^ 63 - 1)] twoNumbered).log.map Prod.snd =
      [Provision.outdated, .answered (.ok ())] :=
  rfl

/-- It is not so that records which are handed in one after another are always taken in or turned
down for lack of room. -/
theorem not_run_always_accepts :
    ¬ ∀ calls : List Provision, ∀ answer ∈ (run calls twoNumbered).log.map Prod.snd,
      answer = .answered (.ok ()) ∨ answer = .answered (.error (Claim.allTaken 2)) := by
  intro hall
  have hlast := hall [.sample 0 (2 ^ 63 - 1), .sample 0 (2 ^ 63 - 1)] Provision.outdated
    (by rw [run_last_number]; exact List.mem_cons_self)
  rcases hlast with haccepted | hfull
  · cases haccepted
  · exact Provision.all_taken_ne_outdated 2 hfull.symm

/-- Records that are handed in one after another to a table with room for their numbers are taken in
or turned down for lack of room. -/
theorem foldl_next_accepts (calls : List Provision) {history : History κ} {table : SlotTable κ}
    {bound : Int} (hstate : history.routing.state = .slotted table) (h : table.HoldsUpTo bound)
    (hbound : bound + calls.length ≤ Claim.lastSequence)
    (hcalls : ∀ call ∈ calls, Claim.sequenceAfter none call.record ≤ bound + 1)
    (hlog : ∀ entry ∈ history.log, entry.2 = .answered (.ok ()) ∨
      entry.2 = .answered (.error (Claim.allTaken table.slots))) :
    ∀ entry ∈ (calls.foldl next history).log, entry.2 = .answered (.ok ()) ∨
      entry.2 = .answered (.error (Claim.allTaken table.slots)) := by
  induction calls generalizing history table bound with
  | nil => exact hlog
  | cons call rest ih =>
      rw [List.length_cons] at hbound
      have hlast : table.HoldsUpTo Claim.lastSequence := h.mono (by omega)
      obtain ⟨after, hafter, hreplaces⟩ := next_replaces hstate hlast call
      have hanswer := hreplaces.accepted_or_all_taken h (by omega)
      rw [← hreplaces.slots_eq]
      refine ih hafter (hreplaces.holds_up_to h (hcalls call List.mem_cons_self)) (by omega) ?_ ?_
      · intro later hlater
        have := hcalls later (List.mem_cons_of_mem _ hlater)
        omega
      · rw [hreplaces.slots_eq]
        intro entry hentry
        rcases List.mem_cons.1 hentry with rfl | hentry
        · exact hanswer
        · exact hlog entry hentry

/-- Records that are published further from the last number than there are of them are never
refused. -/
theorem run_accepts_of_early (layout : Layout κ) (slots : Nat) (journal : Journal)
    (calls : List Provision)
    (hearly : ∀ call ∈ calls,
      Claim.sequenceAfter none call.record + calls.length ≤ Claim.lastSequence + 1) :
    ∀ entry ∈ (run calls ⟨.slotted (.withSlots layout slots {}), journal⟩).log,
      entry.2 = .answered (.ok ()) ∨
        entry.2 = .answered (.error (Claim.allTaken (max (min slots 255) 1))) := by
  have hempty : (⟨[], ⟨.slotted (.withSlots layout slots {}), journal⟩⟩ : History κ).routing.state =
      .slotted (.withSlots layout slots {}) := rfl
  have hbound : Claim.lastSequence - calls.length + calls.length ≤ Claim.lastSequence := by omega
  have hcalls : ∀ call ∈ calls, Claim.sequenceAfter none call.record ≤
      Claim.lastSequence - calls.length + 1 := by
    intro call hcall
    have := hearly call hcall
    omega
  have hslots : (SlotTable.withSlots layout slots {}).slots = max (min slots 255) 1 := rfl
  rw [← hslots]
  exact foldl_next_accepts calls hempty (.empty layout slots _) hbound hcalls
    fun entry hentry => absurd hentry List.not_mem_nil

end History

end PeerFinder.Rendezvous
