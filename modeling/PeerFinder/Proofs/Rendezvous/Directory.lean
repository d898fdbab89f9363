import Mathlib.Data.List.Basic
import PeerFinder.Proofs.Rendezvous.Reading

/-!
# A slotted table as a directory

Records that are handed in one after another make a slotted table behave as a map: for every label,
minute and node it holds the record that the node published last. The invariant is that every slot
which a node passes on the way to its own one is held by another node (`SlotTable.Reflects`), so
that a node that publishes again meets its own slot before any free one.
-/

namespace PeerFinder.Rendezvous

variable {κ : Type} [DecidableEq κ]

/-- A byte array is listed byte by byte. -/
theorem byte_array_to_list (bytes : ByteArray) : bytes.toList = bytes.data.toList := by
  have hloop : ∀ count index reversed, bytes.size - index = count →
      ByteArray.toList.loop bytes index reversed =
        reversed.reverse ++ bytes.data.toList.drop index := by
    intro count
    induction count with
    | zero =>
        intro index reversed hcount
        rw [ByteArray.toList.loop, if_neg (by omega), List.drop_eq_nil_of_le]
        · simp
        · rw [Array.length_toList]
          exact Nat.le_of_sub_eq_zero hcount
    | succ count ih =>
        intro index reversed hcount
        have hlt : index < bytes.data.toList.length := by
          rw [Array.length_toList]
          exact Nat.lt_of_sub_eq_succ hcount
        have hbyte : bytes.get! index = bytes.data.toList[index] := by
          rw [Array.getElem_toList]
          exact getElem!_pos bytes.data index hlt
        rw [ByteArray.toList.loop, if_pos (by omega), ih _ _ (by omega), List.reverse_cons,
          List.append_assoc, List.drop_eq_getElem_cons hlt, hbyte]
        rfl
  rw [ByteArray.toList, hloop _ 0 [] rfl]
  rfl

/-- Different labels have different bytes. -/
theorem label_bytes_injective :
    Function.Injective fun label : String => label.toUTF8.toList := by
  intro left right h
  simp only [byte_array_to_list] at h
  exact String.toByteArray_inj.1 (ByteArray.ext (Array.toList_inj.1 h))

/-- The slot of a label with a number in a minute. -/
def slotOf (label : String) (minute : Minute) (index : UInt8) : Slot :=
  ⟨label.toUTF8.toList, minute, index⟩

/-- Slots differ if their labels, minutes or numbers do. -/
theorem slot_of_inj {left right : String} {minute other : Minute} {index place : UInt8} :
    slotOf left minute index = slotOf right other place ↔
      left = right ∧ minute = other ∧ index = place := by
  simp only [slotOf, Slot.mk.injEq]
  rw [label_bytes_injective.eq_iff]

/-- Whether no two slots of these labels have the same address. -/
def Layout.Separates (layout : Layout κ) (labels : Set String) : Prop :=
  Set.InjOn layout.address
    {slot | ∃ label ∈ labels, ∃ minute index, slot = slotOf label minute index}

/-- A derivation in which every slot is its own address. -/
def Layout.plain : Layout Slot :=
  ⟨id, fun _ _ _ => []⟩

/-- Slots that are their own addresses are kept apart. -/
theorem Layout.plain_separates (labels : Set String) : Layout.plain.Separates labels :=
  Set.injOn_id _

/-- A record that is handed in under a label at a moment. -/
structure Provision where
  moment : Moment
  label : String
  record : ProviderRecord

namespace Provision

/-- The minute in which a record is handed in. -/
def minute (call : Provision) : Minute :=
  minuteOf call.moment.unixSeconds

/-- The node that hands a record in. -/
def node (call : Provision) : List UInt8 :=
  call.record.nodeId

/-- A record of the node with a first byte, published in the first minute at a second. -/
def sample (head : UInt8) (second : Nat) : Provision where
  moment := { now := 0, wall := second }
  label := "label"
  record := ⟨head :: List.replicate 31 0, rfl, [], UInt64.ofNat second⟩

/-- Hand a record in. -/
def provide (call : Provision) (routing : Noted (Routing κ)) : Provide × Noted (Routing κ) :=
  Routing.provide call.moment call.label call.record routing

end Provision

/-- Whether a record was taken in. -/
def Provide.accepted : Provide → Bool
  | .answered (.ok _) => true
  | .answered (.error _) | .delayed .. => false

/-- What was handed in with the answers, the latest first, and what came of the routing table. -/
structure History (κ : Type) where
  log : List (Provision × Provide) := []
  routing : Noted (Routing κ)

namespace History

/-- Hand one more record in. -/
def next (history : History κ) (call : Provision) : History κ :=
  ⟨(call, (call.provide history.routing).1) :: history.log, (call.provide history.routing).2⟩

/-- Hand records in one after another. -/
def run (calls : List Provision) (routing : Noted (Routing κ)) : History κ :=
  calls.foldl next { routing := routing }

end History

/-- The record that a node published last under a label in a minute. -/
def latest? (log : List (Provision × Provide)) (label : String) (minute : Minute)
    (node : List UInt8) : Option ProviderRecord :=
  (log.find? fun (call, answer) =>
    answer.accepted && (call.label = label ∧ call.minute = minute ∧ call.node = node)).map
      fun (call, _) => call.record

/-- The last record of a node is one of that node. -/
theorem node_id_of_latest {log : List (Provision × Provide)} {label : String} {minute : Minute}
    {node : List UInt8} {record : ProviderRecord}
    (h : latest? log label minute node = some record) : record.nodeId = node := by
  obtain ⟨⟨call, answer⟩, hfind, rfl⟩ := Option.map_eq_some_iff.1 h
  have hcall := List.find?_some hfind
  simp only [Bool.and_eq_true, decide_eq_true_eq] at hcall
  exact hcall.2.2.2

/-- A record that was not taken in is not the last one of any node. -/
theorem latest_cons_of_not_accepted {answer : Provide} (hanswer : answer.accepted = false)
    (call : Provision) (log : List (Provision × Provide)) :
    latest? ((call, answer) :: log) = latest? log := by
  funext label minute node
  simp [latest?, hanswer]

/-- A record that was taken in is the last one of its node. -/
theorem latest_cons_of_accepted {answer : Provide} (hanswer : answer.accepted = true)
    (call : Provision) (log : List (Provision × Provide)) (label : String) (minute : Minute)
    (node : List UInt8) :
    latest? ((call, answer) :: log) label minute node =
      if call.label = label ∧ call.minute = minute ∧ call.node = node then some call.record
      else latest? log label minute node := by
  simp only [latest?, List.find?_cons, hanswer, Bool.true_and]
  split_ifs with h <;> simp [h]

namespace SlotTable

/-- Whether a node holds the slot with a number. -/
def Holds (table : SlotTable κ) (label : String) (minute : Minute) (index : UInt8)
    (node : List UInt8) : Prop :=
  index.toNat < table.slots ∧ table.holder? (slotOf label minute index) = some node

/-- The nodes that hold a slot of a minute, in the order of the slots. -/
def holders (table : SlotTable κ) (label : String) (minute : Minute) : List (List UInt8) :=
  (List.range table.slots).filterMap fun index =>
    table.holder? (slotOf label minute (UInt8.ofNat index))

/-- Whether some slot of a minute is not held by another node. -/
def HasRoomFor (table : SlotTable κ) (label : String) (minute : Minute)
    (node : List UInt8) : Prop :=
  ∃ index : UInt8, index.toNat < table.slots ∧
    ¬ table.IsTaken (slotOf label minute index) node

/-- The invariant of a table that took records in under these labels: a node passes only slots of
other nodes on the way to its own one, and the slots hold the last records of their nodes. -/
structure Reflects (labels : Set String) (log : List (Provision × Provide))
    (table : SlotTable κ) : Prop where
  online : table.store.online = true
  sequence_le : ∀ address item, table.store.item? address = some item →
    item.sequence ≤ Claim.lastSequence
  orderly : ∀ label ∈ labels, ∀ minute node, ∀ offset < table.slots,
    table.holder? (slotOf label minute (Claim.circle node minute table.slots offset)) = some node →
    ∀ earlier < offset,
      table.IsTaken (slotOf label minute (Claim.circle node minute table.slots earlier)) node
  recorded : ∀ label ∈ labels, ∀ minute record,
    (∃ index : UInt8, index.toNat < table.slots ∧
      table.record? (slotOf label minute index) = some record) ↔
    ∃ published, latest? log label minute record.nodeId = some published ∧
      record = published.stored

namespace Reflects

variable {labels : Set String} {log : List (Provision × Provide)} {table : SlotTable κ}

/-- An empty table reflects that nothing was taken in. -/
theorem empty (labels : Set String) (layout : Layout κ) (slots : Nat) (hpos : 0 < slots)
    (hle : slots ≤ 255) :
    Reflects labels [] { layout := layout, slots := slots, slots_pos := hpos, slots_le := hle } where
  online := rfl
  sequence_le _ _ h := by cases h
  orderly _ _ _ _ _ _ h := by cases h
  recorded label _ minute record :=
    ⟨fun ⟨_, _, h⟩ => (by cases h), fun ⟨_, h, _⟩ => (by cases h)⟩

/-- What a table reflects does not depend on how its store was used. -/
theorem congr (h : Reflects labels log table) {after : SlotTable κ}
    (hagrees : Agrees table after) : Reflects labels log after where
  online := hagrees.online_eq.trans h.online
  sequence_le address item hitem := h.sequence_le address item (hagrees.item_eq address ▸ hitem)
  orderly := by simpa only [hagrees.slots_eq, hagrees.holder_eq, hagrees.is_taken_iff] using h.orderly
  recorded := by simpa only [hagrees.slots_eq, hagrees.record_eq] using h.recorded

/-- A record that was not taken in changes nothing. -/
theorem of_not_accepted (h : Reflects labels log table) {answer : Provide}
    (hanswer : answer.accepted = false) (call : Provision) :
    Reflects labels ((call, answer) :: log) table where
  online := h.online
  sequence_le := h.sequence_le
  orderly := h.orderly
  recorded := by simpa only [latest_cons_of_not_accepted hanswer] using h.recorded

/-- In a minute a node holds at most one slot. -/
theorem holder_unique (h : Reflects labels log table) {label : String} (hlabel : label ∈ labels)
    {minute : Minute} {node : List UInt8} {left right : UInt8}
    (hleft : table.Holds label minute left node) (hright : table.Holds label minute right node) :
    left = right := by
  obtain ⟨first, hfirst, rfl⟩ :=
    Claim.exists_circle_eq node minute table.slots_pos table.slots_le hleft.1
  obtain ⟨second, hsecond, rfl⟩ :=
    Claim.exists_circle_eq node minute table.slots_pos table.slots_le hright.1
  -- The slot met first would be held by another node on the way to the one met later.
  have hnot : ∀ earlier later, later < table.slots → earlier < later →
      table.Holds label minute (Claim.circle node minute table.slots later) node →
      ¬ table.Holds label minute (Claim.circle node minute table.slots earlier) node := by
    intro earlier later hlater hlt hheld hholds
    obtain ⟨other, hother, hne⟩ :=
      h.orderly label hlabel minute node later hlater hheld.2 earlier hlt
    rw [hholds.2] at hother
    exact hne (Option.some.inj hother).symm
  rcases lt_trichotomy first second with hlt | rfl | hlt
  · exact absurd hleft (hnot first second hsecond hlt hright)
  · rfl
  · exact absurd hright (hnot second first hfirst hlt hleft)

end Reflects

/-- An item in a slot is read as the record it was made from. -/
theorem record_with_item_self (table : SlotTable κ) (slot : Slot) (item : Item)
    {record : ProviderRecord} (hstorable : record.IsStorable) (hvalue : item.value = record.encode) :
    (table.withItem slot item).record? slot = some record.stored := by
  simp only [record?, withItem, ItemStore.item_insert_self, Option.bind_some, hvalue,
    ProviderRecord.decode_encode record hstorable, Except.toOption]

/-- An item in one slot leaves the slots with other addresses alone. -/
theorem record_with_item_of_ne (table : SlotTable κ) {slot other : Slot} (item : Item)
    (hne : table.layout.address other ≠ table.layout.address slot) :
    (table.withItem slot item).record? other = table.record? other := by
  simp only [record?, withItem, ItemStore.item_insert_of_ne _ _ hne]

/-- Whether so many steps lead a node to the first slot that no other node holds. -/
structure IsFirstFree (table : SlotTable κ) (call : Provision) (offset : Nat) : Prop where
  lt : offset < table.slots
  taken : ∀ earlier < offset, table.IsTaken (slotOf call.label call.minute
    (Claim.circle call.node call.minute table.slots earlier)) call.node
  free : ¬ table.IsTaken (slotOf call.label call.minute
    (Claim.circle call.node call.minute table.slots offset)) call.node

section FirstFree

variable {labels : Set String} {log : List (Provision × Provide)} {table : SlotTable κ}
  {call : Provision} {offset : Nat} {item : Item}

/-- Nobody but the node itself holds the slot it finds free. -/
theorem IsFirstFree.eq_of_holder (hfirst : table.IsFirstFree call offset) {node : List UInt8}
    (hnode : table.holder? (slotOf call.label call.minute
      (Claim.circle call.node call.minute table.slots offset)) = some node) : node = call.node := by
  by_contra hne
  exact hfirst.free ⟨node, hnode, hne⟩

/-- A node that holds a slot finds it again. -/
theorem IsFirstFree.eq_of_holds (hfirst : table.IsFirstFree call offset)
    (h : Reflects labels log table) (hlabel : call.label ∈ labels) {index : UInt8}
    (hholds : table.Holds call.label call.minute index call.node) :
    index = Claim.circle call.node call.minute table.slots offset := by
  obtain ⟨place, hplace, rfl⟩ :=
    Claim.exists_circle_eq call.node call.minute table.slots_pos table.slots_le hholds.1
  rcases lt_trichotomy place offset with hlt | rfl | hlt
  · obtain ⟨other, hother, hne⟩ := hfirst.taken place hlt
    rw [hholds.2] at hother
    exact absurd (Option.some.inj hother).symm hne
  · rfl
  · exact absurd (h.orderly _ hlabel _ _ place hplace hholds.2 offset hlt) hfirst.free

/-- The slot of a record that was taken in holds it, and all other slots are as before. -/
theorem record_with_item_eq (hseparates : table.layout.Separates labels)
    (hlabel : call.label ∈ labels) (hstorable : call.record.IsStorable)
    (hvalue : item.value = call.record.encode) (place : UInt8) {label : String}
    (hmem : label ∈ labels) (minute : Minute) (index : UInt8) :
    (table.withItem (slotOf call.label call.minute place) item).record?
        (slotOf label minute index) =
      if label = call.label ∧ minute = call.minute ∧ index = place then some call.record.stored
      else table.record? (slotOf label minute index) := by
  split_ifs with hslot
  · rw [← slot_of_inj] at hslot
    rw [hslot]
    exact record_with_item_self table _ item hstorable hvalue
  · rw [← slot_of_inj] at hslot
    exact record_with_item_of_ne table item fun heq =>
      hslot (hseparates ⟨label, hmem, minute, index, rfl⟩ ⟨_, hlabel, _, _, rfl⟩ heq)

/-- The slot of a record that was taken in is held by its node, and all others as before. -/
theorem holder_with_item_eq (hseparates : table.layout.Separates labels)
    (hlabel : call.label ∈ labels) (hstorable : call.record.IsStorable)
    (hvalue : item.value = call.record.encode) (place : UInt8) {label : String}
    (hmem : label ∈ labels) (minute : Minute) (index : UInt8) :
    (table.withItem (slotOf call.label call.minute place) item).holder?
        (slotOf label minute index) =
      if label = call.label ∧ minute = call.minute ∧ index = place then some call.node
      else table.holder? (slotOf label minute index) := by
  rw [holder?, record_with_item_eq hseparates hlabel hstorable hvalue place hmem]
  split_ifs <;> rfl

/-- A node passes only slots of other nodes also after a record was taken in. -/
theorem Reflects.orderly_with_item (h : Reflects labels log table)
    (hseparates : table.layout.Separates labels) (hlabel : call.label ∈ labels)
    (hstorable : call.record.IsStorable) (hfirst : table.IsFirstFree call offset)
    (hvalue : item.value = call.record.encode) {after : SlotTable κ}
    (hafter : after = table.withItem (slotOf call.label call.minute
      (Claim.circle call.node call.minute table.slots offset)) item)
    {label : String} (hmem : label ∈ labels) {minute : Minute} {node : List UInt8} {later : Nat}
    (hlater : later < table.slots)
    (hnode : after.holder? (slotOf label minute
      (Claim.circle node minute table.slots later)) = some node)
    {earlier : Nat} (hearlier : earlier < later) :
    after.IsTaken (slotOf label minute (Claim.circle node minute table.slots earlier)) node := by
  have hholder := fun index =>
    holder_with_item_eq hseparates hlabel hstorable hvalue
      (Claim.circle call.node call.minute table.slots offset) hmem minute index
  rw [← hafter] at hholder
  rw [hholder] at hnode
  split_ifs at hnode with hslot
  · -- The node is the one whose record was taken in, and passed the slots before.
    obtain ⟨rfl, rfl, hplace⟩ := hslot
    cases hnode
    obtain rfl := Claim.circle_injective table.slots_pos table.slots_le hlater hfirst.lt hplace
    obtain ⟨other, hother, hne⟩ := hfirst.taken earlier hearlier
    refine ⟨other, ?_, hne⟩
    rw [hholder, if_neg, hother]
    rintro ⟨-, -, hsame⟩
    have := Claim.circle_injective table.slots_pos table.slots_le (hearlier.trans hlater) hlater
      hsame
    omega
  · obtain ⟨other, hother, hne⟩ := h.orderly label hmem minute node later hlater hnode earlier
      hearlier
    by_cases hsame : label = call.label ∧ minute = call.minute ∧
        Claim.circle node minute table.slots earlier =
          Claim.circle call.node call.minute table.slots offset
    · -- The slot passed is the one written, which stays with its node.
      refine ⟨call.node, by rw [hholder, if_pos hsame], ?_⟩
      obtain ⟨rfl, rfl, hplace⟩ := hsame
      rw [hplace] at hother
      rwa [← hfirst.eq_of_holder hother]
    · exact ⟨other, by rw [hholder, if_neg hsame, hother], hne⟩

/-- The slots hold the last records of their nodes also after a record was taken in. -/
theorem Reflects.recorded_with_item (h : Reflects labels log table)
    (hseparates : table.layout.Separates labels) (hlabel : call.label ∈ labels)
    (hstorable : call.record.IsStorable) (hfirst : table.IsFirstFree call offset)
    (hvalue : item.value = call.record.encode) {after : SlotTable κ}
    (hafter : after = table.withItem (slotOf call.label call.minute
      (Claim.circle call.node call.minute table.slots offset)) item)
    {answer : Provide} (hanswer : answer.accepted = true) {label : String} (hmem : label ∈ labels)
    (minute : Minute) (record : ProviderRecord) :
    (∃ index : UInt8, index.toNat < table.slots ∧
      after.record? (slotOf label minute index) = some record) ↔
    ∃ published, latest? ((call, answer) :: log) label minute record.nodeId = some published ∧
      record = published.stored := by
  have hrecord := fun index =>
    record_with_item_eq hseparates hlabel hstorable hvalue
      (Claim.circle call.node call.minute table.slots offset) hmem minute index
  simp only [← hafter] at hrecord
  simp only [latest_cons_of_accepted hanswer, hrecord]
  constructor
  · rintro ⟨index, hindex, hheld⟩
    split_ifs at hheld with hslot
    · obtain ⟨rfl, rfl, -⟩ := hslot
      cases hheld
      exact ⟨call.record, if_pos ⟨rfl, rfl, rfl⟩, rfl⟩
    · obtain ⟨published, hlatest, hstored⟩ :=
        (h.recorded label hmem minute record).1 ⟨index, hindex, hheld⟩
      refine ⟨published, ?_, hstored⟩
      rw [if_neg, hlatest]
      rintro ⟨rfl, rfl, hnode⟩
      -- The node would hold two slots.
      refine hslot ⟨rfl, rfl, hfirst.eq_of_holds h hlabel ⟨hindex, ?_⟩⟩
      rw [holder?, hheld, hnode]
      rfl
  · rintro ⟨published, hlatest, hstored⟩
    split_ifs at hlatest with hcall
    · obtain ⟨rfl, rfl, -⟩ := hcall
      cases hlatest
      exact ⟨_, Claim.circle_lt table.slots_pos table.slots_le offset,
        by rw [if_pos ⟨rfl, rfl, rfl⟩, hstored]⟩
    · obtain ⟨index, hindex, hheld⟩ :=
        (h.recorded label hmem minute record).2 ⟨published, hlatest, hstored⟩
      refine ⟨index, hindex, ?_⟩
      rw [if_neg, hheld]
      rintro ⟨rfl, rfl, rfl⟩
      refine hcall ⟨rfl, rfl, (hfirst.eq_of_holder ?_).symm⟩
      rw [holder?, hheld]
      rfl

/-- A record that is taken in where its node finds the first free slot is reflected. -/
theorem Reflects.of_accepted (h : Reflects labels log table)
    (hseparates : table.layout.Separates labels) (hlabel : call.label ∈ labels)
    (hstorable : call.record.IsStorable) (hfirst : table.IsFirstFree call offset)
    (hvalue : item.value = call.record.encode) (hsequence : item.sequence ≤ Claim.lastSequence)
    {answer : Provide} (hanswer : answer.accepted = true) :
    Reflects labels ((call, answer) :: log) (table.withItem (slotOf call.label call.minute
      (Claim.circle call.node call.minute table.slots offset)) item) where
  online := h.online
  sequence_le address held hheld := by
    by_cases haddress : address = table.layout.address (slotOf call.label call.minute
        (Claim.circle call.node call.minute table.slots offset))
    · rw [haddress, withItem, ItemStore.item_insert_self] at hheld
      cases hheld
      exact hsequence
    · rw [withItem, ItemStore.item_insert_of_ne _ _ haddress] at hheld
      exact h.sequence_le address held hheld
  orderly _ hmem _ _ _ hlater hnode _ hearlier :=
    h.orderly_with_item hseparates hlabel hstorable hfirst hvalue rfl hmem hlater hnode hearlier
  recorded _ hmem minute record :=
    h.recorded_with_item hseparates hlabel hstorable hfirst hvalue rfl hanswer hmem minute record

end FirstFree

end SlotTable

namespace Provision

open SlotTable

variable {labels : Set String} {log : List (Provision × Provide)} {table : SlotTable κ}
  {call : Provision}

/-- The claim of a record that is handed in. -/
def claim (call : Provision) : Claim :=
  Claim.ofLabel call.label call.record call.moment

/-- A slotted table answers with the result of the claim, which settles on the slots of the label
and the minute of the record. -/
theorem provide_settles (call : Provision) (table : SlotTable κ) (journal : Journal) :
    ∃ result after notes, call.provide ⟨.slotted table, journal⟩ =
        (.answered (result.map fun _ => ()), ⟨.slotted after, notes⟩) ∧
      call.claim.Settles table result after :=
  ⟨_, _, _, rfl, Claim.run_settles call.moment.now call.claim rfl ⟨table, journal⟩⟩

/-- If every slot on the circle of a node is taken, there is no room for it. -/
theorem not_has_room_for
    (htaken : ∀ offset < table.slots, table.IsTaken (slotOf call.label call.minute
      (Claim.circle call.node call.minute table.slots offset)) call.node) :
    ¬ table.HasRoomFor call.label call.minute call.node := by
  rintro ⟨index, hindex, hfree⟩
  obtain ⟨offset, hoffset, rfl⟩ :=
    Claim.exists_circle_eq call.node call.minute table.slots_pos table.slots_le hindex
  exact hfree (htaken offset hoffset)

/-- If a node finds a slot that is not taken, there is room for it. -/
theorem has_room_for {offset : Nat} (hfree : ¬ table.IsTaken (slotOf call.label call.minute
      (Claim.circle call.node call.minute table.slots offset)) call.node) :
    table.HasRoomFor call.label call.minute call.node :=
  ⟨_, Claim.circle_lt table.slots_pos table.slots_le offset, hfree⟩

/-- A node that holds a slot has room. -/
theorem has_room_for_of_holds {index : UInt8}
    (hholds : table.Holds call.label call.minute index call.node) :
    table.HasRoomFor call.label call.minute call.node := by
  refine ⟨index, hholds.1, ?_⟩
  rintro ⟨other, hother, hne⟩
  rw [hholds.2] at hother
  exact hne (Option.some.inj hother).symm

/-- Handing a record in keeps the invariant. -/
theorem provide_reflects (h : Reflects labels log table)
    (hseparates : table.layout.Separates labels) (hlabel : call.label ∈ labels)
    (hstorable : call.record.IsStorable) (journal : Journal) :
    ∃ after, (call.provide ⟨.slotted table, journal⟩).2.state = .slotted after ∧
      after.layout = table.layout ∧ after.slots = table.slots ∧
      Reflects labels ((call, (call.provide ⟨.slotted table, journal⟩).1) :: log) after := by
  obtain ⟨result, after, notes, hprovide, hsettles⟩ := provide_settles call table journal
  rw [hprovide]
  refine ⟨after, rfl, ?_⟩
  cases hsettles with
  | full _ htaken hagrees =>
      exact ⟨hagrees.layout_eq, hagrees.slots_eq, (h.of_not_accepted rfl call).congr hagrees⟩
  | refused offset item _ error hlt htaken hfree hitem hput hagrees =>
      exact ⟨hagrees.layout_eq, hagrees.slots_eq, (h.of_not_accepted rfl call).congr hagrees⟩
  | stored offset item _ hlt htaken hfree hitem haccepts hagrees =>
      refine ⟨hagrees.layout_eq, hagrees.slots_eq, (h.of_accepted hseparates hlabel hstorable
        ⟨hlt, htaken, hfree⟩ ?_ ?_ rfl).congr hagrees⟩
      · rw [hitem]
        rfl
      · rw [hitem]
        exact Claim.sequence_after_le _ _

/-- Without room a record is turned down, and the table stays as it is. -/
theorem provide_of_not_has_room_for
    (hroom : ¬ table.HasRoomFor call.label call.minute call.node) (journal : Journal) :
    (call.provide ⟨.slotted table, journal⟩).1 =
        .answered (.error (Claim.allTaken table.slots)) ∧
      ∃ after, (call.provide ⟨.slotted table, journal⟩).2.state = .slotted after ∧
        Agrees table after := by
  obtain ⟨result, after, notes, hprovide, hsettles⟩ := provide_settles call table journal
  rw [hprovide]
  cases hsettles with
  | full _ htaken hagrees => exact ⟨rfl, after, rfl, hagrees⟩
  | refused offset item _ error hlt htaken hfree => exact absurd (has_room_for hfree) hroom
  | stored offset item _ hlt htaken hfree => exact absurd (has_room_for hfree) hroom

/-- With room a record is taken in, unless an item with the last sequence number is held. -/
theorem provide_of_has_room_for (h : Reflects labels log table)
    (hlast : ∀ address item, table.store.item? address = some item →
      item.sequence ≠ Claim.lastSequence)
    (hroom : table.HasRoomFor call.label call.minute call.node) (journal : Journal) :
    (call.provide ⟨.slotted table, journal⟩).1 = .answered (.ok ()) := by
  obtain ⟨result, after, notes, hprovide, hsettles⟩ := provide_settles call table journal
  rw [hprovide]
  cases hsettles with
  | full _ htaken hagrees => exact absurd hroom (not_has_room_for htaken)
  | stored => rfl
  | refused offset item _ error hlt htaken hfree hitem hput hagrees =>
      have haccepts : table.store.accepts (table.layout.address
          (call.claim.slot (call.claim.probe table.slots offset))) item = true :=
        Claim.accepts_sequence_after (fun held hheld =>
          lt_of_le_of_ne (h.sequence_le _ held hheld) (hlast _ held hheld)) (by rw [hitem]; rfl)
      obtain ⟨accesses, htook⟩ := ItemStore.put_of_accepts h.online haccepts
      rw [htook] at hput
      cases hput

end Provision

/-- Whether providers are the entries of nodes: one for every node that has an entry. -/
def Shows (providers : List Provider) (entries : List UInt8 → Option ProviderRecord) : Prop :=
  ∃ nodes : List (List UInt8), nodes.Nodup ∧ (∀ node, node ∈ nodes ↔ (entries node).isSome) ∧
    providers = nodes.filterMap fun node =>
      (entries node).map fun record => record.stored.peerInfo

namespace SlotTable.Reflects

variable {labels : Set String} {log : List (Provision × Provide)} {table : SlotTable κ}
  {label : String}

/-- The nodes that hold a slot in a minute are those that published a record in it. -/
theorem holds_iff (h : Reflects labels log table) (hlabel : label ∈ labels) (minute : Minute)
    (node : List UInt8) :
    (∃ index, table.Holds label minute index node) ↔ (latest? log label minute node).isSome := by
  rw [Option.isSome_iff_exists]
  constructor
  · rintro ⟨index, hindex, hholder⟩
    obtain ⟨record, hrecord, rfl⟩ := Option.map_eq_some_iff.1 hholder
    obtain ⟨published, hlatest, -⟩ :=
      (h.recorded label hlabel minute record).1 ⟨index, hindex, hrecord⟩
    exact ⟨published, hlatest⟩
  · rintro ⟨published, hlatest⟩
    obtain rfl := node_id_of_latest hlatest
    obtain ⟨index, hindex, hrecord⟩ :=
      (h.recorded label hlabel minute published.stored).2 ⟨published, hlatest, rfl⟩
    refine ⟨index, hindex, ?_⟩
    rw [holder?, hrecord]
    rfl

omit [DecidableEq κ] in
/-- The numbers of slots are read off their bytes. -/
theorem index_to_nat (table : SlotTable κ) {index : Nat} (hindex : index < table.slots) :
    (UInt8.ofNat index).toNat = index := by
  have := table.slots_le
  rw [UInt8.toNat_ofNat']
  omega

/-- No node holds two slots of a minute. -/
theorem nodup_holders (h : Reflects labels log table) (hlabel : label ∈ labels) (minute : Minute) :
    (table.holders label minute).Nodup := by
  rw [holders, List.Nodup, List.pairwise_filterMap]
  refine List.nodup_range.imp_of_mem ?_
  intro left right hleft hright hne node hnode other hother heq
  rw [List.mem_range] at hleft hright
  have hsame := h.holder_unique hlabel
    (show table.Holds label minute (UInt8.ofNat left) node from
      ⟨by rwa [index_to_nat table hleft], hnode⟩)
    (show table.Holds label minute (UInt8.ofNat right) node from
      ⟨by rwa [index_to_nat table hright], heq ▸ hother⟩)
  rw [← UInt8.toNat_inj, index_to_nat table hleft, index_to_nat table hright] at hsame
  exact hne hsame

/-- The holders of the slots of a minute are the nodes that published in it. -/
theorem mem_holders (h : Reflects labels log table) (hlabel : label ∈ labels) (minute : Minute)
    (node : List UInt8) :
    node ∈ table.holders label minute ↔ (latest? log label minute node).isSome := by
  rw [← h.holds_iff hlabel, holders, List.mem_filterMap]
  constructor
  · rintro ⟨index, hindex, hnode⟩
    rw [List.mem_range] at hindex
    exact ⟨UInt8.ofNat index, by rwa [index_to_nat table hindex], hnode⟩
  · rintro ⟨index, hindex, hnode⟩
    exact ⟨index.toNat, List.mem_range.2 hindex, by rwa [UInt8.ofNat_toNat]⟩

/-- The slots of a minute list the last records of the nodes that published in it. -/
theorem listing_shows (h : Reflects labels log table) (hlabel : label ∈ labels)
    (minute : Minute) :
    Shows (table.listing label.toUTF8.toList minute) (latest? log label minute) := by
  refine ⟨table.holders label minute, h.nodup_holders hlabel minute, h.mem_holders hlabel minute,
    ?_⟩
  rw [holders, List.filterMap_filterMap, listing]
  refine List.filterMap_congr ?_
  intro index hindex
  rw [List.mem_range] at hindex
  rw [holder?]
  cases hrecord : table.record? (slotOf label minute (UInt8.ofNat index)) with
  | none =>
      rw [slotOf] at hrecord
      rw [hrecord]
      rfl
  | some record =>
      obtain ⟨published, hlatest, hstored⟩ := (h.recorded label hlabel minute record).1
        ⟨_, by rwa [index_to_nat table hindex], hrecord⟩
      rw [slotOf] at hrecord
      rw [hrecord, Option.map_some, Option.map_some, Option.bind_some, hlatest, hstored]
      rfl

end SlotTable.Reflects

/-- Whether a table behaves as a directory, which has at most one record for every label, minute
and node: under these labels records are taken in or turned down by the room there is, and lookups
show the directory. -/
structure SlotTable.Implements (table : SlotTable κ) (labels : Set String)
    (directory : String → Minute → List UInt8 → Option ProviderRecord) : Prop where
  unique : ∀ label ∈ labels, ∀ minute node left right,
    table.Holds label minute left node → table.Holds label minute right node → left = right
  held : ∀ label ∈ labels, ∀ minute node,
    (∃ index, table.Holds label minute index node) ↔ (directory label minute node).isSome
  taken_in : ∀ call : Provision, call.label ∈ labels →
    (∀ address item, table.store.item? address = some item →
      item.sequence ≠ Claim.lastSequence) →
    ∀ journal, (call.provide ⟨.slotted table, journal⟩).1 = .answered (.ok ()) ↔
      (∃ index, table.Holds call.label call.minute index call.node) ∨
        table.HasRoomFor call.label call.minute call.node
  turned_down : ∀ call : Provision, call.label ∈ labels →
    ¬ table.HasRoomFor call.label call.minute call.node →
    ∀ journal, (call.provide ⟨.slotted table, journal⟩).1 =
        .answered (.error (Claim.allTaken table.slots)) ∧
      ∃ after, (call.provide ⟨.slotted table, journal⟩).2.state = .slotted after ∧
        Agrees table after
  shown : ∀ label ∈ labels, ∀ minute (moments : List Moment),
    (∀ moment ∈ moments, minuteOf moment.unixSeconds = minute) →
    ∀ journal providers after,
      Routing.Consumes moments (Routing.lookup label (.slotted table))
        ⟨.slotted table, journal⟩ providers after →
      ∃ present former, providers = present ++ former ∧
        Shows present (directory label minute) ∧
        Shows former (directory label (previousMinute minute))
  ends : ∀ label minute, ∃ count, ∀ moments : List Moment, moments.length = count →
    (∀ moment ∈ moments, minuteOf moment.unixSeconds = minute) →
    ∀ journal, ∃ providers after,
      Routing.Consumes moments (Routing.lookup label (.slotted table))
        ⟨.slotted table, journal⟩ providers after

/-- A table with the invariant behaves as the directory of the last records. -/
theorem SlotTable.Reflects.implements {labels : Set String} {log : List (Provision × Provide)}
    {table : SlotTable κ} (h : Reflects labels log table) :
    table.Implements labels (latest? log) where
  unique _ hlabel _ _ _ _ hleft hright := h.holder_unique hlabel hleft hright
  held _ hlabel := h.holds_iff hlabel
  taken_in call hlabel hlast journal := by
    constructor
    · intro hanswer
      by_contra hnot
      rw [not_or] at hnot
      rw [(Provision.provide_of_not_has_room_for hnot.2 journal).1] at hanswer
      cases hanswer
    · rintro (⟨index, hholds⟩ | hroom)
      · exact Provision.provide_of_has_room_for h hlast
          (Provision.has_room_for_of_holds hholds) journal
      · exact Provision.provide_of_has_room_for h hlast hroom journal
  turned_down _ _ hroom := Provision.provide_of_not_has_room_for hroom
  shown label hlabel minute moments hminute journal providers after hconsumes := by
    refine ⟨_, _, ?_, h.listing_shows hlabel minute,
      h.listing_shows hlabel (previousMinute minute)⟩
    rw [Routing.consumes_slots hminute hconsumes rfl rfl, List.nil_append]
    simp [SlotTable.remaining]
  ends label minute :=
    ⟨_, fun moments hlength hminute journal =>
      ⟨_, Routing.exists_consumes_slots label.toUTF8.toList _ moments hminute hlength [] 2 table
        journal rfl⟩⟩

namespace History

/-- One more record that is handed in keeps the invariant. -/
theorem next_reflects {labels : Set String} {history : History κ} {table : SlotTable κ}
    (hstate : history.routing.state = .slotted table)
    (h : table.Reflects labels history.log) (hseparates : table.layout.Separates labels)
    {call : Provision} (hlabel : call.label ∈ labels) (hstorable : call.record.IsStorable) :
    ∃ after, (history.next call).routing.state = .slotted after ∧
      after.layout = table.layout ∧ after.slots = table.slots ∧
      after.Reflects labels (history.next call).log := by
  obtain ⟨log, state, journal⟩ := history
  cases hstate
  exact Provision.provide_reflects h hseparates hlabel hstorable journal

/-- Records that are handed in one after another keep the invariant. -/
theorem foldl_next_reflects {labels : Set String} (calls : List Provision)
    (hcalls : ∀ call ∈ calls, call.label ∈ labels ∧ call.record.IsStorable)
    {history : History κ} {table : SlotTable κ}
    (hstate : history.routing.state = .slotted table)
    (h : table.Reflects labels history.log) (hseparates : table.layout.Separates labels) :
    ∃ after, (calls.foldl next history).routing.state = .slotted after ∧
      after.layout = table.layout ∧ after.slots = table.slots ∧
      after.Reflects labels (calls.foldl next history).log := by
  induction calls generalizing history table with
  | nil => exact ⟨table, hstate, rfl, rfl, h⟩
  | cons call rest ih =>
      obtain ⟨hlabel, hstorable⟩ := hcalls call List.mem_cons_self
      obtain ⟨middle, hmiddle, hlayout, hslots, hreflects⟩ :=
        next_reflects hstate h hseparates hlabel hstorable
      obtain ⟨after, hafter, hlayout', hslots', hreflects'⟩ :=
        ih (fun call h => hcalls call (List.mem_cons_of_mem _ h)) hmiddle hreflects
          (hlayout ▸ hseparates)
      exact ⟨after, hafter, hlayout'.trans hlayout, hslots'.trans hslots, hreflects'⟩

/-- Records that are handed in one after another make an empty table behave as the directory of the
last record that each node published under a label in a minute. -/
theorem run_implements_latest (layout : Layout κ) (slots : Nat) (journal : Journal)
    (labels : Set String) (hseparates : layout.Separates labels) (calls : List Provision)
    (hcalls : ∀ call ∈ calls, call.label ∈ labels ∧ call.record.IsStorable) :
    ∃ table, (run calls ⟨.slotted (.withSlots layout slots {}), journal⟩).routing.state =
        .slotted table ∧
      table.layout = layout ∧ table.slots = max (min slots 255) 1 ∧
      table.Implements labels
        (latest? (run calls ⟨.slotted (.withSlots layout slots {}), journal⟩).log) := by
  have hempty : (⟨[], ⟨.slotted (.withSlots layout slots {}), journal⟩⟩ : History κ).routing.state =
      .slotted (.withSlots layout slots {}) := rfl
  obtain ⟨table, hstate, hlayout, hslots, hreflects⟩ :=
    foldl_next_reflects calls hcalls hempty
      (SlotTable.Reflects.empty labels layout _ (by omega) (by omega)) hseparates
  exact ⟨table, hstate, hlayout, hslots, hreflects.implements⟩

/-- Two nodes share a table of two slots, and one of them publishes again. -/
theorem run_implements_latest_shared :
    (Layout.plain.Separates Set.univ ∧
        ∀ call ∈ [Provision.sample 0 1, Provision.sample 2 2, Provision.sample 0 3],
          call.label ∈ Set.univ ∧ call.record.IsStorable) ∧
      ∃ table, (run [Provision.sample 0 1, Provision.sample 2 2, Provision.sample 0 3]
          ⟨.slotted (.withSlots .plain 2 {}), []⟩).routing.state = .slotted table ∧
        table.layout = .plain ∧ table.slots = 2 ∧
        table.Implements Set.univ (latest? (run
          [Provision.sample 0 1, Provision.sample 2 2, Provision.sample 0 3]
          ⟨.slotted (.withSlots .plain 2 {}), []⟩).log) := by
  have hcalls : ∀ call ∈ [Provision.sample 0 1, Provision.sample 2 2, Provision.sample 0 3],
      call.label ∈ Set.univ ∧ call.record.IsStorable := by
    intro call hcall
    refine ⟨Set.mem_univ _, ?_⟩
    simp only [List.mem_cons, List.not_mem_nil, or_false] at hcall
    rcases hcall with rfl | rfl | rfl <;> exact Nat.zero_lt_succ _
  exact ⟨⟨Layout.plain_separates _, hcalls⟩,
    run_implements_latest .plain 2 [] Set.univ (Layout.plain_separates _)
      [Provision.sample 0 1, Provision.sample 2 2, Provision.sample 0 3] hcalls⟩

end History

end PeerFinder.Rendezvous
