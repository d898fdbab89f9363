import Mathlib.Logic.Function.Basic
import PeerFinder.Proofs.Rendezvous.Directory

/-!
# Claims that contend for slots

Several nodes publish under one label in one minute, and their claims take the steps that read and
write slots in any order. A claim that found its slot free writes it later, and what another claim
has written there meanwhile is replaced if its sequence number is smaller. `IsOvertaken` is the exact
condition under which a node that was told that its record was taken in is not found
(`Publishers.found_iff_not_overtaken`).
-/

namespace PeerFinder.Rendezvous

/-- Records of different nodes that are published under one label in one minute. -/
structure Publishers (count : Nat) where
  label : String
  minute : Minute
  records : Fin count → ProviderRecord
  moments : Fin count → Moment
  minute_eq : ∀ call, minuteOf (moments call).unixSeconds = minute
  distinct : Function.Injective fun call => (records call).nodeId
  storable : ∀ call, (records call).IsStorable

/-- Claims on one table, each of them under way or ended with its result. -/
structure Contest (κ : Type) (count : Nat) where
  table : Noted (SlotTable κ)
  calls : Fin count → Claim ⊕ Except Error UInt8

variable {κ : Type} [DecidableEq κ] {count : Nat}

namespace Publishers

/-- The claim of a publisher as it begins. -/
def claim (publishers : Publishers count) (call : Fin count) : Claim :=
  Claim.ofLabel publishers.label (publishers.records call) (publishers.moments call)

/-- The publishers before their first steps. -/
def start (publishers : Publishers count) (table : Noted (SlotTable κ)) : Contest κ count :=
  ⟨table, fun call => .inl (publishers.claim call)⟩

/-- The slot of the publishers with a number. -/
def slot (publishers : Publishers count) (index : UInt8) : Slot :=
  slotOf publishers.label publishers.minute index

/-- The slots of a publisher's claim are those of the publishers, wherever the claim stands. -/
theorem slot_claim (publishers : Publishers count) (call : Fin count) (point : Claim.Point)
    (index : UInt8) :
    ({ publishers.claim call with point := point } : Claim).slot index =
      publishers.slot index := by
  simp only [Claim.slot, claim, Claim.ofLabel, publishers.minute_eq, slot, slotOf]

end Publishers

/-- Whether a call is about to write an address with a sequence number. -/
def IsWriting (layout : Layout κ) (call : Claim ⊕ Except Error UInt8) (address : κ)
    (sequence : Int) : Prop :=
  ∃ claim index, call = .inl claim ∧ claim.point = .writing index sequence ∧
    layout.address (claim.slot index) = address

omit [DecidableEq κ] in
/-- A call that has ended writes nothing. -/
theorem not_is_writing_ended {layout : Layout κ} {result : Except Error UInt8} {address : κ}
    {sequence : Int} : ¬ IsWriting layout (.inr result) address sequence := by
  rintro ⟨claim, index, hcall, -⟩
  cases hcall

omit [DecidableEq κ] in
/-- A claim that probes writes nothing yet. -/
theorem not_is_writing_probing {layout : Layout κ} {claim : Claim} {offset : Nat}
    (hpoint : claim.point = .probing offset) {address : κ} {sequence : Int} :
    ¬ IsWriting layout (.inl claim) address sequence := by
  rintro ⟨_, index, hcall, hwriting, -⟩
  cases hcall
  rw [hpoint] at hwriting
  cases hwriting

omit [DecidableEq κ] in
/-- A claim that writes a slot writes only that one. -/
theorem is_writing_iff {layout : Layout κ} {claim : Claim} {index : UInt8} {sequence : Int}
    (hpoint : claim.point = .writing index sequence) {address : κ} {other : Int} :
    IsWriting layout (.inl claim) address other ↔
      layout.address (claim.slot index) = address ∧ other = sequence := by
  constructor
  · rintro ⟨_, place, hcall, hwriting, haddress⟩
    cases hcall
    rw [hpoint] at hwriting
    cases hwriting
    exact ⟨haddress, rfl⟩
  · rintro ⟨haddress, rfl⟩
    exact ⟨claim, index, rfl, hpoint, haddress⟩

namespace Contest

/-- The contest after a call moved. -/
def move (contest : Contest κ count) (call : Fin count) (table : Noted (SlotTable κ))
    (moved : Claim ⊕ Except Error UInt8) : Contest κ count :=
  ⟨table, Function.update contest.calls call moved⟩

/-- Let the call of a number take its next step. -/
def next (contest : Contest κ count) (turn : Fin count × Clock.Instant) : Contest κ count :=
  match contest.calls turn.1 with
  | .inr _ => contest
  | .inl claim =>
      match Claim.step turn.2 contest.table claim with
      | none => contest
      | some (table, moved) => contest.move turn.1 table moved

/-- Let calls take their steps in this order. -/
def run (contest : Contest κ count) (turns : List (Fin count × Clock.Instant)) :
    Contest κ count :=
  turns.foldl next contest

section Move

omit [DecidableEq κ]

variable {contest : Contest κ count} {call other : Fin count} {table : Noted (SlotTable κ)}
  {moved status : Claim ⊕ Except Error UInt8}

/-- A call that moved stands where it moved to. -/
theorem calls_move_self : (contest.move call table moved).calls call = moved :=
  Function.update_self ..

/-- The other calls stay where they stand. -/
theorem calls_move_of_ne (hne : other ≠ call) :
    (contest.move call table moved).calls other = contest.calls other :=
  Function.update_of_ne hne ..

/-- A call stands where it moved to, or it is another one and stands where it did. -/
theorem calls_move_cases (hother : (contest.move call table moved).calls other = status) :
    other = call ∧ moved = status ∨ other ≠ call ∧ contest.calls other = status := by
  by_cases heq : other = call
  · subst heq
    rw [calls_move_self] at hother
    exact .inl ⟨rfl, hother⟩
  · rw [calls_move_of_ne heq] at hother
    exact .inr ⟨heq, hother⟩

/-- A call that has ended is not the one that moves. -/
theorem ne_of_ended {claim : Claim} {result : Except Error UInt8}
    (hcall : contest.calls call = .inl claim) (hother : contest.calls other = .inr result) :
    other ≠ call := by
  rintro rfl
  rw [hcall] at hother
  cases hother

end Move

/-- A call that has not ended moves at its turn. -/
theorem next_moves {contest : Contest κ count} {call : Fin count} {claim : Claim}
    (hcall : contest.calls call = .inl claim) (now : Clock.Instant) :
    ∃ table moved, contest.next (call, now) = contest.move call table moved ∧
      claim.Moves contest.table.state table.state moved := by
  obtain ⟨table, moved, hstep, hmoves⟩ := Claim.step_moves now contest.table claim
  refine ⟨table, moved, ?_, hmoves⟩
  simp only [next, hcall, hstep]

/-- A call that has ended does nothing, and one that has not moves. -/
theorem next_cases (contest : Contest κ count) (turn : Fin count × Clock.Instant) :
    (∃ result, contest.calls turn.1 = .inr result ∧ contest.next turn = contest) ∨
      ∃ claim table moved, contest.calls turn.1 = .inl claim ∧
        contest.next turn = contest.move turn.1 table moved ∧
        claim.Moves contest.table.state table.state moved := by
  cases hcall : contest.calls turn.1 with
  | inr result => exact .inl ⟨result, rfl, by rw [next, hcall]⟩
  | inl claim =>
      obtain ⟨table, moved, hnext, hmoves⟩ := next_moves hcall turn.2
      exact .inr ⟨claim, table, moved, rfl, hnext, hmoves⟩

/-- The calls whose turn it is not stay where they stand. -/
theorem calls_next_of_ne {contest : Contest κ count} {turn : Fin count × Clock.Instant}
    {call : Fin count} (hne : call ≠ turn.1) :
    (contest.next turn).calls call = contest.calls call := by
  rcases contest.next_cases turn with ⟨_, -, hnext⟩ | ⟨_, _, _, -, hnext, -⟩
  · rw [hnext]
  · rw [hnext, calls_move_of_ne hne]

/-- What holds of publishers that began with a table: their claims are as they began but for where
they stand, and every item was there before or was written by a publisher that was told so. -/
structure Serves (contest : Contest κ count) (publishers : Publishers count)
    (origin : SlotTable κ) : Prop where
  layout_eq : contest.table.state.layout = origin.layout
  slots_eq : contest.table.state.slots = origin.slots
  online : contest.table.state.store.online = true
  claims : ∀ call claim, contest.calls call = .inl claim →
    claim = { publishers.claim call with point := claim.point } ∧
      ∀ index sequence, claim.point = .writing index sequence → index.toNat < origin.slots
  indices : ∀ call index, contest.calls call = .inr (.ok index) → index.toNat < origin.slots
  items : ∀ address item, contest.table.state.store.item? address = some item →
    origin.store.item? address = some item ∨
      ∃ call index, contest.calls call = .inr (.ok index) ∧
        origin.layout.address (publishers.slot index) = address ∧
        item.value = (publishers.records call).encode

namespace Serves

variable {contest : Contest κ count} {publishers : Publishers count} {origin : SlotTable κ}

/-- Publishers that have taken no step serve the table they begin with. -/
theorem start (publishers : Publishers count) (table : Noted (SlotTable κ))
    (honline : table.state.store.online = true) :
    (publishers.start table).Serves publishers table.state where
  layout_eq := rfl
  slots_eq := rfl
  online := honline
  claims call claim hcall := by
    cases hcall
    exact ⟨rfl, fun index sequence hpoint => by cases hpoint⟩
  indices call index hcall := by cases hcall
  items address item hitem := .inl hitem

/-- A claim that is under way is about the slots of the publishers. -/
theorem slot_eq (h : contest.Serves publishers origin) {call : Fin count} {claim : Claim}
    (hcall : contest.calls call = .inl claim) (index : UInt8) :
    claim.slot index = publishers.slot index := by
  rw [(h.claims call claim hcall).1, publishers.slot_claim]

/-- A claim that is under way is about the record of its publisher. -/
theorem record_eq (h : contest.Serves publishers origin) {call : Fin count} {claim : Claim}
    (hcall : contest.calls call = .inl claim) : claim.record = publishers.records call := by
  rw [(h.claims call claim hcall).1]
  rfl

/-- A step that leaves the items alone and does not end a call well keeps what holds. -/
theorem of_agrees (h : contest.Serves publishers origin) {call : Fin count} {claim : Claim}
    (hcall : contest.calls call = .inl claim) (table : Noted (SlotTable κ))
    (hagrees : contest.table.state.Agrees table.state) {moved : Claim ⊕ Except Error UInt8}
    (hclaim : ∀ later, moved = .inl later → later = { claim with point := later.point } ∧
      ∀ index sequence, later.point = .writing index sequence → index.toNat < origin.slots)
    (hresult : ∀ index, moved ≠ .inr (.ok index)) :
    (contest.move call table moved).Serves publishers origin where
  layout_eq := hagrees.layout_eq.trans h.layout_eq
  slots_eq := hagrees.slots_eq.trans h.slots_eq
  online := hagrees.online_eq.trans h.online
  claims other later hlater := by
    rcases calls_move_cases hlater with ⟨rfl, hmoved⟩ | ⟨-, hother⟩
    · obtain ⟨hpoint, hindex⟩ := hclaim later hmoved
      rw [(h.claims other claim hcall).1] at hpoint
      exact ⟨hpoint, hindex⟩
    · exact h.claims other later hother
  indices other index hindex := by
    rcases calls_move_cases hindex with ⟨-, hmoved⟩ | ⟨-, hother⟩
    · exact absurd hmoved (hresult index)
    · exact h.indices other index hother
  items address item hitem := by
    rw [move, hagrees.item_eq] at hitem
    refine (h.items address item hitem).imp_right ?_
    rintro ⟨writer, index, hwriter, hwritten⟩
    exact ⟨writer, index, by rwa [calls_move_of_ne (ne_of_ended hcall hwriter)], hwritten⟩

/-- A step that writes a slot keeps what holds. -/
theorem of_stored (h : contest.Serves publishers origin) {call : Fin count} {claim : Claim}
    (hcall : contest.calls call = .inl claim) {index : UInt8} {sequence : Int}
    (hpoint : claim.point = .writing index sequence) (table : Noted (SlotTable κ))
    (hagrees : (contest.table.state.withItem (claim.slot index)
      (claim.item contest.table.state.layout index sequence)).Agrees table.state) :
    (contest.move call table (.inr (.ok index))).Serves publishers origin where
  layout_eq := hagrees.layout_eq.trans h.layout_eq
  slots_eq := hagrees.slots_eq.trans h.slots_eq
  online := hagrees.online_eq.trans h.online
  claims other later hlater := by
    rcases calls_move_cases hlater with ⟨-, hmoved⟩ | ⟨-, hother⟩
    · cases hmoved
    · exact h.claims other later hother
  indices other place hplace := by
    rcases calls_move_cases hplace with ⟨-, hmoved⟩ | ⟨-, hother⟩
    · cases hmoved
      exact (h.claims call claim hcall).2 index sequence hpoint
    · exact h.indices other place hother
  items address item hitem := by
    rw [move, hagrees.item_eq, SlotTable.withItem, h.slot_eq hcall, h.layout_eq] at hitem
    by_cases haddress : address = origin.layout.address (publishers.slot index)
    · rw [haddress, ItemStore.item_insert_self] at hitem
      cases hitem
      refine .inr ⟨call, index, calls_move_self, haddress.symm, ?_⟩
      rw [Claim.item, h.record_eq hcall]
    · rw [ItemStore.item_insert_of_ne _ _ haddress] at hitem
      refine (h.items address item hitem).imp_right ?_
      rintro ⟨writer, place, hwriter, hwritten⟩
      exact ⟨writer, place, by rwa [calls_move_of_ne (ne_of_ended hcall hwriter)], hwritten⟩

/-- Every step keeps what holds of publishers. -/
theorem next (h : contest.Serves publishers origin) (turn : Fin count × Clock.Instant) :
    (contest.next turn).Serves publishers origin := by
  rcases contest.next_cases turn with
    ⟨result, -, hnext⟩ | ⟨claim, ⟨state, journal⟩, moved, hcall, hnext, hmoves⟩
  · rwa [hnext]
  rw [hnext]
  cases hmoves with
  | full offset hpoint hend =>
      refine h.of_agrees hcall ⟨_, journal⟩ (.refl _) ?_ (fun index => nofun)
      rintro later ⟨⟩
  | passed offset after hpoint hlt htaken hagrees =>
      refine h.of_agrees hcall ⟨state, journal⟩ hagrees ?_ (fun index => nofun)
      rintro later ⟨⟩
      exact ⟨rfl, fun index sequence hwriting => by cases hwriting⟩
  | found offset after hpoint hlt hfree hagrees =>
      refine h.of_agrees hcall ⟨state, journal⟩ hagrees ?_ (fun index => nofun)
      rintro later ⟨⟩
      refine ⟨rfl, ?_⟩
      rintro index sequence ⟨⟩
      rw [← h.slots_eq]
      exact Claim.circle_lt contest.table.state.slots_pos contest.table.state.slots_le offset
  | stored index sequence after hpoint haccepts hagrees =>
      exact h.of_stored hcall hpoint ⟨state, journal⟩ hagrees
  | refused index sequence error hpoint hput =>
      refine h.of_agrees hcall ⟨_, journal⟩ (.refl _) ?_ (fun index => nofun)
      rintro later ⟨⟩

/-- Every run keeps what holds of publishers. -/
theorem run (h : contest.Serves publishers origin) (turns : List (Fin count × Clock.Instant)) :
    (contest.run turns).Serves publishers origin := by
  induction turns generalizing contest with
  | nil => exact h
  | cons turn turns ih => exact ih (h.next turn)

end Serves

/-- What an address holds once a call has written it with a sequence number, where the calls stood
in some way before: the item is that of the call or of a rival that was about to write the address
with a larger number, and whoever is about to write it was so before. -/
structure Holds (contest : Contest κ count) (publishers : Publishers count) (layout : Layout κ)
    (before : Fin count → Claim ⊕ Except Error UInt8) (call : Fin count) (address : κ)
    (sequence : Int) (writer : Fin count) (item : Item) : Prop where
  held : contest.table.state.store.item? address = some item
  value_eq : item.value = (publishers.records writer).encode
  ended : ∃ result, contest.calls writer = .inr result
  writer_cases : writer = call ∧ item.sequence = sequence ∨
    writer ≠ call ∧ sequence < item.sequence ∧
      IsWriting layout (before writer) address item.sequence
  passed : ∀ other later, other ≠ call → IsWriting layout (before other) address later →
    IsWriting layout (contest.calls other) address later ∨ later ≤ item.sequence
  rivals : ∀ other later, IsWriting layout (contest.calls other) address later →
    other ≠ call ∧ IsWriting layout (before other) address later

namespace Holds

variable {contest : Contest κ count} {publishers : Publishers count} {origin : SlotTable κ}
  {before : Fin count → Claim ⊕ Except Error UInt8} {call writer : Fin count} {address : κ}
  {sequence : Int} {item : Item}

/-- The number of the item is at least the one the call wrote. -/
theorem sequence_le {layout : Layout κ}
    (h : contest.Holds publishers layout before call address sequence writer item) :
    sequence ≤ item.sequence := by
  rcases h.writer_cases with ⟨-, heq⟩ | ⟨-, hlt, -⟩
  · exact le_of_eq heq.symm
  · exact le_of_lt hlt

/-- A slot with the address is held by the node of the writer. -/
theorem record_eq {layout : Layout κ}
    (h : contest.Holds publishers layout before call address sequence writer item)
    (slot : Slot) (hslot : contest.table.state.layout.address slot = address) :
    contest.table.state.record? slot = some (publishers.records writer).stored := by
  rw [SlotTable.record?, hslot, h.held, Option.bind_some, h.value_eq,
    ProviderRecord.decode_encode _ (publishers.storable writer)]
  rfl

/-- A call that has just written a slot holds its address. -/
theorem of_stored (hserves : contest.Serves publishers origin) {claim : Claim}
    (hcall : contest.calls call = .inl claim) {index : UInt8} (table : Noted (SlotTable κ))
    (hagrees : (contest.table.state.withItem (claim.slot index)
      (claim.item contest.table.state.layout index sequence)).Agrees table.state) :
    (contest.move call table (.inr (.ok index))).Holds publishers origin.layout contest.calls call
      (origin.layout.address (claim.slot index)) sequence call
      (claim.item contest.table.state.layout index sequence) where
  held := by
    rw [move, hagrees.item_eq, ← hserves.layout_eq]
    exact ItemStore.item_insert_self ..
  value_eq := by rw [Claim.item, hserves.record_eq hcall]
  ended := ⟨_, calls_move_self⟩
  writer_cases := .inl ⟨rfl, rfl⟩
  passed other later hne hwriting := by
    refine .inl ?_
    rwa [calls_move_of_ne hne]
  rivals other later hwriting := by
    obtain ⟨rival, place, hrival, hpoint, haddress⟩ := hwriting
    rcases calls_move_cases hrival with ⟨-, hmoved⟩ | ⟨hne, hother⟩
    · cases hmoved
    · exact ⟨hne, rival, place, hother, hpoint, haddress⟩

/-- A step keeps what an address holds if it leaves the item alone, and the call that takes it was
not about to write the address with a larger number and is not so now. -/
theorem of_item_eq {layout : Layout κ}
    (h : contest.Holds publishers layout before call address sequence writer item)
    {mover : Fin count} {claim : Claim} (hmover : contest.calls mover = .inl claim)
    {table : Noted (SlotTable κ)} {moved : Claim ⊕ Except Error UInt8}
    (hitem : table.state.store.item? address = contest.table.state.store.item? address)
    (hbefore : ∀ later, IsWriting layout (.inl claim) address later → later ≤ item.sequence)
    (hafter : ∀ later, ¬ IsWriting layout moved address later) :
    (contest.move mover table moved).Holds publishers layout before call address sequence writer
      item where
  held := hitem.trans h.held
  value_eq := h.value_eq
  ended := by
    obtain ⟨result, hresult⟩ := h.ended
    exact ⟨result, by rwa [calls_move_of_ne (ne_of_ended hmover hresult)]⟩
  writer_cases := h.writer_cases
  passed other later hne hwriting := by
    -- Whoever moves leaves those that are about to write, and is passed by the item held.
    rcases h.passed other later hne hwriting with hstill | hle
    · by_cases hother : other = mover
      · rw [hother, hmover] at hstill
        exact .inr (hbefore later hstill)
      · exact .inl (by rwa [calls_move_of_ne hother])
    · exact .inr hle
  rivals other later hwriting := by
    obtain ⟨rival, place, hrival, hpoint, haddress⟩ := hwriting
    rcases calls_move_cases hrival with ⟨-, hmoved⟩ | ⟨-, hother⟩
    · exact absurd ⟨rival, place, hmoved, hpoint, haddress⟩ (hafter later)
    · exact h.rivals other later ⟨rival, place, hother, hpoint, haddress⟩

/-- A rival that writes the address takes it over. -/
theorem of_rival {claim : Claim} {mover : Fin count} {index : UInt8} {later : Int}
    (h : contest.Holds publishers origin.layout before call
      (origin.layout.address (claim.slot index)) sequence writer item)
    (hserves : contest.Serves publishers origin) (hmover : contest.calls mover = .inl claim)
    (hpoint : claim.point = .writing index later) (hlt : item.sequence < later)
    {table : Noted (SlotTable κ)}
    (hagrees : (contest.table.state.withItem (claim.slot index)
      (claim.item contest.table.state.layout index later)).Agrees table.state) :
    (contest.move mover table (.inr (.ok index))).Holds publishers origin.layout before call
      (origin.layout.address (claim.slot index)) sequence mover
      (claim.item contest.table.state.layout index later) where
  held := by
    rw [move, hagrees.item_eq, ← hserves.layout_eq]
    exact ItemStore.item_insert_self ..
  value_eq := by rw [Claim.item, hserves.record_eq hmover]
  ended := ⟨_, calls_move_self⟩
  writer_cases := by
    obtain ⟨hne, hbefore⟩ := h.rivals mover later ⟨claim, index, hmover, hpoint, rfl⟩
    exact .inr ⟨hne, lt_of_le_of_lt h.sequence_le hlt, hbefore⟩
  passed other number hne hwriting := by
    rcases h.passed other number hne hwriting with hstill | hle
    · by_cases hother : other = mover
      · rw [hother, hmover, is_writing_iff hpoint] at hstill
        exact .inr (le_of_eq hstill.2)
      · exact .inl (by rwa [calls_move_of_ne hother])
    · exact .inr (hle.trans (le_of_lt hlt))
  rivals other number hwriting := by
    obtain ⟨rival, place, hrival, hplace, haddress⟩ := hwriting
    rcases calls_move_cases hrival with ⟨-, hmoved⟩ | ⟨-, hother⟩
    · cases hmoved
    · exact h.rivals other number ⟨rival, place, hother, hplace, haddress⟩

/-- Every step keeps that what the address holds comes from the call or from a rival. -/
theorem next (h : contest.Holds publishers origin.layout before call address sequence writer item)
    (hserves : contest.Serves publishers origin) (turn : Fin count × Clock.Instant) :
    ∃ writer item, (contest.next turn).Holds publishers origin.layout before call address sequence
      writer item := by
  rcases contest.next_cases turn with
    ⟨result, -, hnext⟩ | ⟨claim, ⟨state, journal⟩, moved, hmover, hnext, hmoves⟩
  · exact ⟨writer, item, by rwa [hnext]⟩
  rw [hnext]
  cases hmoves with
  | full offset hpoint hend =>
      exact ⟨writer, item, h.of_item_eq hmover rfl
        (fun _ hwriting => absurd hwriting (not_is_writing_probing hpoint))
        (fun _ => not_is_writing_ended)⟩
  | passed offset after hpoint hlt htaken hagrees =>
      exact ⟨writer, item, h.of_item_eq hmover (hagrees.item_eq address)
        (fun _ hwriting => absurd hwriting (not_is_writing_probing hpoint))
        (fun _ => not_is_writing_probing rfl)⟩
  | found offset after hpoint hlt hfree hagrees =>
      refine ⟨writer, item, h.of_item_eq hmover (hagrees.item_eq address)
        (fun _ hwriting => absurd hwriting (not_is_writing_probing hpoint)) ?_⟩
      intro later hwriting
      -- The slot is held by the writer, which has ended and so is not the call that reads.
      obtain ⟨result, hresult⟩ := h.ended
      have hslot := ((is_writing_iff rfl).1 hwriting).1
      have hrecord := h.record_eq _ (by rwa [hserves.layout_eq])
      refine hfree ⟨(publishers.records writer).nodeId, ?_, ?_⟩
      · exact Option.map_eq_some_iff.2 ⟨_, hrecord, rfl⟩
      · rw [hserves.record_eq hmover]
        exact fun heq => ne_of_ended hmover hresult (publishers.distinct heq)
  | stored index later after hpoint haccepts hagrees =>
      by_cases haddress : origin.layout.address (claim.slot index) = address
      · subst haddress
        rw [ItemStore.accepts, hserves.layout_eq, h.held, Option.all_some,
          decide_eq_true_eq] at haccepts
        exact ⟨_, _, h.of_rival hserves hmover hpoint haccepts hagrees⟩
      · refine ⟨writer, item, h.of_item_eq hmover ?_
          (fun _ hwriting => absurd ((is_writing_iff hpoint).1 hwriting).1 haddress)
          (fun _ => not_is_writing_ended)⟩
        rw [hagrees.item_eq, SlotTable.withItem, hserves.layout_eq]
        exact ItemStore.item_insert_of_ne _ _ (Ne.symm haddress)
  | refused index later error hpoint hput =>
      refine ⟨writer, item, h.of_item_eq hmover rfl ?_ (fun _ => not_is_writing_ended)⟩
      intro number hwriting
      obtain ⟨rfl, rfl⟩ := (is_writing_iff hpoint).1 hwriting
      -- An item with a larger number than the one held would have been taken.
      by_contra hnot
      have haccepts : contest.table.state.store.accepts
          (contest.table.state.layout.address (claim.slot index))
          (claim.item contest.table.state.layout index number) = true := by
        rw [ItemStore.accepts, hserves.layout_eq, h.held, Option.all_some, decide_eq_true_eq]
        exact not_le.1 hnot
      obtain ⟨accesses, htook⟩ := ItemStore.put_of_accepts hserves.online haccepts
      rw [htook] at hput
      cases hput

/-- Every run keeps that what the address holds comes from the call or from a rival. -/
theorem run (h : contest.Holds publishers origin.layout before call address sequence writer item)
    (hserves : contest.Serves publishers origin) (turns : List (Fin count × Clock.Instant)) :
    ∃ writer item, (contest.run turns).Holds publishers origin.layout before call address sequence
      writer item := by
  induction turns generalizing contest writer item with
  | nil => exact ⟨writer, item, h⟩
  | cons turn turns ih =>
      obtain ⟨next, held, hnext⟩ := h.next hserves turn
      exact ih hnext (hserves.next turn)

end Holds

/-- A call that has ended stays so. -/
theorem run_of_ended {contest : Contest κ count} {call : Fin count} {result : Except Error UInt8}
    (hended : contest.calls call = .inr result) (turns : List (Fin count × Clock.Instant)) :
    (contest.run turns).calls call = .inr result := by
  induction turns generalizing contest with
  | nil => exact hended
  | cons turn turns ih =>
      refine ih ?_
      rcases contest.next_cases turn with ⟨_, -, hnext⟩ | ⟨claim, table, moved, hcall, hnext, -⟩
      · rwa [hnext]
      · rwa [hnext, calls_move_of_ne (ne_of_ended hcall hended)]

/-- A call that ended in a run did so at one of its turns. -/
theorem exists_last_turn {contest : Contest κ count} {call : Fin count} {claim : Claim}
    (hcall : contest.calls call = .inl claim) {turns : List (Fin count × Clock.Instant)}
    {result : Except Error UInt8} (hended : (contest.run turns).calls call = .inr result) :
    ∃ earlier now later last, turns = earlier ++ (call, now) :: later ∧
      (contest.run earlier).calls call = .inl last ∧
      ((contest.run earlier).next (call, now)).calls call = .inr result := by
  induction turns generalizing contest claim with
  | nil =>
      rw [run, List.foldl_nil, hcall] at hended
      cases hended
  | cons turn turns ih =>
      cases hnext : (contest.next turn).calls call with
      | inl middle =>
          obtain ⟨earlier, now, later, last, hturns, hlast, hresult⟩ := ih hnext hended
          exact ⟨turn :: earlier, now, later, last, by rw [hturns]; rfl, hlast, hresult⟩
      | inr early =>
          -- The call has ended with this turn, so it is the one whose turn it was.
          have hsame := run_of_ended hnext turns
          rw [show (contest.next turn).run turns = contest.run (turn :: turns) from rfl,
            hended] at hsame
          cases hsame
          obtain ⟨taker, now⟩ := turn
          have htaker : taker = call := by
            by_contra hne
            rw [calls_next_of_ne (Ne.symm hne), hcall] at hnext
            cases hnext
          subst htaker
          exact ⟨[], now, turns, claim, rfl, hcall, hnext⟩

/-- Runs are taken up where they were left. -/
theorem run_append (contest : Contest κ count) (earlier later : List (Fin count × Clock.Instant)) :
    contest.run (earlier ++ later) = (contest.run earlier).run later :=
  List.foldl_append

end Contest

/-- Whether every lookup of a label in a minute that is asked long enough yields a provider. -/
def SlotTable.Finds (table : SlotTable κ) (label : String) (minute : Minute)
    (provider : Provider) : Prop :=
  ∃ count, ∀ moments : List Moment, moments.length = count →
    (∀ moment ∈ moments, minuteOf moment.unixSeconds = minute) → ∀ journal,
      ∃ providers after, provider ∈ providers ∧
        Routing.Consumes moments (Routing.lookup label (.slotted table))
          ⟨.slotted table, journal⟩ providers after

/-- The record in a slot of a minute is found in that minute. -/
theorem SlotTable.finds_of_record {table : SlotTable κ} {label : String} {minute : Minute}
    {index : UInt8} (hindex : index.toNat < table.slots) {record : ProviderRecord}
    (hrecord : table.record? (slotOf label minute index) = some record) :
    table.Finds label minute record.peerInfo := by
  refine ⟨(table.remaining label.toUTF8.toList minute 2).length + 1,
    fun moments hlength hminute journal => ?_⟩
  obtain ⟨after, hconsumes⟩ := Routing.exists_consumes_slots label.toUTF8.toList _ moments hminute
    hlength [] 2 table journal rfl
  refine ⟨_, after, ?_, hconsumes⟩
  rw [SlotTable.remaining, if_pos (by decide)]
  refine List.mem_append_left _ (List.mem_filterMap.2 ⟨index.toNat, List.mem_range.2 hindex, ?_⟩)
  rw [UInt8.ofNat_toNat]
  rw [slotOf] at hrecord
  rw [hrecord]
  rfl

namespace Publishers

variable {publishers : Publishers count} {table : Noted (SlotTable κ)}
  {turns : List (Fin count × Clock.Instant)} {call : Fin count} {index : UInt8}

/-- Whether a call writes a slot while another one is about to write the same slot with a larger
sequence number. -/
def IsOvertaken (publishers : Publishers count) (table : Noted (SlotTable κ))
    (turns : List (Fin count × Clock.Instant)) (call : Fin count) : Prop :=
  ∃ earlier now later address sequence, turns = earlier ++ (call, now) :: later ∧
    IsWriting table.state.layout (((publishers.start table).run earlier).calls call) address
      sequence ∧
    ∃ rival greater, rival ≠ call ∧ sequence < greater ∧
      IsWriting table.state.layout (((publishers.start table).run earlier).calls rival) address
        greater

/-- A call that was told that its record was taken in has written its slot at the turn at which it
was about to write, and the slot holds what it or a rival wrote. -/
theorem exists_holds (honline : table.state.store.online = true)
    (hok : ((publishers.start table).run turns).calls call = .inr (.ok index))
    {earlier later : List (Fin count × Clock.Instant)} {now : Clock.Instant}
    (hturns : turns = earlier ++ (call, now) :: later) {address : κ} {sequence : Int}
    (hwriting : IsWriting table.state.layout (((publishers.start table).run earlier).calls call)
      address sequence) :
    address = table.state.layout.address (publishers.slot index) ∧
      ∃ writer item, ((publishers.start table).run turns).Holds publishers table.state.layout
        ((publishers.start table).run earlier).calls call address sequence writer item := by
  have hserves := (Contest.Serves.start publishers table honline).run earlier
  subst hturns
  rw [Contest.run_append] at hok ⊢
  generalize (publishers.start table).run earlier = middle at *
  obtain ⟨claim, place, hcall, hpoint, rfl⟩ := hwriting
  rw [show middle.run ((call, now) :: later) = (middle.next (call, now)).run later from rfl]
    at hok ⊢
  obtain ⟨⟨state, journal⟩, moved, hnext, hmoves⟩ := Contest.next_moves hcall now
  rw [hnext] at hok ⊢
  cases hmoves with
  | full _ hprobing | passed _ _ hprobing | found _ _ hprobing =>
      rw [hpoint] at hprobing
      cases hprobing
  | stored _ _ _ hstored haccepts hagrees =>
      rw [hpoint] at hstored
      cases hstored
      rw [Contest.run_of_ended Contest.calls_move_self] at hok
      cases hok
      have hholds := Contest.Holds.of_stored hserves hcall ⟨state, journal⟩ hagrees
      have hafter := hserves.of_stored hcall hpoint ⟨state, journal⟩ hagrees
      exact ⟨by rw [hserves.slot_eq hcall], hholds.run hafter later⟩
  | refused _ _ error hrefused hput =>
      rw [Contest.run_of_ended Contest.calls_move_self] at hok
      cases hok

/-- A call that ends well at its turn was about to write the slot it is told. -/
theorem is_writing_of_ok {contest : Contest κ count} {claim : Claim} {now : Clock.Instant}
    (hcall : contest.calls call = .inl claim)
    (hok : (contest.next (call, now)).calls call = .inr (.ok index)) :
    ∃ address sequence, IsWriting contest.table.state.layout (contest.calls call) address
      sequence := by
  obtain ⟨⟨state, journal⟩, moved, hnext, hmoves⟩ := Contest.next_moves hcall now
  rw [hnext, Contest.calls_move_self] at hok
  subst hok
  cases hmoves with
  | stored _ sequence _ hpoint => exact ⟨_, sequence, claim, index, hcall, hpoint, rfl⟩

/-- Once all calls have ended, the slot of a call that was told that its record was taken in holds
the record of a call, which is another one exactly if the call was overtaken. -/
theorem exists_writer (honline : table.state.store.online = true)
    (hended : ∀ other, ∃ result, ((publishers.start table).run turns).calls other = .inr result)
    (hok : ((publishers.start table).run turns).calls call = .inr (.ok index)) :
    ∃ writer, ((publishers.start table).run turns).table.state.record? (publishers.slot index) =
        some (publishers.records writer).stored ∧
      (writer = call ↔ ¬ publishers.IsOvertaken table turns call) := by
  have hlayout := ((Contest.Serves.start publishers table honline).run turns).layout_eq
  have hbegin : (publishers.start table).calls call = .inl (publishers.claim call) := rfl
  obtain ⟨earlier, now, later, claim, hturns, hlast, hresult⟩ :=
    Contest.exists_last_turn hbegin hok
  obtain ⟨address, sequence, hwriting⟩ := is_writing_of_ok hlast hresult
  rw [((Contest.Serves.start publishers table honline).run earlier).layout_eq] at hwriting
  obtain ⟨rfl, writer, item, hholds⟩ := exists_holds honline hok hturns hwriting
  have hrecord := hholds.record_eq (publishers.slot index) (by rw [hlayout])
  refine ⟨writer, hrecord, ?_⟩
  constructor
  · rintro rfl ⟨_, _, _, _, number, hsplit, hwrites, rival, greater, hne, hlt, hrival⟩
    -- The rival has ended, so the number of the item that the slot holds is at least the rival's.
    obtain ⟨rfl, other, held, hother⟩ := exists_holds honline hok hsplit hwrites
    have hsame : (publishers.records other).nodeId = (publishers.records writer).nodeId := by
      have hstored := hother.record_eq (publishers.slot index) (by rw [hlayout])
      rw [hrecord, Option.some_inj] at hstored
      exact (congrArg ProviderRecord.nodeId hstored).symm
    rcases hother.writer_cases with ⟨-, hnumber⟩ | ⟨hdifferent, -⟩
    · rcases hother.passed rival greater hne hrival with hstill | hle
      · obtain ⟨result, hresult⟩ := hended rival
        rw [hresult] at hstill
        exact not_is_writing_ended hstill
      · omega
    · exact hdifferent (publishers.distinct hsame)
  · intro hnot
    by_contra hne
    -- Another writer was about to write the slot with a larger number.
    rcases hholds.writer_cases with ⟨heq, -⟩ | ⟨-, hlt, hbefore⟩
    · exact hne heq
    · exact hnot ⟨earlier, now, later, _, sequence, hturns, hwriting, writer, _, hne, hlt, hbefore⟩

/-- Once all calls have ended, a node that was told that its record was taken in is found exactly if
it was not overtaken. If it was, it holds no slot of the minute that it did not hold before. -/
theorem found_iff_not_overtaken (publishers : Publishers count) (table : Noted (SlotTable κ))
    (honline : table.state.store.online = true) (turns : List (Fin count × Clock.Instant))
    (hended : ∀ other, ∃ result, ((publishers.start table).run turns).calls other = .inr result)
    (call : Fin count) (index : UInt8)
    (hok : ((publishers.start table).run turns).calls call = .inr (.ok index)) :
    (((publishers.start table).run turns).table.state.record? (publishers.slot index) =
        some (publishers.records call).stored ↔ ¬ publishers.IsOvertaken table turns call) ∧
      (¬ publishers.IsOvertaken table turns call →
        ((publishers.start table).run turns).table.state.Finds publishers.label publishers.minute
          (publishers.records call).stored.peerInfo) ∧
      (publishers.IsOvertaken table turns call →
        (∀ place, ¬ table.state.Holds publishers.label publishers.minute place
          (publishers.records call).nodeId) →
        ∀ place, ¬ ((publishers.start table).run turns).table.state.Holds publishers.label
          publishers.minute place (publishers.records call).nodeId) := by
  have hserves := (Contest.Serves.start publishers table honline).run turns
  obtain ⟨writer, hrecord, hwriter⟩ := exists_writer honline hended hok
  have hkept : ((publishers.start table).run turns).table.state.record? (publishers.slot index) =
      some (publishers.records call).stored ↔ ¬ publishers.IsOvertaken table turns call := by
    rw [← hwriter, hrecord, Option.some_inj]
    constructor
    · intro hstored
      have hnode := congrArg ProviderRecord.nodeId hstored
      exact publishers.distinct hnode
    · rintro rfl
      rfl
  refine ⟨hkept, fun hnot => ?_, fun hovertaken hnew place hholds => ?_⟩
  · refine SlotTable.finds_of_record ?_ (hkept.2 hnot)
    rw [hserves.slots_eq]
    exact hserves.indices call index hok
  · -- What the node holds was there before, or the node has written it into the slot it was told.
    obtain ⟨hplace, hholder⟩ := hholds
    obtain ⟨record, hread, hnode⟩ := Option.map_eq_some_iff.1 hholder
    obtain ⟨item, hitem, hdecode⟩ := Option.bind_eq_some_iff.1 hread
    rw [hserves.layout_eq] at hitem
    rcases hserves.items _ item hitem with hbefore | ⟨other, index', hother, haddress, hvalue⟩
    · refine hnew place ⟨by rwa [← hserves.slots_eq], Option.map_eq_some_iff.2 ⟨record, ?_, hnode⟩⟩
      rw [SlotTable.record?, hbefore, Option.bind_some, hdecode]
    · rw [hvalue, ProviderRecord.decode_encode _ (publishers.storable other), Except.toOption,
        Option.some_inj] at hdecode
      obtain rfl : other = call :=
        publishers.distinct ((congrArg ProviderRecord.nodeId hdecode).trans hnode)
      rw [hok] at hother
      cases hother
      refine hkept.1 ?_ hovertaken
      rw [SlotTable.record?, hserves.layout_eq, haddress, hitem, Option.bind_some, hvalue,
        ProviderRecord.decode_encode _ (publishers.storable other)]
      rfl

/-- Two publishers that try the same slot first, the second with the later record. -/
def rivals : Publishers 2 where
  label := "label"
  minute := 0
  records call := ⟨UInt8.ofNat (2 * call.val) :: List.replicate 31 0, rfl, [],
    UInt64.ofNat (10 * call.val)⟩
  moments call := { now := 0, wall := 10 * call.val }
  minute_eq := by decide
  distinct := by
    unfold Function.Injective
    decide
  storable _ := Nat.zero_lt_succ _

/-- An empty table of two slots, which are kept apart by their numbers. -/
def twoSlots : Noted (SlotTable UInt8) :=
  ⟨{ layout := ⟨Slot.index, fun _ _ _ => []⟩, slots := 2 }, []⟩

/-- Both publishers read the slot before one of them writes it. -/
def bothReadFirst : List (Fin 2 × Clock.Instant) :=
  [(0, 0), (1, 0), (0, 0), (1, 0)]

/-- Both publishers are told that their records were taken in, into the same slot. -/
theorem both_taken_in (call : Fin 2) :
    ((rivals.start twoSlots).run bothReadFirst).calls call = .inr (.ok 0) := by
  revert call
  decide +kernel

/-- The first of the two publishers is overtaken by the second, and ends up without a slot. -/
theorem found_iff_not_overtaken_rivals :
    (∀ other, ∃ result, ((rivals.start twoSlots).run bothReadFirst).calls other = .inr result) ∧
      ((rivals.start twoSlots).run bothReadFirst).calls 0 = .inr (.ok 0) ∧
      rivals.IsOvertaken twoSlots bothReadFirst 0 ∧
      ∀ place, ¬ ((rivals.start twoSlots).run bothReadFirst).table.state.Holds rivals.label
        rivals.minute place (rivals.records 0).nodeId := by
  have hended : ∀ other, ∃ result,
      ((rivals.start twoSlots).run bothReadFirst).calls other = .inr result :=
    fun other => ⟨_, both_taken_in other⟩
  have hovertaken : rivals.IsOvertaken twoSlots bothReadFirst 0 :=
    ⟨[(0, 0), (1, 0)], 0, [(1, 0)], 0, 0, rfl,
      ⟨{ rivals.claim 0 with point := .writing 0 0 }, 0, by decide +kernel, rfl, rfl⟩,
      1, 10, by decide, by decide,
      ⟨{ rivals.claim 1 with point := .writing 0 10 }, 0, by decide +kernel, rfl, rfl⟩⟩
  refine ⟨hended, both_taken_in 0, hovertaken, ?_⟩
  refine (found_iff_not_overtaken rivals twoSlots rfl bothReadFirst hended 0 0
    (both_taken_in 0)).2.2 hovertaken ?_
  rintro place ⟨-, hholder⟩
  cases hholder

/-- It is not so that publishers that were told that their records were taken in always hold slots,
even if there are as many slots as publishers. -/
theorem not_all_taken_in_publishers_hold :
    ¬ ∀ (count : Nat) (publishers : Publishers count) (table : Noted (SlotTable UInt8)),
      table.state.store.online = true → count ≤ table.state.slots →
      ∀ turns, (∀ other, ∃ result,
        ((publishers.start table).run turns).calls other = .inr result) →
      ∀ call index, ((publishers.start table).run turns).calls call = .inr (.ok index) →
        ∃ place, ((publishers.start table).run turns).table.state.Holds publishers.label
          publishers.minute place (publishers.records call).nodeId := by
  intro hall
  -- Neither of the two slots is held by the first publisher.
  obtain ⟨place, hplace, hholder⟩ := hall 2 rivals twoSlots rfl (by decide) bothReadFirst
    (fun other => ⟨_, both_taken_in other⟩) 0 0 (both_taken_in 0)
  have hcases : place = 0 ∨ place = 1 := by
    rw [← UInt8.toNat_inj, ← UInt8.toNat_inj]
    have hslots : ((rivals.start twoSlots).run bothReadFirst).table.state.slots = 2 := rfl
    rw [hslots] at hplace
    show place.toNat = 0 ∨ place.toNat = 1
    omega
  rcases hcases with rfl | rfl
  · revert hholder
    decide +kernel
  · revert hholder
    decide +kernel

end Publishers

end PeerFinder.Rendezvous
