import PeerFinder.Activity
import PeerFinder.Journal
import PeerFinder.Record.Codec
import PeerFinder.Rendezvous.ItemStore
import PeerFinder.Rendezvous.Slot

/-!
# Claiming a slot

A provider publishes a record by claiming a slot of the present minute. It probes the slots in a
circle, from one that its identity picks, and takes the first that is empty, unreadable, or its own.
Reading a slot and writing it are two steps, and nothing holds the slot in between.
-/

namespace PeerFinder.Rendezvous

/-- A slotted table: how slots are derived, how many there are, and the store that holds them. The
number of a slot is one byte. -/
structure SlotTable (κ : Type) where
  layout : Layout κ
  slots : Nat := 16
  slots_pos : 0 < slots := by omega
  slots_le : slots ≤ 255 := by omega
  store : ItemStore κ := {}

/-- A table with a number of slots, of which there are at least one and at most 255. -/
def SlotTable.withSlots {κ : Type} (layout : Layout κ) (slots : Nat) (store : ItemStore κ) :
    SlotTable κ where
  layout := layout
  slots := max (min slots 255) 1
  store := store

/-- The points of a claim. -/
inductive Claim.Point where
  /-- The slot that is so many steps from the first one is to be read. -/
  | probing (offset : Nat)
  /-- A slot was found free and is to be written with a sequence number. -/
  | writing (index : UInt8) (sequence : Int)
deriving DecidableEq, Repr

/-- A claim: the label, the record, the minute in which the claim began, and where it stands. -/
structure Claim where
  label : List UInt8
  record : ProviderRecord
  minute : Minute
  point : Claim.Point := .probing 0
deriving DecidableEq

namespace Claim

/-- The number that the first eight bytes of an identity stand for, the lowest first. -/
def head (nodeId : List UInt8) : UInt64 :=
  (nodeId.take 8).foldr (fun byte number => number <<< 8 ||| byte.toUInt64) 0

/-- The slot that a node tries first in a minute. -/
def firstSlot (nodeId : List UInt8) (minute : Minute) (slots : Nat) : Nat :=
  (head nodeId ^^^ minute).toNat % slots

/-- The greatest sequence number, `2 ^ 63 - 1`. -/
def lastSequence : Int := 9223372036854775807

/-- A Unix time as a sequence number: times from `2 ^ 63` on count as negative. -/
def stamp (publishedAt : UInt64) : Int :=
  Int.bmod publishedAt.toNat UInt64.size

/-- The sequence number of a record that replaces an item: past the number held, and at least the
time of publication. -/
def sequenceAfter (held : Option Item) (record : ProviderRecord) : Int :=
  max (held.elim 0 fun item => min (item.sequence + 1) lastSequence) (stamp record.publishedAt)

/-- Whether an item is the record of another node. -/
def isForeign (record : ProviderRecord) (item : Item) : Bool :=
  match ProviderRecord.decode item.value with
  | .ok held => held.nodeId != record.nodeId
  | .error _ => false

/-- The error when every slot is held by another node. -/
def allTaken (slots : Nat) : Error :=
  .dht s!"all {slots} provider slots are taken"

/-- The slot of a claim with a number. -/
def slot (claim : Claim) (index : UInt8) : Slot :=
  ⟨claim.label, claim.minute, index⟩

/-- The number of the slot that is so many steps from the first one. -/
def probe (claim : Claim) (slots offset : Nat) : UInt8 :=
  UInt8.ofNat ((firstSlot claim.record.nodeId claim.minute slots + offset) % slots)

variable {κ : Type} [DecidableEq κ]

/-- A step of a claim: it reads one slot or writes one. -/
def step (now : Clock.Instant) :
    Activity.CallStep (Noted (SlotTable κ)) Claim (Except Error UInt8) :=
  fun table claim =>
    let { layout, slots, store, .. } := table.state
    match claim.point with
    | .probing offset =>
        if slots ≤ offset then some (table, .inr (.error (allTaken slots)))
        else
          let index := claim.probe slots offset
          let (held, store) := store.get (layout.address (claim.slot index))
          let read := table.modify ({ · with store := store })
          if held.any (isForeign claim.record) then
            some (read.note now (.slotTaken index.toNat),
              .inl { claim with point := .probing (offset + 1) })
          else
            some (read,
              .inl { claim with point := .writing index (sequenceAfter held claim.record) })
    | .writing index sequence =>
        let slot := claim.slot index
        let value := claim.record.encode
        let item := ⟨sequence, value, layout.sign slot sequence value⟩
        match store.put (layout.address slot) item with
        | .ok store => some (table.modify ({ · with store := store }), .inr (.ok index))
        | .error error => some (table, .inr (.error error))

/-- A claim of a slot in the minute of a moment. -/
def ofLabel (label : String) (record : ProviderRecord) (moment : Moment) : Claim where
  label := label.toUTF8.toList
  record := record
  minute := minuteOf moment.unixSeconds

/-- Carry a claim out with nothing in between. Every slot is read at most once and one is written,
so the budget suffices. -/
def run (claim : Claim) (now : Clock.Instant) (table : Noted (SlotTable κ)) :
    Except Error UInt8 × Noted (SlotTable κ) :=
  let outcome := Activity.runCall (step now) (table.state.slots + 2) table claim
  match outcome.call with
  | .inr result => (result, outcome.state)
  | .inl _ => (.error (allTaken table.state.slots), outcome.state)

end Claim

end PeerFinder.Rendezvous
