import PeerFinder.Rendezvous.Claim

/-!
# Feeds of providers

A lookup under a label yields a feed: providers, or errors in their place, one after another, until
it ends or no more come. The feed of a slotted table reads every slot of the present minute, and
once those are used up every slot of the minute before.
-/

namespace PeerFinder.Rendezvous

/-- What a feed yields: a provider, or an error in the place of one. -/
abbrev Provider := Except Error PeerInfo

/-- A lookup in progress. -/
inductive Feed where
  /-- Providers that each arrive so long after the one before was taken, and then an end or a hang.
  The instant is when the next one arrives, once that is being waited for. -/
  | scripted (arrivals : List (Clock.Span × Provider)) (hangs : Bool) (due : Option Clock.Instant)
  /-- The providers in the slots of a label: those read and not yet taken, and how many minutes are
  still to be read, the present one and the one before. -/
  | slots (label : List UInt8) (ready : List Provider) (rounds : Nat)

namespace Feed

/-- The lookup of a label in a slotted table. -/
def ofLabel (label : String) : Feed :=
  .slots label.toUTF8.toList [] 2

/-- What a feed does when the next provider is asked for. -/
inductive Poll where
  /-- Nothing is there yet. -/
  | pending (feed : Feed)
  /-- A provider is taken. -/
  | item (provider : Provider) (feed : Feed)
  /-- There are no more. -/
  | ended

/-- Ask a script for the next provider. -/
def pollScript (now : Clock.Instant) (arrivals : List (Clock.Span × Provider)) (hangs : Bool)
    (due : Option Clock.Instant) : Poll :=
  match arrivals with
  | [] => if hangs then .pending (.scripted [] hangs due) else .ended
  | (delay, provider) :: rest =>
      let due := due.getD (if delay = 0 then now else Clock.after now delay)
      if due ≤ now then .item provider (.scripted rest hangs none)
      else .pending (.scripted arrivals hangs (some due))

variable {κ : Type} [DecidableEq κ]

/-- Read a slot: the provider in it, if it holds a record. -/
def readSlot (slot : Slot) (now : Clock.Instant) (table : Noted (SlotTable κ)) :
    Option Provider × Noted (SlotTable κ) :=
  let { layout, store, .. } := table.state
  let (held, store) := store.get (layout.address slot)
  let read := table.modify ({ · with store := store })
  match held.map fun item => ProviderRecord.decode item.value with
  | none => (none, read)
  | some (.ok record) => (some record.peerInfo, read)
  | some (.error fault) =>
      (none, read.note now
        (.recordUnreadable slot.minute.toNat slot.index.toNat (.codec fault)))

/-- Read slots in order. -/
def readSlots (label : List UInt8) (minute : Minute) (now : Clock.Instant) :
    List Nat → Noted (SlotTable κ) → List Provider × Noted (SlotTable κ)
  | [], table => ([], table)
  | index :: rest, table =>
      let (provider, table) := readSlot ⟨label, minute, UInt8.ofNat index⟩ now table
      let (providers, table) := readSlots label minute now rest table
      (provider.toList ++ providers, table)

/-- Read every slot of a minute. -/
def readMinute (label : List UInt8) (minute : Minute) (now : Clock.Instant)
    (table : Noted (SlotTable κ)) : List Provider × Noted (SlotTable κ) :=
  readSlots label minute now (List.range table.state.slots) table

/-- The minute that is read when so many rounds are left: the present one first. -/
def roundMinute (moment : Moment) (rounds : Nat) : Minute :=
  let minute := minuteOf moment.unixSeconds
  if 2 ≤ rounds then minute else previousMinute minute

/-- Ask for the next provider in the slots of a label. The clock is read anew for every round. -/
def pollSlots (moment : Moment) (label : List UInt8) :
    (ready : List Provider) → (rounds : Nat) → Noted (SlotTable κ) →
      Poll × Noted (SlotTable κ)
  | provider :: ready, rounds, table => (.item provider (.slots label ready rounds), table)
  | [], 0, table => (.ended, table)
  | [], rounds + 1, table =>
      let (ready, table) := readMinute label (roundMinute moment (rounds + 1)) moment.now table
      match ready with
      | provider :: rest => (.item provider (.slots label rest rounds), table)
      | [] => pollSlots moment label [] rounds table

end Feed

end PeerFinder.Rendezvous
