import PeerFinder.Rendezvous.Feed

/-!
# Routing tables

A routing table stores records under labels and looks them up. There are two: a scripted one, whose
answers and delays are given, and one over provider slots.
-/

namespace PeerFinder.Rendezvous

/-- A routing table that follows a script. -/
structure ScriptedTable where
  /-- What every lookup yields. -/
  providers : List PeerInfo := []
  /-- Wait before each provider. -/
  itemDelay : Clock.Span := 0
  /-- Whether lookups hang after the last provider. -/
  hangs : Bool := false
  /-- Errors that a lookup yields, by the number of the provider that follows. -/
  errorsBefore : List Nat := []
  failsBootstrap : Bool := false
  /-- Wait before a record is stored. -/
  provideDelay : Clock.Span := 0
  /-- Which records are refused, by the number of the call. -/
  refusals : List Bool := []
  failsClose : Bool := false
  /-- How many records were handed in. -/
  provided : Nat := 0
  /-- The records stored, with their labels, in order. -/
  published : List (String × ProviderRecord) := []
  bootstraps : Nat := 0
  isClosed : Bool := false

namespace ScriptedTable

/-- The errors that a lookup yields before the provider of a number. -/
def errorsAt (table : ScriptedTable) (number : Nat) : List (Clock.Span × Provider) :=
  (table.errorsBefore.filter (· = number)).map fun number =>
    (0, .error (.dht s!"bad entry before {number}"))

/-- What a lookup yields from the provider of a number on. -/
def arrivalsFrom (table : ScriptedTable) :
    (number : Nat) → List PeerInfo → List (Clock.Span × Provider)
  | number, [] => table.errorsAt number
  | number, info :: rest =>
      table.errorsAt number ++ (table.itemDelay, .ok info) :: table.arrivalsFrom (number + 1) rest

/-- Begin a lookup. -/
def lookup (table : ScriptedTable) : Feed :=
  .scripted (table.arrivalsFrom 0 table.providers) table.hangs none

end ScriptedTable

/-- A routing table. -/
inductive Routing (κ : Type) where
  | scripted (table : ScriptedTable)
  | slotted (table : SlotTable κ)

/-- A record on its way into a table. -/
inductive Provide where
  /-- The table answers at an instant. -/
  | delayed (number : Nat) (label : String) (record : ProviderRecord) (due : Clock.Instant)
  /-- The table has answered. -/
  | answered (result : Except Error Unit)

namespace Provide

/-- When the table answers. -/
def wake : Provide → Option Clock.Instant
  | .delayed _ _ _ due => some due
  | .answered _ => none

end Provide

namespace Routing

variable {κ : Type} [DecidableEq κ]

/-- Join the network. -/
def bootstrap : Routing κ → Except Error Unit × Routing κ
  | .scripted table =>
      (if table.failsBootstrap then .error (.dht "no bootstrap nodes reachable") else .ok (),
        .scripted { table with bootstraps := table.bootstraps + 1 })
  | .slotted table =>
      (if table.store.online then .ok () else .error (.dht "bootstrap reached no nodes"),
        .slotted table)

/-- Leave the network. -/
def close : Routing κ → Except Error Unit × Routing κ
  | .scripted table =>
      (if table.failsClose then .error (.dht "close refused") else .ok (),
        .scripted { table with isClosed := true })
  | .slotted table => (.ok (), .slotted table)

/-- Hand a record in under a label. A slotted table takes no time to answer. -/
def provide (moment : Moment) (label : String) (record : ProviderRecord)
    (routing : Noted (Routing κ)) : Provide × Noted (Routing κ) :=
  match routing.state with
  | .scripted table =>
      let due :=
        if table.provideDelay = 0 then moment.now else Clock.after moment.now table.provideDelay
      (.delayed table.provided label record due,
        routing.modify fun _ => .scripted { table with provided := table.provided + 1 })
  | .slotted table =>
      let (result, table) :=
        (Claim.ofLabel label record moment).run moment.now (routing.modify fun _ => table)
      (.answered (result.map fun _ => ()), table.modify .slotted)

/-- The answer to a record that was handed in, if there is one by now. -/
def answer? (now : Clock.Instant) (call : Provide) (routing : Routing κ) :
    Option (Except Error Unit × Routing κ) :=
  match call, routing with
  | .answered result, routing => some (result, routing)
  | .delayed number label record due, .scripted table =>
      if now < due then none
      else if table.refusals.getD number false then
        some (.error (.dht s!"provide {number} refused"), .scripted table)
      else
        some (.ok (), .scripted { table with published := table.published ++ [(label, record)] })
  | .delayed .., .slotted _ => none

/-- Begin the lookup of a label. -/
def lookup (label : String) : Routing κ → Feed
  | .scripted table => table.lookup
  | .slotted _ => .ofLabel label

/-- Ask a lookup for the next provider. -/
def poll (moment : Moment) (feed : Feed) (routing : Noted (Routing κ)) :
    Feed.Poll × Noted (Routing κ) :=
  match feed, routing.state with
  | .scripted arrivals hangs due, _ =>
      (Feed.pollScript moment.now arrivals hangs due, routing)
  | .slots label ready rounds, .slotted table =>
      let (poll, table) := Feed.pollSlots moment label ready rounds (routing.modify fun _ => table)
      (poll, table.modify .slotted)
  | .slots .., .scripted _ => (.ended, routing)

end Routing

end PeerFinder.Rendezvous
