import PeerFinder.Simulation.Call

/-!
# Beginning a command

`Simulation.begin` does what a command asks for as far as it goes without waiting. The command is
answered then, or a call is left.
-/

namespace PeerFinder.Simulation

/-- What a command leads to: the simulation with a call that is left, or with an answer. -/
abbrev Begun := Simulation × (Call ⊕ Answer)

/-- A command that is answered with the simulation unchanged. -/
def reply (sim : Simulation) (answer : Answer) : Begun :=
  (sim, .inr answer)

/-- A command that is done. -/
def finish (sim : Simulation) : Begun :=
  sim.reply .done

/-- A command that leaves a call. -/
def leave (sim : Simulation) (call : Call) : Begun :=
  (sim, .inl call)

/-- A command to something that may be lacking. -/
def withOption {α : Type} (sim : Simulation) (target : Option α) (act : α → Begun) : Begun :=
  match target with
  | some target => act target
  | none => sim.reply .misplaced

/-- Replace what has a name in a list, or add it. -/
def assign {α : Type} (entries : List (String × α)) (name : String) (value : α) :
    List (String × α) :=
  entries.filter (·.1 ≠ name) ++ [(name, value)]

/-! ## Scopes and calls -/

/-- What can be seen of a scope now. -/
def view (sim : Simulation) (scope : Scope) : ScopeView :=
  ⟨scope.isCancelled sim.env.tree, scope.isDone sim.env.tree sim.env.now, scope.deadline⟩

/-- Act on the scope of a name. -/
def withScope (sim : Simulation) (name : String) (act : Scope → Begun) : Begun :=
  sim.withOption (sim.scopes.lookup name) act

/-- Act on the scope of a name, or on a new root scope if no name is given. -/
def withScopeOrRoot (sim : Simulation) (name? : Option String)
    (act : Simulation → Scope → Begun) : Begun :=
  match name? with
  | some name => sim.withScope name (act sim)
  | none =>
      let (scope, tree) := Scope.new sim.env.tree
      act { sim with env := { sim.env with tree := tree } } scope

/-- Derive a scope, from a parent or from a new root, and give it a name. -/
def deriveScope (sim : Simulation) (name : String) (parent? : Option String)
    (timeout? : Option Clock.Span) (rewrap : Bool) : Begun :=
  sim.withScopeOrRoot parent? fun sim parent =>
    let (scope, tree) :=
      match timeout?, parent? with
      | some timeout, _ => parent.withTimeout sim.env.now timeout sim.env.tree
      | none, some _ => parent.child sim.env.tree
      | none, none => (parent, sim.env.tree)
    let scope := if rewrap then Scope.ofToken scope.token else scope
    let sim :=
      { sim with env := { sim.env with tree := tree }, scopes := assign sim.scopes name scope }
    sim.reply (.scope (sim.view scope))

/-- Ask for the answer of a call in the background. It is given once. -/
def join (sim : Simulation) (name : String) : Begun :=
  match sim.ended.lookup name with
  | some (time, answer) =>
      { sim with ended := sim.ended.filter (·.1 ≠ name) }.reply (.joined time answer)
  | none => sim.reply (if sim.background.any (·.name == name) then .pending else .absent)

/-- The notices so far with one of the given messages, in order. -/
def notices (sim : Simulation) (messages : List String) : Journal :=
  sim.env.journal.reverse.filter fun (_, notice) => messages.contains notice.message

/-! ## The peer store and the transport -/

/-- Take in a sighting past the intake, and dial the peer whatever came of it. -/
def addAndDial (sim : Simulation) (sighting : Sighting) (source : String)
    (timeout? : Option Clock.Span) : Begun :=
  let (_, store) := sim.intake.store.addOrUpdate sighting source sim.env.now
  let stored := sim.setStore store
  let dial : AutoConnect :=
    match timeout? with
    | some timeout => { peer := sighting.info, timeout := timeout }
    | none => { peer := sighting.info }
  { stored with intake := { stored.intake with dials := stored.intake.dials ++ [dial] } }.finish

/-- Change the transport and nothing else. -/
def onTransport (sim : Simulation) (change : Transport → Transport) : Begun :=
  (sim.mapTransport change).finish

/-- Connect to a peer without a bound. -/
def beginConnect (sim : Simulation) (info : PeerInfo) : Begun :=
  let (connect, transport) := sim.env.transport.beginConnect sim.env.now info
  (sim.mapTransport fun _ => transport).leave (.connect connect)

/-- The connects so far, ordered by time and then by identity. -/
def attemptsOf (sim : Simulation) (id? : Option PeerId) : List (Clock.Instant × PeerId) :=
  let chosen := sim.env.transport.attempts.filter fun (_, id) => id?.all (· = id)
  chosen.mergeSort fun left right =>
    left.1 < right.1 || left.1 = right.1 && (compare left.2 right.2).isLE

/-! ## The local network and the routing table -/

/-- The mechanism at the place of a name. -/
def mechanism? (sim : Simulation) (name : String) : Option (Nat × Mechanism) := do
  let place ← sim.places.lookup name
  some (place, ← sim.env.mechanisms[place]?)

/-- Change every mechanism of the local network. -/
def mapLocalNets (sim : Simulation) (change : LocalNet.Service → LocalNet.Service) :
    Simulation :=
  { sim with
    env := { sim.env with
      mechanisms := sim.env.mechanisms.map fun
        | .localNet service => .localNet (change service)
        | mechanism => mechanism } }

/-- The data of an announcement that the local network carries: what is too long is left out. -/
def carried (announcement : Announcement) : Announcement :=
  { announcement with
    data := announcement.data.filter (·.utf8ByteSize ≤ Announcement.dataLimit) }

/-- Let a peer announce itself. -/
def announce (sim : Simulation) (announcement : Announcement) : Begun :=
  sim.withOption sim.env.swarm fun swarm =>
    if swarm.isOpen then (sim.mapLocalNets (·.deliver (carried announcement))).finish
    else sim.finish

/-- Close the local network. -/
def closeSwarm (sim : Simulation) : Begun :=
  sim.withOption sim.env.swarm fun swarm =>
    let closed := sim.mapLocalNets LocalNet.Service.endSubscriptions
    { closed with env := { closed.env with swarm := some { swarm with isOpen := false } } }.finish

/-- Act on the routing table. -/
def withRouting (sim : Simulation)
    (act : Rendezvous.Routing Rendezvous.SlotAddress → Begun) : Begun :=
  if sim.hasRouting then act sim.env.routing else sim.reply .misplaced

/-- Act on the scripted routing table. -/
def withScript (sim : Simulation) (act : Rendezvous.ScriptedTable → Begun) : Begun :=
  sim.withRouting fun
    | .scripted table => act table
    | .slotted _ => sim.reply .misplaced

/-- Act on the item store. -/
def withItems (sim : Simulation)
    (act : Rendezvous.ItemStore Rendezvous.SlotAddress →
      Rendezvous.ItemStore Rendezvous.SlotAddress × Answer) : Begun :=
  sim.withRouting fun
    | .scripted _ => sim.reply .misplaced
    | .slotted table =>
        let (store, answer) := act table.store
        { sim with
          env := { sim.env with routing := .slotted { table with store := store } } }.reply answer

/-- Replace the routing table and answer with a result. -/
def replyRouting (sim : Simulation)
    (outcome : Except Error Unit × Rendezvous.Routing Rendezvous.SlotAddress) : Begun :=
  { sim with env := { sim.env with routing := outcome.2 } }.reply (.result outcome.1)

/-- Hand a record in. -/
def beginProvide (sim : Simulation) (label : String) (record : ProviderRecord) : Begun :=
  let earlier := sim.allAccesses.length
  let moment : Moment := { now := sim.env.now, wall := sim.env.wall }
  let (call, noted) :=
    Rendezvous.Routing.provide moment label record ⟨sim.env.routing, sim.env.journal⟩
  { sim with
    env := { sim.env with routing := noted.state, journal := noted.journal } }.leave
    (.provide call earlier)

/-- The items of a store by public key and then by salt. -/
def sortedItems (store : Rendezvous.ItemStore Rendezvous.SlotAddress) :
    List (Rendezvous.SlotAddress × Rendezvous.Item) :=
  store.items.mergeSort fun left right =>
    ((compare left.1.publicKey right.1.publicKey).then
      (compare left.1.salt right.1.salt)).isLE

/-- The address that was read by a use of the store by the last record handed in, counting reads
only. -/
def readAddress? (sim : Simulation) (get : Nat) : Option Rendezvous.SlotAddress :=
  (sim.accesses.filterMap Call.readAddress?)[get]?

/-- Put an item into the store past its rules. -/
def plantItem (sim : Simulation) (get : Nat) (value : List UInt8) (sequence : Int) : Begun :=
  sim.withItems fun store =>
    match sim.readAddress? get with
    | none => (store, .flag false)
    | some address =>
        (store.insert address ⟨sequence, value, List.replicate 64 0⟩, .flag true)

/-- Remove an item from the store. -/
def removeItem (sim : Simulation) (get : Nat) : Begun :=
  sim.withItems fun store =>
    match sim.readAddress? get with
    | none => (store, .flag false)
    | some address => (store.erase address, .flag (store.item? address).isSome)

/-! ## Mechanisms -/

/-- Act on the mechanism of a name. -/
def withMechanism (sim : Simulation) (name : String) (act : Nat → Mechanism → Begun) : Begun :=
  sim.withOption (sim.mechanism? name) fun (place, mechanism) => act place mechanism

/-- Replace a mechanism and answer. -/
def replyMechanism (sim : Simulation) (place : Nat) (mechanism : Mechanism) (answer : Answer) :
    Begun :=
  { sim with env := sim.env.setMechanism place mechanism }.reply answer

/-- Replace the environment and answer with a result. -/
def replyEnv (sim : Simulation) (outcome : Except Error Unit × Environment) : Begun :=
  { sim with env := outcome.2 }.reply (.result outcome.1)

/-- Act on the seeds. -/
def withSeeds (sim : Simulation) (act : Nat → Seed.Service → Begun) : Begun :=
  sim.withMechanism "static" fun place mechanism =>
    match mechanism with
    | .seeds service => act place service
    | _ => sim.reply .misplaced

/-- Add a seed that is written in a text. -/
def addSeed (sim : Simulation) (text : String) : Begun :=
  sim.withSeeds fun place service =>
    match Seed.parse text with
    | .error error => sim.reply (.result (.error error))
    | .ok seed =>
        let (added, service) := service.addSeed seed
        sim.replyMechanism place (.seeds service) (.flag added)

/-- Put a peer into the queue of the local network. -/
def offer (sim : Simulation) (sighting : Sighting) : Begun :=
  sim.withMechanism "mdns" fun place mechanism =>
    match mechanism with
    | .localNet service =>
        let (accepted, service) := service.offer sighting
        sim.replyMechanism place (.localNet service) (.flag accepted)
    | _ => sim.reply .misplaced

/-- Begin a query at a mechanism. -/
def beginFind (sim : Simulation) (name : String) (scope? : Option String) (limit : Nat)
    (sorted : Bool) : Begun :=
  sim.withMechanism name fun place _ =>
    sim.withScopeOrRoot scope? fun sim scope =>
      let (search, env) := sim.env.find place scope limit
      { sim with env := env }.leave (.find search sorted)

/-- The scripted mechanisms with a name of their own, in order. -/
def scriptedMechanisms (sim : Simulation) : List Scripted :=
  sim.env.mechanisms.filterMap fun
    | .scripted mechanism => some mechanism
    | _ => none

/-! ## The coordinator -/

/-- Act on the coordinator. -/
def withCoordinator (sim : Simulation) (act : Coordinator → Begun) : Begun :=
  sim.withOption sim.coordinator act

/-- Replace the intake and answer. -/
def replyIntake (sim : Simulation) (outcome : Answer × Coordinator.Intake) : Begun :=
  { sim with intake := outcome.2 }.reply outcome.1

/-- Take in a peer found outside the sweeps. -/
def found (sim : Simulation) (sighting : Sighting) (source : String) : Begun :=
  let (outcome, intake) := sim.intake.accept sim.env.now sighting source
  sim.replyIntake (.upsert outcome, intake)

/-- Take in several peers found outside the sweeps. -/
def foundMany (sim : Simulation) (peers : List PeerInfo) (source : String) : Begun :=
  let (outcomes, intake) :=
    sim.intake.acceptAll sim.env.now source (peers.map Sighting.ofInfo)
  sim.replyIntake (.upserts outcomes, intake)

/-- Open a subscription, in place of one of the same name. -/
def subscribe (sim : Simulation) (name : String) : Begun :=
  let others := sim.intake.subscriptions.filter (·.name ≠ name)
  let opened : Coordinator.Subscription := { name := name }
  { sim with intake := { sim.intake with subscriptions := others ++ [opened] } }.finish

/-- Take the events that a subscription holds. -/
def receive (sim : Simulation) (name : String) : Begun :=
  sim.withOption (sim.intake.subscriptions.find? (·.name == name)) fun subscription =>
    let emptied := sim.intake.subscriptions.map fun other =>
      if other.name = name then { other with events := [] } else other
    { sim with intake := { sim.intake with subscriptions := emptied } }.reply
      (.events subscription.events subscription.ended)

/-- Drop the coordinator: its work is cancelled and its subscriptions end. -/
def dropCoordinator (sim : Simulation) (coordinator : Coordinator) : Begun :=
  { sim with
    env := sim.env.cancel coordinator.scope
    intake := sim.intake.endSubscriptions }.finish

/-- Let time pass, in one command no longer than up to the far future. -/
def beginAdvance (sim : Simulation) (span : Clock.Span) : Begun :=
  sim.leave (.sleep (Clock.after sim.env.now (min span Clock.farFuture)))

/-- Begin a command. -/
def begin (sim : Simulation) : Command → Begun
  | .advance span => sim.beginAdvance span
  | .jump span => { sim with env := { sim.env with now := sim.env.now + span } }.finish
  | .join name => sim.join name
  | .scope name parent timeout rewrap => sim.deriveScope name parent timeout rewrap
  | .scopeInfo name => sim.withScope name fun scope => sim.reply (.scope (sim.view scope))
  | .cancel name =>
      sim.withScope name fun scope => { sim with env := sim.env.cancel scope.token }.finish
  | .waitDone name => sim.withScope name fun scope => sim.leave (.done scope.wait)
  | .waitCancelled name => sim.withScope name fun scope => sim.leave (.cancelled scope.token)
  | .log messages => sim.reply (.log (sim.notices messages))
  | .add sighting source =>
      let (outcome, store) := sim.intake.store.addOrUpdate sighting source sim.env.now
      (sim.setStore store).reply (.upsert outcome)
  | .setStatus id status error =>
      let (known, store) := sim.intake.store.updateStatus id status error sim.env.now
      (sim.setStore store).reply (.flag known)
  | .get id => sim.reply ((sim.intake.store.get? id).elim .absent .entry)
  | .all => sim.reply (.entries sim.intake.store.all)
  | .withStatus statuses => sim.reply (.entries (sim.intake.store.withStatus statuses))
  | .connectable => sim.reply (.entries sim.intake.store.connectable)
  | .evict =>
      let (removed, store) := Evictor.pass sim.env.now sim.notedStore
      (sim.setNotedStore store).reply (.count removed)
  | .size => sim.reply (.size sim.intake.store.size)
  | .evictable id now retention =>
      sim.reply <| (sim.intake.store.get? id).elim .absent fun record =>
        .evictable (record.isEvictable now retention) record.info
  | .limits => sim.reply (.limits sim.intake.store.limits)
  | .runEviction scope =>
      sim.withScope scope fun scope => sim.leave (.eviction scope.token (some .ready))
  | .autoConnect sighting source timeout => sim.addAndDial sighting source timeout
  | .setReachable id reachable => sim.onTransport (·.setReachable id reachable)
  | .disconnect id => sim.onTransport (·.disconnect id)
  | .addKnown info => sim.onTransport (·.addKnown info)
  | .setDelay delay => sim.onTransport ({ · with delay := delay })
  | .connect info => sim.beginConnect info
  | .isConnected id => sim.reply (.flag (sim.env.transport.isConnected id))
  | .knownPeers => sim.reply (.infos sim.env.transport.knownPeers)
  | .localNode =>
      sim.reply (.localNode sim.env.transport.localId sim.env.transport.localAddresses)
  | .attempts id => sim.reply (.attempts (sim.attemptsOf id))
  | .localId => sim.reply (.id sim.env.transport.localId)
  | .announce announcement => sim.announce announcement
  | .closeSwarm => sim.closeSwarm
  | .announced =>
      sim.withOption sim.env.swarm fun swarm => sim.reply (.announced swarm.published)
  | .addProvider info =>
      sim.withScript fun table =>
        let table := { table with providers := table.providers ++ [info] }
        { sim with env := { sim.env with routing := .scripted table } }.finish
  | .provided => sim.withScript fun table => sim.reply (.provided table.published)
  | .routingState =>
      sim.withScript fun table => sim.reply (.routingState table.bootstraps table.isClosed)
  | .bootstrap => sim.withRouting fun routing => sim.replyRouting routing.bootstrap
  | .closeRouting => sim.withRouting fun routing => sim.replyRouting routing.close
  | .provide label record => sim.withRouting fun _ => sim.beginProvide label record
  | .lookup label =>
      sim.withRouting fun routing =>
        sim.leave (.lookup (routing.lookup label) [] sim.allAccesses.length)
  | .dumpItems signatures =>
      sim.withItems fun store => (store, .items signatures (sortedItems store))
  | .plantItem get value sequence => sim.plantItem get value sequence
  | .removeItem get => sim.removeItem get
  | .setOffline offline => sim.withItems fun store => ({ store with online := !offline }, .done)
  | .name name => sim.withMechanism name fun _ mechanism => sim.reply (.text mechanism.name)
  | .start name scope =>
      sim.withMechanism name fun place _ =>
        sim.withScopeOrRoot scope fun sim scope => sim.replyEnv (sim.env.start place scope.token)
  | .stop name => sim.withMechanism name fun place _ => sim.replyEnv (sim.env.stop place)
  | .find name scope limit sorted => sim.beginFind name scope limit sorted
  | .offer sighting => sim.offer sighting
  | .seeds => sim.withSeeds fun _ service => sim.reply (.texts (service.seeds.map Seed.text))
  | .addSeed text => sim.addSeed text
  | .connectedSeeds =>
      sim.withSeeds fun _ service => sim.reply (.ids service.flags.connected.toList)
  | .label =>
      sim.withMechanism "dht" fun _ mechanism =>
        match mechanism with
        | .rendezvous service => sim.reply (.text service.advertisement.label)
        | _ => sim.reply .misplaced
  | .scripted => sim.reply (.scripted sim.scriptedMechanisms)
  | .startCoordinator => sim.withCoordinator fun _ => sim.leave (.startup .entering)
  | .stopCoordinator => sim.withCoordinator fun _ => sim.leave (.shutdown .cancelling)
  | .dropCoordinator => sim.withCoordinator sim.dropCoordinator
  | .active =>
      sim.withCoordinator fun coordinator =>
        sim.reply (.texts (coordinator.active.map (·.name)))
  | .found sighting source => sim.withCoordinator fun _ => sim.found sighting source
  | .foundMany peers source => sim.withCoordinator fun _ => sim.foundMany peers source
  | .observe name =>
      sim.withCoordinator fun _ =>
        let observers := sim.intake.observers ++ [Coordinator.Observer.recorder name]
        { sim with intake := { sim.intake with observers := observers } }.finish
  | .observations =>
      sim.replyIntake
        (.observations sim.intake.observations, { sim.intake with observations := [] })
  | .subscribe name => sim.withCoordinator fun _ => sim.subscribe name
  | .receive name => sim.receive name

end PeerFinder.Simulation
