import Mathlib.Logic.Function.Basic
import PeerFinder.Proofs.Rendezvous.Answers

/-!
# Nodes stay visible

Nodes that advertise themselves under one label in one slotted table find one another at all times. A
record is shown in its minute and the next one, so it is found for sixty seconds at least, and by then
its node has handed in the next. `Realm.Step` lists the steps of such a system, in which time passes
only up to the next tick; `Realm.Step.is_sound` says what one step preserves, `Realm.Path.is_sound`
carries it along a whole run, and `Realm.Path.running_nodes_are_found` draws the conclusion. That time
can pass is shown by `Realm.Path.rests`: a tick that is due is seen to at once.
-/

namespace PeerFinder.Rendezvous

/-- A node that was started and not stopped since: its mechanism, when it was started, and whether it
was told to stop. -/
structure Node where
  service : Service
  begun : Clock.Instant
  stopping : Bool := false

/-- The node with its publisher at another point. -/
def Node.withPublisher (node : Node) (publisher : Option Publisher) : Node :=
  { node with service := { node.service with publisher := publisher } }

/-- What a node must advertise to be one of these under a label: itself, at least every sixty
seconds. -/
structure Advertisement.Suits (advertisement : Advertisement) (members : List PeerId)
    (label : String) : Prop where
  member : advertisement.info.id ∈ members
  label_eq : advertisement.label = label
  interval_pos : 0 < advertisement.interval
  interval_le : advertisement.interval ≤ 60000
  storable : advertisement.info.addresses.toList.length < 2 ^ 64

/-- Nodes that share a routing table, and a label in it. The clock began at `wall` Unix seconds. -/
structure Realm (κ : Type) where
  label : String
  members : List PeerId
  wall : Int
  now : Clock.Instant
  routing : Noted (Routing κ)
  /-- What was handed in with the answers, the latest first. -/
  log : List (Provision × Provide) := []
  nodes : PeerId → Option Node := fun _ => none

namespace Realm

variable {κ : Type}

/-- What nodes that are not told to stop see of the clock. -/
def moment (realm : Realm κ) : Moment :=
  { now := realm.now, wall := realm.wall }

/-- The present minute. -/
def minute (realm : Realm κ) : Minute :=
  minuteOf realm.moment.unixSeconds

/-- What a node sees of the world. -/
def momentOf (realm : Realm κ) (node : Node) (heedsStop : Bool) : Moment :=
  { realm.moment with stopping := node.stopping, heedsStop := heedsStop }

/-- What a step of a publisher hands in, with the answer: a record that is on its way after the step
was handed in by it. -/
def handedIn (advertisement : Advertisement) (moment : Moment) :
    Option Publisher → List (Provision × Provide)
  | some (.providing _ call) => [(Publisher.provision advertisement moment, call)]
  | some .ready | some (.waiting _) | none => []

/-- The record that a node published last. -/
def published? (realm : Realm κ) (id : PeerId) : Option Provision :=
  newest? realm.log realm.label id.bytes

/-- Whether the publisher of a node waits for a tick that is still to come. -/
def IsResting (realm : Realm κ) (node : Node) : Prop :=
  ∃ ticker, node.service.publisher = some (.waiting ticker) ∧ realm.now < ticker.due

/-- Whether the start of a node is over: time has passed since, or its publisher rests. -/
def IsSettled (realm : Realm κ) (node : Node) : Prop :=
  node.begun < realm.now ∨ realm.IsResting node

variable [DecidableEq κ]

/-- The steps of nodes that share a routing table. -/
inductive Step : Realm κ → Realm κ → Prop where
  /-- A node that does not run is started. -/
  | start (realm : Realm κ) (service : Service) (started : Noted Service) (routing : Routing κ)
      (hsuits : service.advertisement.Suits realm.members realm.label)
      (hnew : service.publishes = false)
      (hidle : realm.nodes service.advertisement.info.id = none)
      (hstart : Service.start ⟨service, realm.routing.journal⟩ realm.now realm.routing.state =
        (.ok (), started, routing)) :
      Step realm { realm with
        routing := ⟨routing, started.journal⟩
        nodes := Function.update realm.nodes service.advertisement.info.id
          (some { service := started.state, begun := realm.now }) }
  /-- The publisher of a node takes a step. -/
  | publisher (realm : Realm κ) (id : PeerId) (node : Node) (publisher : Publisher)
      (heedsStop : Bool) (after : Noted (Routing κ)) (next : Option Publisher)
      (hnode : realm.nodes id = some node) (hpublisher : node.service.publisher = some publisher)
      (hstep : Publisher.step node.service.advertisement (realm.momentOf node heedsStop)
        realm.routing publisher = some (after, next)) :
      Step realm { realm with
        routing := after
        log := handedIn node.service.advertisement (realm.momentOf node heedsStop) next ++ realm.log
        nodes := Function.update realm.nodes id (some (node.withPublisher next)) }
  /-- A node is told to stop. -/
  | cancel (realm : Realm κ) (id : PeerId) (node : Node) (hnode : realm.nodes id = some node) :
      Step realm { realm with
        nodes := Function.update realm.nodes id (some { node with stopping := true }) }
  /-- A node is stopped. -/
  | stop (realm : Realm κ) (id : PeerId) (node : Node) (result : Except Error Unit)
      (service : Service) (routing : Routing κ) (hnode : realm.nodes id = some node)
      (hstop : node.service.stop realm.routing.state = (result, service, routing)) :
      Step realm { realm with
        routing := ⟨routing, realm.routing.journal⟩
        nodes := Function.update realm.nodes id none }
  /-- Somebody asks a lookup for the next provider. -/
  | ask (realm : Realm κ) (feed : Feed) (poll : Feed.Poll) (after : Noted (Routing κ))
      (hpoll : Routing.poll realm.moment feed realm.routing = (poll, after)) :
      Step realm { realm with routing := after }
  /-- Time passes, up to the next tick of the nodes that are not told to stop. -/
  | pass (realm : Realm κ) (later : Clock.Instant) (hlater : realm.now ≤ later)
      (hhorizon : later < Clock.horizon)
      (hquiet : ∀ id node, realm.nodes id = some node → node.stopping = false →
        ∀ publisher ∈ node.service.publisher, ∃ due ∈ publisher.wake, later ≤ due) :
      Step realm { realm with now := later }

/-- Steps one after another. -/
inductive Path : Realm κ → Realm κ → Prop where
  | refl (realm : Realm κ) : Path realm realm
  | step (realm middle after : Realm κ) (hpath : Path realm middle) (hstep : Step middle after) :
      Path realm after

/-- Whether a node with this ticker handed its last record in at this instant, at most sixty seconds
ago, will hand the next one in before more have passed since then, and has its newest record in the
minute of that instant. -/
structure IsAdvertised (realm : Realm κ) (id : PeerId) (ticker : Ticker) (instant : Clock.Instant) :
    Prop where
  period_pos : 0 < ticker.period
  period_le : ticker.period ≤ 60000
  ahead : realm.now ≤ ticker.due
  due_le : min ticker.due Clock.horizon ≤ instant + 60000
  past : instant ≤ realm.now
  recent : realm.now ≤ instant + 60000
  newest : ∃ call, realm.published? id = some call ∧
    call.minute = minuteOf (Clock.unixSeconds realm.wall instant)

/-- Whether a node was just started and is still to hand its first record in, or is advertised. -/
def Covers (realm : Realm κ) (id : PeerId) (node : Node) : Prop :=
  match node.service.publisher with
  | some .ready => node.begun = realm.now
  | some (.waiting ticker) =>
      node.begun = realm.now ∧
          ticker = Ticker.immediate realm.now node.service.advertisement.interval .skip ∨
        ∃ instant, realm.IsAdvertised id ticker instant
  | some (.providing ticker (.answered _)) => ∃ instant, realm.IsAdvertised id ticker instant
  | some (.providing _ (.delayed ..)) | none => False

/-- What holds of the routing table and of what was handed in at all times. -/
structure IsKept (realm : Realm κ) (table : SlotTable κ) : Prop where
  slotted : realm.routing.state = .slotted table
  separates : table.layout.Separates {realm.label}
  room : realm.members.length ≤ table.slots
  reflects : table.Reflects {realm.label} realm.log
  legible : table.IsLegible
  ordered : IsChronological realm.log
  past : ∀ entry ∈ realm.log, entry.1.minute ≤ realm.minute
  members : ∀ entry ∈ realm.log, ∃ id ∈ realm.members, entry.1.node = id.bytes

/-- What holds of the routing table and of every node at all times. -/
structure IsSound (realm : Realm κ) (table : SlotTable κ) : Prop extends IsKept realm table where
  suits : ∀ id node, realm.nodes id = some node →
    node.service.advertisement.info.id = id ∧
      node.service.advertisement.Suits realm.members realm.label
  covers : ∀ id node, realm.nodes id = some node → node.stopping = false → realm.Covers id node

/-- The clock does not go back. -/
theorem unix_seconds_mono (wall : Int) {former later : Clock.Instant} (h : former ≤ later) :
    Clock.unixSeconds wall former ≤ Clock.unixSeconds wall later := by
  unfold Clock.unixSeconds
  have := Nat.div_le_div_right (c := 1000) h
  omega

section Sound

variable {realm after : Realm κ} {table other : SlotTable κ} {id : PeerId} {node : Node}

omit [DecidableEq κ] in
/-- Whether a node is covered depends on the clock and its newest record alone. -/
theorem Covers.frame (h : realm.Covers id node) (hnow : after.now = realm.now)
    (hwall : after.wall = realm.wall) (hpublished : after.published? id = realm.published? id) :
    after.Covers id node := by
  have hadvertised : ∀ ticker instant, realm.IsAdvertised id ticker instant →
      after.IsAdvertised id ticker instant := fun ticker instant h =>
    ⟨h.period_pos, h.period_le, by rw [hnow]; exact h.ahead, h.due_le, by rw [hnow]; exact h.past,
      by rw [hnow]; exact h.recent, by rw [hpublished, hwall]; exact h.newest⟩
  unfold Covers at h ⊢
  split at h
  · exact h.trans hnow.symm
  · exact h.imp (hnow ▸ ·) fun ⟨instant, h⟩ => ⟨instant, hadvertised _ instant h⟩
  · obtain ⟨instant, h⟩ := h
    exact ⟨instant, hadvertised _ instant h⟩
  · exact h
  · exact h

/-- A node of updated ones is the new one or an old one. -/
theorem eq_some_of_update {nodes : PeerId → Option Node} {new : Option Node} {found : PeerId}
    (h : Function.update nodes id new found = some node) :
    found = id ∧ new = some node ∨ found ≠ id ∧ nodes found = some node := by
  by_cases hfound : found = id
  · subst hfound
    rw [Function.update_self] at h
    exact .inl ⟨rfl, h⟩
  · rw [Function.update_of_ne hfound] at h
    exact .inr ⟨hfound, h⟩

/-- A table may be used, and what is kept does not depend on the nodes. -/
theorem IsKept.frame (h : realm.IsKept table) {routing : Noted (Routing κ)}
    (hslotted : routing.state = .slotted other) (hagrees : SlotTable.Agrees table other)
    (nodes : PeerId → Option Node) :
    IsKept { realm with routing := routing, nodes := nodes } other where
  slotted := hslotted
  separates := hagrees.layout_eq ▸ h.separates
  room := hagrees.slots_eq ▸ h.room
  reflects := h.reflects.congr hagrees
  legible := h.legible.congr hagrees
  ordered := h.ordered
  past := h.past
  members := h.members

/-- One node may change while the table is used, if it stays covered. -/
theorem IsSound.set (h : realm.IsSound table) {routing : Noted (Routing κ)}
    (hslotted : routing.state = .slotted other) (hagrees : SlotTable.Agrees table other)
    {new : Option Node}
    (hnew : ∀ node, new = some node → (node.service.advertisement.info.id = id ∧
      node.service.advertisement.Suits realm.members realm.label) ∧
        (node.stopping = false → realm.Covers id node)) :
    IsSound { realm with routing := routing, nodes := Function.update realm.nodes id new } other where
  toIsKept := h.toIsKept.frame hslotted hagrees _
  suits found node hfound := by
    obtain ⟨rfl, hnode⟩ | ⟨-, hnode⟩ := eq_some_of_update hfound
    · exact (hnew node hnode).1
    · exact h.suits found node hnode
  covers found node hfound hstopping := by
    obtain ⟨rfl, hnode⟩ | ⟨-, hnode⟩ := eq_some_of_update hfound
    · exact ((hnew node hnode).2 hstopping).frame rfl rfl rfl
    · exact (h.covers found node hnode hstopping).frame rfl rfl rfl

omit [DecidableEq κ] in
/-- A new mechanism that is started begins to publish. -/
theorem of_start {service : Service} {started : Noted Service} {journal : Journal}
    {now : Clock.Instant} {routing : Routing κ} (hnew : service.publishes = false)
    (hstart : Service.start ⟨service, journal⟩ now (.slotted table) = (.ok (), started, routing)) :
    routing = .slotted table ∧
      started.state = { service with publishes := true, publisher := some .ready } := by
  simp only [Service.start, Routing.bootstrap] at hstart
  split_ifs at hstart <;> simp only [Prod.mk.injEq, reduceCtorEq, false_and] at hstart
  obtain ⟨-, rfl, rfl⟩ := hstart
  refine ⟨rfl, ?_⟩
  rw [Service.publish, hnew]
  rfl

omit [DecidableEq κ] in
/-- A node that is advertised is covered while its record is answered. -/
theorem Covers.of_providing {ticker : Ticker} {result : Except Error Unit} {instant : Clock.Instant}
    (hpublisher : node.service.publisher = some (.providing ticker (.answered result)))
    (h : realm.IsAdvertised id ticker instant) : realm.Covers id node := by
  rw [Covers, hpublisher]
  exact ⟨instant, h⟩

omit [DecidableEq κ] in
/-- The ticker that a covered node waits for is not late, and its period is at most sixty seconds. -/
theorem Covers.of_waiting (h : realm.Covers id node)
    (hsuits : node.service.advertisement.Suits realm.members realm.label) {ticker : Ticker}
    (hpublisher : node.service.publisher = some (.waiting ticker)) :
    realm.now ≤ ticker.due ∧ 0 < ticker.period ∧ ticker.period ≤ 60000 := by
  rw [Covers, hpublisher] at h
  obtain ⟨-, rfl⟩ | ⟨instant, hadvertised⟩ := h
  · exact ⟨Nat.le_refl _, hsuits.interval_pos, hsuits.interval_le⟩
  · exact ⟨hadvertised.ahead, hadvertised.period_pos, hadvertised.period_le⟩

section HandIn

variable {call : Provision}

/-- What is kept is so after a record of one of the nodes was handed in, and the newest record of that
node is of the present minute then. -/
theorem IsKept.hand_in (h : realm.IsKept table) (hmember : id ∈ realm.members)
    (hlabel : call.label = realm.label) (hminute : call.minute = realm.minute)
    (hid : call.node = id.bytes) (hstorable : call.record.IsStorable)
    (nodes : PeerId → Option Node) :
    (∃ other, IsKept { realm with
      routing := (call.provide realm.routing).2
      log := (call, (call.provide realm.routing).1) :: realm.log
      nodes := nodes } other) ∧
    ∃ newest, newest? ((call, (call.provide realm.routing).1) :: realm.log) realm.label id.bytes =
      some newest ∧ newest.minute = realm.minute := by
  have hlabels : call.label ∈ ({realm.label} : Set String) := hlabel
  have hroom : table.HasRoomFor call.label call.minute call.node := by
    rw [hid]
    exact h.reflects.has_room_for hlabels h.members h.room hmember call.minute
  obtain ⟨journal, hrouting⟩ : ∃ journal, realm.routing = ⟨.slotted table, journal⟩ :=
    ⟨realm.routing.journal, by rw [← h.slotted]⟩
  rw [hrouting]
  obtain ⟨other, hother, hlayout, hslots, hreflects⟩ :=
    Provision.provide_reflects h.reflects h.separates hlabels hstorable journal
  have hordered : IsChronological
      ((call, (call.provide ⟨.slotted table, journal⟩).1) :: realm.log) :=
    List.pairwise_cons.2 ⟨fun entry hmem => hminute ▸ h.past entry hmem, h.ordered⟩
  have hpast : ∀ entry ∈ (call, (call.provide ⟨.slotted table, journal⟩).1) :: realm.log,
      entry.1.minute ≤ realm.minute :=
    List.forall_mem_cons.2 ⟨hminute ▸ UInt64.le_refl _, h.past⟩
  constructor
  · exact ⟨other, {
      slotted := hother
      separates := hlayout ▸ h.separates
      room := hslots ▸ h.room
      reflects := hreflects
      legible := Provision.provide_legible h.legible hstorable hother
      ordered := hordered
      past := hpast
      members := List.forall_mem_cons.2 ⟨⟨id, hmember, hid⟩, h.members⟩ }⟩
  · have hholds := Provision.provide_holds h.reflects h.legible hlabels hroom journal
    rw [hlabel, hminute, hid] at hholds
    exact exists_newest hordered hpast hholds

/-- A tick that is due makes a node hand its record in, and leaves all nodes covered. -/
theorem IsSound.hand_in (h : realm.IsSound table) (hnode : realm.nodes id = some node)
    {ticker : Ticker} (hpublisher : node.service.publisher = some (.waiting ticker))
    (hdue : ticker.due ≤ realm.now) (hlabel : call.label = realm.label)
    (hminute : call.minute = realm.minute) (hid : call.node = id.bytes)
    (hstorable : call.record.IsStorable) :
    ∃ other, IsSound { realm with
      routing := (call.provide realm.routing).2
      log := (call, (call.provide realm.routing).1) :: realm.log
      nodes := Function.update realm.nodes id (some (node.withPublisher
        (some (.providing { ticker with due := ticker.next realm.now }
          (call.provide realm.routing).1)))) } other := by
  obtain ⟨hself, hsuits⟩ := h.suits id node hnode
  obtain ⟨⟨other, hkept⟩, hnewest⟩ :=
    h.toIsKept.hand_in (hself ▸ hsuits.member) hlabel hminute hid hstorable _
  obtain ⟨result, hanswer⟩ := call.answered_of_slotted h.slotted
  refine ⟨other, hkept, fun found new hfound => ?_, fun found new hfound hstopping => ?_⟩
  · obtain ⟨rfl, hnew⟩ | ⟨-, hold⟩ := eq_some_of_update hfound
    · cases hnew
      exact ⟨hself, hsuits⟩
    · exact h.suits found new hold
  · obtain ⟨rfl, hnew⟩ | ⟨hne, hold⟩ := eq_some_of_update hfound
    · cases hnew
      obtain ⟨hahead, hpos, hperiod⟩ :=
        (h.covers found node hnode hstopping).of_waiting hsuits hpublisher
      exact .of_providing (congrArg some (congrArg _ hanswer))
        ⟨hpos, hperiod, (ticker.lt_next hahead hpos).le,
          (ticker.next_le hdue).trans (Nat.add_le_add_left hperiod _), Nat.le_refl _,
          Nat.le_add_right _ _, hnewest⟩
    · refine (h.covers found new hold hstopping).frame rfl rfl (newest_cons_of_ne ?_)
      rw [hid]
      exact fun heq => hne (PeerId.bytes_injective heq).symm

end HandIn

/-- A step of a publisher leaves all nodes covered. -/
theorem IsSound.publisher (h : realm.IsSound table) (hnode : realm.nodes id = some node)
    {publisher : Publisher} (hpublisher : node.service.publisher = some publisher)
    {heedsStop : Bool} {routing : Noted (Routing κ)} {next : Option Publisher}
    (hmoves : Publisher.Moves node.service.advertisement (realm.momentOf node heedsStop)
      realm.routing publisher routing next) :
    ∃ other, IsSound { realm with
      routing := routing
      log := handedIn node.service.advertisement (realm.momentOf node heedsStop) next ++ realm.log
      nodes := Function.update realm.nodes id (some (node.withPublisher next)) } other := by
  obtain ⟨hself, hsuits⟩ := h.suits id node hnode
  have hcovers := h.covers id node hnode
  rw [Covers, hpublisher] at hcovers
  cases hmoves with
  | began =>
      refine ⟨table, h.set h.slotted (.refl table) fun _ hnew => ?_⟩
      cases hnew
      exact ⟨⟨hself, hsuits⟩, fun hstopping => .inl ⟨hcovers hstopping, rfl⟩⟩
  | ended _ hcause =>
      refine ⟨table, h.set h.slotted (.refl table) fun _ hnew => ?_⟩
      cases hnew
      refine ⟨⟨hself, hsuits⟩, fun hstopping => ?_⟩
      -- Only a node that is to stop, or whose interval is zero, ends its publisher.
      obtain hstops | hinterval := hcause
      · exact absurd (hstopping.symm.trans hstops) Bool.false_ne_true
      · exact absurd hinterval (Nat.ne_of_gt hsuits.interval_pos)
  | handed ticker hdue =>
      exact h.hand_in hnode hpublisher hdue hsuits.label_eq rfl (congrArg PeerId.bytes hself)
        hsuits.storable
  | concluded ticker call journal =>
      have hslotted : (⟨realm.routing.state, journal⟩ : Noted (Routing κ)).state = .slotted table :=
        h.slotted
      refine ⟨table, h.set hslotted (.refl table) fun _ hnew => ?_⟩
      cases hnew
      refine ⟨⟨hself, hsuits⟩, fun hstopping => .inr ?_⟩
      cases call with
      | delayed number label record due => exact (hcovers hstopping).elim
      | answered result => exact hcovers hstopping

/-- Asking a lookup for the next provider only uses the table. -/
theorem agrees_of_poll {moment : Moment} {feed : Feed} {journal : Journal} {poll : Feed.Poll}
    {routing : Noted (Routing κ)}
    (hpoll : Routing.poll moment feed ⟨.slotted table, journal⟩ = (poll, routing)) :
    ∃ other, routing.state = .slotted other ∧ SlotTable.Agrees table other := by
  cases feed with
  | scripted arrivals hangs due =>
      cases hpoll
      exact ⟨table, rfl, .refl table⟩
  | slots label ready rounds =>
      obtain ⟨found, read, hread, hagrees, -⟩ :=
        Feed.poll_slots_cases (rfl : minuteOf moment.unixSeconds = _) label ready rounds
          ⟨table, journal⟩
      rw [Routing.poll_slotted, hread] at hpoll
      cases hpoll
      exact ⟨read.state, rfl, hagrees⟩

omit [DecidableEq κ] in
/-- A node stays covered until its next tick is due. -/
theorem Covers.pass (h : realm.Covers id node) {later : Clock.Instant} (hlater : realm.now ≤ later)
    (hhorizon : later < Clock.horizon)
    (hquiet : ∀ publisher ∈ node.service.publisher, ∃ due ∈ publisher.wake, later ≤ due) :
    Covers { realm with now := later } id node := by
  unfold Covers at h ⊢
  cases hpublisher : node.service.publisher with
  | none =>
      rw [hpublisher] at h
      exact h
  | some publisher =>
      rw [hpublisher] at h
      obtain ⟨due, hwake, hle⟩ := hquiet publisher hpublisher
      cases publisher with
      | ready => cases hwake
      | waiting ticker =>
          cases hwake
          obtain ⟨hbegun, rfl⟩ | ⟨instant, hadvertised⟩ := h
          · cases Nat.le_antisymm hle hlater
            exact .inl ⟨hbegun, rfl⟩
          · exact .inr ⟨instant, hadvertised.period_pos, hadvertised.period_le, hle,
              hadvertised.due_le, hadvertised.past.trans hlater,
              (le_min hle hhorizon.le).trans hadvertised.due_le, hadvertised.newest⟩
      | providing ticker call =>
          cases call with
          | delayed number label record due => exact h
          | answered result => cases hwake

/-- What holds at all times holds when time has passed. -/
theorem IsSound.pass (h : realm.IsSound table) {later : Clock.Instant} (hlater : realm.now ≤ later)
    (hhorizon : later < Clock.horizon)
    (hquiet : ∀ id node, realm.nodes id = some node → node.stopping = false →
      ∀ publisher ∈ node.service.publisher, ∃ due ∈ publisher.wake, later ≤ due)
    (hclock : Clock.unixSeconds realm.wall later < 2 ^ 64) :
    IsSound { realm with now := later } table :=
  { h with
    past := fun entry hmem =>
      UInt64.le_trans (h.past entry hmem) (minute_of_mono (unix_seconds_mono _ hlater) hclock)
    covers := fun id node hnode hstopping =>
      (h.covers id node hnode hstopping).pass hlater hhorizon (hquiet id node hnode hstopping) }

/-- A step keeps nodes covered and the table sound. -/
theorem Step.is_sound (hstep : Step realm after) (hclock : after.moment.unixSeconds < 2 ^ 64)
    (h : realm.IsSound table) : ∃ other, after.IsSound other := by
  cases hstep with
  | start service started routing hsuits hnew hidle hstart =>
      rw [h.slotted] at hstart
      obtain ⟨rfl, hstarted⟩ := of_start hnew hstart
      refine ⟨table, h.set rfl (.refl table) fun node hnode => ?_⟩
      cases hnode
      rw [hstarted]
      exact ⟨⟨rfl, hsuits⟩, fun _ => rfl⟩
  | publisher id node publisher heedsStop routing next hnode hpublisher hstep =>
      exact h.publisher hnode hpublisher (Publisher.step_moves h.slotted hstep)
  | cancel id node hnode =>
      refine ⟨table, h.set h.slotted (.refl table) fun _ hnew => ?_⟩
      cases hnew
      exact ⟨h.suits id node hnode, fun hstopping => by cases hstopping⟩
  | stop id node result service routing hnode hstop =>
      rw [h.slotted] at hstop
      cases hstop
      exact ⟨table, h.set rfl (.refl table) fun _ hnew => by cases hnew⟩
  | ask feed poll routing hpoll =>
      obtain ⟨journal, hrouting⟩ : ∃ journal, realm.routing = ⟨.slotted table, journal⟩ :=
        ⟨realm.routing.journal, by rw [← h.slotted]⟩
      rw [hrouting] at hpoll
      obtain ⟨other, hother, hagrees⟩ := agrees_of_poll hpoll
      exact ⟨other, h.toIsKept.frame hother hagrees _, h.suits, fun id node hnode hstopping =>
        (h.covers id node hnode hstopping).frame rfl rfl rfl⟩
  | pass later hlater hhorizon hquiet => exact ⟨table, h.pass hlater hhorizon hquiet hclock⟩

end Sound

/-- Nodes that share a table, before any of them was started. -/
def initial (label : String) (members : List PeerId) (wall : Int) (now : Clock.Instant)
    (table : SlotTable κ) : Realm κ :=
  { label := label, members := members, wall := wall, now := now, routing := ⟨.slotted table, []⟩ }

section Run

variable {realm after : Realm κ} {label : String} {members : List PeerId} {wall : Int}
  {now : Clock.Instant} {table : SlotTable κ}

/-- An empty table with a slot for every node is sound. -/
theorem is_sound_initial (hempty : table.store = {}) (hseparates : table.layout.Separates {label})
    (hroom : members.length ≤ table.slots) :
    (initial label members wall now table).IsSound table := by
  obtain ⟨layout, slots, hpos, hle, store⟩ := table
  cases hempty
  exact {
    slotted := rfl
    separates := hseparates
    room := hroom
    reflects := .empty _ layout slots hpos hle
    legible := fun address item hitem => by cases hitem
    ordered := List.Pairwise.nil
    past := List.forall_mem_nil _
    members := List.forall_mem_nil _
    suits := fun id node hnode => by cases hnode
    covers := fun id node hnode => by cases hnode }

/-- A step changes neither the label nor the nodes there are, and the clock does not go back. -/
theorem Step.frame (hstep : Step realm after) :
    after.label = realm.label ∧ after.members = realm.members ∧
      realm.moment.unixSeconds ≤ after.moment.unixSeconds := by
  cases hstep with
  | pass later hlater => exact ⟨rfl, rfl, unix_seconds_mono realm.wall hlater⟩
  | start | publisher | cancel | stop | ask => exact ⟨rfl, rfl, Nat.le_refl _⟩

/-- A run changes neither the label nor the nodes there are. -/
theorem Path.frame (hpath : Path realm after) :
    after.label = realm.label ∧ after.members = realm.members := by
  induction hpath with
  | refl => exact ⟨rfl, rfl⟩
  | step middle after hpath hstep ih =>
      exact ⟨hstep.frame.1.trans ih.1, hstep.frame.2.1.trans ih.2⟩

/-- A run keeps nodes covered and the table sound. -/
theorem Path.is_sound (hpath : Path realm after) (hclock : after.moment.unixSeconds < 2 ^ 64)
    (h : realm.IsSound table) : ∃ other, after.IsSound other := by
  induction hpath with
  | refl => exact ⟨table, h⟩
  | step middle after hpath hstep ih =>
      obtain ⟨other, hmiddle⟩ := ih (Nat.lt_of_le_of_lt hstep.frame.2.2 hclock)
      exact hstep.is_sound hclock hmiddle

omit [DecidableEq κ] in
/-- A node whose start is over is advertised. -/
theorem Covers.of_is_settled {id : PeerId} {node : Node} (h : realm.Covers id node)
    (hsettled : realm.IsSettled node) : ∃ ticker instant, realm.IsAdvertised id ticker instant := by
  unfold Covers at h
  split at h
  · rename_i hpublisher
    obtain hlt | ⟨ticker, hwaiting, -⟩ := hsettled
    · exact absurd h (Nat.ne_of_lt hlt)
    · rw [hwaiting] at hpublisher
      cases hpublisher
  · rename_i ticker hpublisher
    obtain ⟨hbegun, rfl⟩ | hadvertised := h
    · obtain hlt | ⟨ticker, hwaiting, hlt⟩ := hsettled
      · exact absurd hbegun (Nat.ne_of_lt hlt)
      · rw [hwaiting] at hpublisher
        cases hpublisher
        exact absurd hlt (Nat.lt_irrefl _)
    · exact ⟨ticker, hadvertised⟩
  · exact ⟨_, h⟩
  · exact h.elim
  · exact h.elim

section Rest

variable {start : Realm κ} {id : PeerId} {node : Node} {ticker : Ticker}

/-- A node whose record is answered waits for its next tick at once. -/
theorem Path.waits_of_providing (hpath : Path start realm) (hnode : realm.nodes id = some node)
    (hstopping : node.stopping = false) {result : Except Error Unit}
    (hpublisher : node.service.publisher = some (.providing ticker (.answered result))) :
    ∃ after waiting, Path start after ∧ after.now = realm.now ∧
      after.routing.state = realm.routing.state ∧ after.nodes id = some waiting ∧
      waiting.stopping = false ∧ waiting.service.publisher = some (.waiting ticker) := by
  obtain ⟨journal, hstep⟩ := Publisher.step_providing
    (show (realm.momentOf node true).stopping = false from hstopping) result realm.routing
  exact ⟨_, _, hpath.step _ _ _ (.publisher realm id node _ true _ _ hnode hpublisher hstep), rfl,
    rfl, Function.update_self .., hstopping, rfl⟩

/-- A node that waits for a tick that is not late comes to rest at once. -/
theorem Path.rests_of_waiting (hpath : Path start realm)
    (hslotted : realm.routing.state = .slotted table) (hnode : realm.nodes id = some node)
    (hstopping : node.stopping = false)
    (hpublisher : node.service.publisher = some (.waiting ticker))
    (hahead : realm.now ≤ ticker.due) (hperiod : 0 < ticker.period) :
    ∃ after rested, Path start after ∧ after.now = realm.now ∧ after.nodes id = some rested ∧
      after.IsResting rested := by
  by_cases hdue : realm.now < ticker.due
  · exact ⟨realm, node, hpath, rfl, hnode, ticker, hpublisher, hdue⟩
  · have hhanded := hpath.step _ _ _ (.publisher realm id node _ true _ _ hnode hpublisher
      (Publisher.step_waiting hstopping (Nat.le_of_not_lt hdue) realm.routing))
    obtain ⟨result, hanswer⟩ := (Publisher.provision node.service.advertisement
      (realm.momentOf node true)).answered_of_slotted hslotted
    obtain ⟨after, rested, hafter, hnow, -, hrested, -, hwaiting⟩ :=
      hhanded.waits_of_providing (Function.update_self ..) hstopping
        (congrArg some (congrArg _ hanswer))
    refine ⟨after, rested, hafter, hnow, hrested, _, hwaiting, ?_⟩
    rw [hnow]
    exact ticker.lt_next hahead hperiod

/-- A node that is not to stop comes to rest at once. -/
theorem Path.rests (hpath : Path start realm) (h : realm.IsSound table)
    (hnode : realm.nodes id = some node) (hstopping : node.stopping = false) :
    ∃ after rested, Path start after ∧ after.now = realm.now ∧ after.nodes id = some rested ∧
      after.IsResting rested := by
  obtain ⟨-, hsuits⟩ := h.suits id node hnode
  have hcovers := h.covers id node hnode hstopping
  cases hpublisher : node.service.publisher with
  | none =>
      rw [Covers, hpublisher] at hcovers
      exact hcovers.elim
  | some publisher =>
      cases publisher with
      | ready =>
          have hbegun := hpath.step _ _ _ (.publisher realm id node _ true _ _ hnode hpublisher
            (Publisher.step_ready (Nat.ne_of_gt hsuits.interval_pos) realm.routing))
          exact hbegun.rests_of_waiting h.slotted (Function.update_self ..) hstopping rfl
            (Nat.le_refl _) hsuits.interval_pos
      | waiting ticker =>
          obtain ⟨hahead, hperiod, -⟩ := hcovers.of_waiting hsuits hpublisher
          exact hpath.rests_of_waiting h.slotted hnode hstopping hpublisher hahead hperiod
      | providing ticker call =>
          rw [Covers, hpublisher] at hcovers
          cases call with
          | delayed number label record due => exact hcovers.elim
          | answered result =>
              obtain ⟨instant, hadvertised⟩ := hcovers
              obtain ⟨after, waiting, hafter, hnow, hstate, hwaiting, hgoing, hticker⟩ :=
                hpath.waits_of_providing hnode hstopping hpublisher
              have hahead : after.now ≤ ticker.due := hnow ▸ hadvertised.ahead
              obtain ⟨last, rested, hlast, hsame, hrested⟩ := hafter.rests_of_waiting
                (hstate.trans h.slotted) hwaiting hgoing hticker hahead hadvertised.period_pos
              exact ⟨last, rested, hlast, hsame.trans hnow, hrested⟩

end Rest

/-- Nodes that share an empty table with at least as many slots, and that each publish every sixty
seconds or more often, are found at any time from the end of their start until they are told to stop:
a query of another one that is given time and may answer with all others answers at once, and what it
answers of the node is exactly its newest record. A start ends, and a tick is seen to, before any time
passes. The Unix time must fit sixty-four bits. -/
theorem Path.running_nodes_are_found (hempty : table.store = {})
    (hseparates : table.layout.Separates {label}) (hroom : members.length ≤ table.slots)
    (hpath : Path (initial label members wall now table) realm)
    (hclock : realm.moment.unixSeconds < 2 ^ 64) {id : PeerId} {node : Node}
    (hnode : realm.nodes id = some node) (hstopping : node.stopping = false) {finder : Service}
    (hlabel : finder.advertisement.label = label)
    (hmember : finder.advertisement.info.id ∈ members)
    (hother : id ≠ finder.advertisement.info.id) {tree : ScopeTree} {scope : Scope} {limit : Nat}
    (hlimit : members.length - 1 ≤ limit) (htimeout : 0 < finder.queryTimeout)
    (hdone : scope.isDone tree realm.now = false)
    (htoken : tree.issued :: scope.token ∉ tree.cancelled) :
    (∃ after rested, Path realm after ∧ after.now = realm.now ∧ after.nodes id = some rested ∧
      after.IsResting rested) ∧
    (realm.IsSettled node → ∃ shared call, realm.routing.state = .slotted shared ∧
      realm.published? id = some call ∧
      ∀ budget, 2 * shared.slots < budget → ∃ answer,
        (Activity.runCall
          (Lookup.step (finder.find realm.routing.state tree realm.now scope limit).2 realm.moment)
          budget realm.routing
          (finder.find realm.routing.state tree realm.now scope limit).1).call = .inr answer ∧
        answer.filter (·.id = id) =
          [Sighting.ofInfo (PeerInfo.ofList id call.record.stored.addresses)]) := by
  obtain ⟨shared, hsound⟩ := hpath.is_sound hclock (is_sound_initial hempty hseparates hroom)
  obtain ⟨rfl, rfl⟩ : realm.label = label ∧ realm.members = members := hpath.frame
  refine ⟨(Path.refl realm).rests hsound hnode hstopping, fun hsettled => ?_⟩
  obtain ⟨ticker, instant, hadvertised⟩ :=
    (hsound.covers id node hnode hstopping).of_is_settled hsettled
  obtain ⟨call, hnewest, hminute⟩ := hadvertised.newest
  have hfound := latest_or_of_newest hsound.ordered hnewest
    (hminute ▸ minute_of_recent hadvertised.past hadvertised.recent hclock)
  refine ⟨shared, call, hsound.slotted, hnewest, fun budget hbudget => ?_⟩
  obtain ⟨journal, hrouting⟩ : ∃ journal, realm.routing = ⟨.slotted shared, journal⟩ :=
    ⟨realm.routing.journal, by rw [← hsound.slotted]⟩
  rw [hrouting]
  rw [← hlabel] at hfound
  exact finder.find_answers hsound.reflects hlabel hsound.members hmember hlimit htimeout hdone
    htoken journal hbudget hother hfound

/-- A node. -/
def first : PeerId :=
  ⟨6 :: List.replicate 31 0, rfl, by decide +kernel⟩

/-- Another node. -/
def second : PeerId :=
  ⟨9 :: List.replicate 31 0, rfl, by decide +kernel⟩

/-- The mechanism of a node at `10.0.0.1:4001`. -/
def mechanism (id : PeerId) : Service where
  advertisement := { label := "label", info := .ofList id [.v4 ⟨10, 0, 0, 1⟩ 4001] }
  shutdown := [0]

/-- A table of two slots. -/
def smallTable : SlotTable Slot :=
  .withSlots .plain 2 {}

/-- One of two nodes is started, hands its record in, and has not been stopped a minute later. -/
theorem exists_running : ∃ realm node, Path (initial "label" [first, second] 0 0 smallTable) realm ∧
    realm.wall = 0 ∧ realm.now = 60000 ∧ realm.nodes first = some node ∧ node.stopping = false ∧
      node.begun = 0 := by
  have hsuits : (mechanism first).advertisement.Suits [first, second] "label" :=
    ⟨List.mem_cons_self, rfl, by decide, by decide, by decide +kernel⟩
  have hstarted := Path.step _ _ _ (.refl (initial "label" [first, second] 0 0 smallTable))
    (.start _ (mechanism first) _ _ hsuits rfl rfl rfl)
  have hbegun := Path.step _ _ _ hstarted (.publisher _ first _ .ready true _ _ rfl rfl rfl)
  have hhanded := Path.step _ _ _ hbegun
    (.publisher _ first _ (.waiting (Ticker.immediate 0 60000 .skip)) true _ _ rfl rfl rfl)
  have hconcluded := Path.step _ _ _ hhanded
    (.publisher _ first _ (.providing ⟨60000, 60000, .skip⟩ _) true _ _ rfl rfl rfl)
  have hpassed := Path.step _ _ _ hconcluded (.pass _ 60000 (Nat.zero_le _) (by decide)
    fun id node hnode _ publisher hpublisher => ?_)
  · exact ⟨_, _, hpassed, rfl, rfl, rfl, rfl, rfl⟩
  · obtain ⟨-, hnew⟩ | ⟨hne, hold⟩ := eq_some_of_update hnode
    · cases hnew
      cases hpublisher
      exact ⟨60000, rfl, Nat.le_refl _⟩
    · have hidle : id ≠ (mechanism first).advertisement.info.id := hne
      simp only [Function.update_of_ne hne, Function.update_of_ne hidle] at hold
      cases hold

/-- The other node finds it then. -/
theorem Path.running_nodes_are_found_pair :
    ∃ realm table call, Path (initial "label" [first, second] 0 0 smallTable) realm ∧
      realm.now = 60000 ∧ realm.routing.state = .slotted table ∧
      realm.published? first = some call ∧
      ∀ budget, 2 * table.slots < budget → ∃ answer,
        (Activity.runCall
          (Lookup.step
            ((mechanism second).find realm.routing.state {} realm.now ⟨[1], none⟩ 1).2 realm.moment)
          budget realm.routing
          ((mechanism second).find realm.routing.state {} realm.now ⟨[1], none⟩ 1).1).call =
            .inr answer ∧
        answer.filter (·.id = first) =
          [Sighting.ofInfo (PeerInfo.ofList first call.record.stored.addresses)] := by
  obtain ⟨realm, node, hpath, hwall, hnow, hnode, hstopping, hbegun⟩ := exists_running
  have hclock : realm.moment.unixSeconds < 2 ^ 64 := by
    rw [moment, Moment.unixSeconds, hwall, hnow]
    decide
  have hsettled : node.begun < realm.now := by
    rw [hbegun, hnow]
    decide
  have hroom : [first, second].length ≤ smallTable.slots := Nat.le_refl 2
  have hmember : (mechanism second).advertisement.info.id ∈ [first, second] :=
    List.mem_cons_of_mem _ List.mem_cons_self
  have hother : first ≠ (mechanism second).advertisement.info.id := by decide
  have hlimit : [first, second].length - 1 ≤ 1 := Nat.le_refl 1
  have htimeout : 0 < (mechanism second).queryTimeout := by decide
  have hdone : (⟨[1], none⟩ : Scope).isDone {} realm.now = false := rfl
  have htoken : ({} : ScopeTree).issued :: [1] ∉ ({} : ScopeTree).cancelled := List.not_mem_nil
  obtain ⟨-, hanswers⟩ := running_nodes_are_found rfl (Layout.plain_separates _) hroom hpath hclock
    hnode hstopping rfl hmember hother hlimit htimeout hdone htoken
  obtain ⟨table, call, hslotted, hpublished, hfound⟩ := hanswers (.inl hsettled)
  exact ⟨realm, table, call, hpath, hnow, hslotted, hpublished, hfound⟩

end Run

end Realm

end PeerFinder.Rendezvous
