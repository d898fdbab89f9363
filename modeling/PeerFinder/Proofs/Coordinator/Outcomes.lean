import PeerFinder.Proofs.Coordinator.Chronicles
import PeerFinder.Proofs.PeerStore.Standing
import PeerFinder.Proofs.Ticks

/-!
# Outcomes of the dials of new peers

Dials of several peers go on at once, but a step is about one peer at most, and what it does to that
one is of a few kinds (`Node.View.Moves`, `Node.Happens.moves`). So every chronicle with one observer
that dials gives an account of every peer (`Node.Account`): a record that is created leads to one
dial, which begins at once, and to one outcome, which is entered when the transport answers or the
bound is over (`Node.new_peers_are_dialed_once`). A wait whose end is beyond the end of the clock
lasts thirty years, and then the outcome comes before the delay and the timeout are over
(`Node.not_always_settled_in_time`).
-/

namespace PeerFinder

/-- How long a wait lasts: thirty years if the clock does not reach its end. -/
def Clock.lasting (now : Instant) (span : Span) : Span :=
  if now + span < horizon then span else farFuture

/-- A wait ends when it has lasted. -/
theorem Clock.after_eq_add (now : Instant) (span : Span) :
    after now span = now + lasting now span := by
  unfold lasting
  split
  · rename_i hreached
    exact after_of_lt hreached
  · rename_i hbeyond
    exact after_of_le (Nat.not_lt.1 hbeyond)

/-- A store holds a record of a peer exactly if the peer has a standing. -/
theorem PeerStore.has_iff_standing (store : PeerStore) (id : PeerId) :
    store.Has id ↔ store.standing? id ≠ none := by
  simp [Has, standing?, Option.isSome_iff_ne_none]

open PeerRecord (Standing)

namespace Coordinator

/-- What becomes of a sighting: a record is created and the peer is to be dialed, or no standing
changes and nobody is told. -/
theorem Intake.accept_standing (intake : Intake) (now : Clock.Instant) (sighting : Sighting)
    (source : String) :
    (intake.store.standing? sighting.id = none ∧
        (intake.accept now sighting source).2.dials =
          intake.dials ++ intake.timeouts.map (fun timeout => ⟨sighting.info, timeout, none⟩) ∧
        ∀ id, (intake.accept now sighting source).2.store.standing? id =
          if sighting.id = id then some .fresh else intake.store.standing? id) ∨
      (intake.accept now sighting source).2.dials = intake.dials ∧
        ∀ id, (intake.accept now sighting source).2.store.standing? id =
          intake.store.standing? id := by
  unfold accept
  by_cases hlocal : sighting.id = intake.localId
  · rw [if_pos hlocal]
    exact .inr ⟨rfl, fun id => rfl⟩
  rw [if_neg hlocal]
  rcases intake.store.standing_add_or_update sighting source now with
    ⟨hinserted, habsent, hstanding⟩ | ⟨hinserted, hstanding⟩
  · simp only [hinserted, if_true, announce_eq]
    refine .inl ⟨habsent, ?_, hstanding⟩
    rw [timeouts, List.map_filterMap]
    congr 1
    refine List.filterMap_congr fun observer _ => ?_
    cases observer <;> rfl
  · dsimp only
    rw [if_neg hinserted]
    exact .inr ⟨rfl, hstanding⟩

/-- Taking a sighting in leaves alone who dials. -/
theorem Intake.timeouts_accept (intake : Intake) (now : Clock.Instant) (sighting : Sighting)
    (source : String) : (intake.accept now sighting source).2.timeouts = intake.timeouts := by
  unfold accept
  split
  · rfl
  · dsimp only
    split
    · rw [announce_eq]
      rfl
    · rfl

namespace Node

variable {node middle after : Node} {label : Label} {log more : List Happening} {id : PeerId}
  {timeout : Clock.Span}

/-- A step that may take a sighting in takes no time, and does nothing else to the intake. -/
theorem Step.takes_intake (hstep : Step node label after) {sighting : Sighting} {source : String}
    (htaking : label.sighting? = some (sighting, source)) :
    after.env.now = node.env.now ∧ (after.intake = node.intake ∨
      after.intake = (node.intake.accept node.env.now sighting source).2) := by
  cases hstep with
  | query before errand later env intake next herrands hnext =>
      refine ⟨(Errand.step_sends hnext).now, ?_⟩
      rcases Errand.step_intake hnext with hsame | ⟨other, mechanism, hother, htaken⟩
      · exact .inl hsame
      · rw [show errand.taking? = some (sighting, source) from htaking] at hother
        cases hother
        exact .inr htaken
  | found other mechanism =>
      cases htaking
      exact ⟨rfl, .inr rfl⟩
  | _ => cases htaking

/-- Taking a sighting in takes no time. -/
theorem Step.takes_now (hstep : Step node label after) (htaking : label.sighting? ≠ none) :
    after.env.now = node.env.now := by
  obtain ⟨⟨sighting, source⟩, hsighting⟩ := Option.ne_none_iff_exists'.1 htaking
  exact (hstep.takes_intake hsighting).1

/-- An eviction takes no time, and does nothing else to the intake. -/
theorem Step.evicts_intake (hstep : Step node .eviction after) :
    after.env.now = node.env.now ∧ after.intake.dials = node.intake.dials ∧
      after.intake.timeouts = node.intake.timeouts ∧
      (after.intake.store = node.intake.store ∨
        after.intake.store = (node.intake.store.evict node.env.now).2) := by
  cases hstep with
  | evictor heedsStop evictor store next hevictor hnext =>
      refine ⟨rfl, rfl, rfl, ?_⟩
      cases evictor with
      | ready =>
          simp only [Evictor.step] at hnext
          split_ifs at hnext <;> cases hnext <;> exact .inl rfl
      | waiting ticker =>
          simp only [Evictor.step] at hnext
          split_ifs at hnext
          · cases hnext
            exact .inl rfl
          · obtain ⟨_, -, heq⟩ := Option.map_eq_some_iff.1 hnext
            cases heq
            exact .inr rfl
  | evict => exact ⟨rfl, rfl, rfl, .inr rfl⟩

/-- No step in time changes who dials. -/
theorem Happens.timeouts_eq (h : Happens node more after) :
    after.intake.timeouts = node.intake.timeouts := by
  cases h with
  | takes label _ hstep htaking =>
      obtain ⟨⟨sighting, source⟩, hsighting⟩ := Option.ne_none_iff_exists'.1 htaking
      obtain ⟨-, hsame | htaken⟩ := hstep.takes_intake hsighting
      · rw [hsame]
      · rw [htaken, Intake.timeouts_accept]
  | begins dial _ hbegins =>
      cases hbegins
      rfl
  | settles dial outcome _ hends =>
      cases hends
      rfl
  | evicts _ hstep => exact hstep.evicts_intake.2.2.1
  | other label _ hstep hnow hstore hdials htimeouts => exact htimeouts
  | pass => rfl

/-- What happens to one peer. -/
def about (id : PeerId) (log : List Happening) : List Happening :=
  log.filter (·.peer.id = id)

/-- What happens to the peer itself happens to it. -/
theorem about_of_eq (happening : Happening) (hid : happening.peer.id = id) :
    about id [happening] = [happening] :=
  List.filter_cons_of_pos (decide_eq_true hid)

/-- What happens to another peer does not happen to it. -/
theorem about_of_ne (happening : Happening) (hid : happening.peer.id ≠ id) :
    about id [happening] = [] :=
  List.filter_cons_of_neg (by simpa using hid)

/-- What a node has of one peer: the time, the dials of the peer and its standing. -/
structure View where
  now : Clock.Instant
  dials : List AutoConnect
  standing : Option Standing

/-- What a node has of a peer. -/
def view (node : Node) (id : PeerId) : View where
  now := node.env.now
  dials := node.intake.dials.filter (·.peer.id = id)
  standing := node.intake.store.standing? id

/-- What a step in time may do to what a node has of a peer, if new peers are dialed once. -/
inductive View.Moves (timeout : Clock.Span) (id : PeerId) :
    View → List Happening → View → Prop where
  | stays (view : View) : Moves timeout id view [] view
  | created (view : View) (peer : PeerInfo) (hpeer : peer.id = id)
      (habsent : view.standing = none) :
      Moves timeout id view [.created view.now peer]
        { view with dials := view.dials ++ [⟨peer, timeout, none⟩], standing := some .fresh }
  | begins (view : View) (before : List AutoConnect) (dial : AutoConnect)
      (later : List AutoConnect) (transport : Transport)
      (hdials : view.dials = before ++ dial :: later) (hcall : dial.call = none) :
      Moves timeout id view [.dialed view.now dial.peer transport.delay dial.timeout]
        { view with dials := before ++ { dial with call := some (BoundedConnect.start transport
            view.now dial.peer dial.timeout AutoConnect.bound).1 } :: later }
  | settles (view : View) (before : List AutoConnect) (dial : AutoConnect)
      (later : List AutoConnect) (call : BoundedConnect) (transport moved : Transport)
      (outcome : Except Error Unit) (hdials : view.dials = before ++ dial :: later)
      (hcall : dial.call = some call)
      (houtcome : call.outcome? view.now transport = some (outcome, moved)) :
      Moves timeout id view
        [.settled view.now dial.peer (AutoConnect.verdict outcome).1
          (AutoConnect.verdict outcome).2 (transport.reachable.contains dial.peer.id)]
        { view with
          dials := before ++ later
          standing := view.standing.map
            (·.enter (AutoConnect.verdict outcome).1 (AutoConnect.verdict outcome).2) }
  | evicted (view : View) (standing : Standing) (hstanding : view.standing = some standing)
      (hdistrusted : standing.reliability < PeerRecord.lowTrust) :
      Moves timeout id view [] { view with standing := none }
  | pass (view : View) (later : Clock.Instant) (hlater : view.now ≤ later)
      (hwaits : ∀ dial ∈ view.dials, ∃ call, dial.call = some call ∧ later ≤ call.wake) :
      Moves timeout id view [] { view with now := later }

/-- What a node has of a peer does not change with what that is made of. -/
theorem view_eq (hnow : after.env.now = node.env.now)
    (hdials : after.intake.dials = node.intake.dials)
    (hstanding : after.intake.store.standing? id = node.intake.store.standing? id) :
    after.view id = node.view id := by
  simp only [view, hnow, hdials, hstanding]

/-- A step that may take a sighting in creates nothing and then begins no dial and changes no
standing, or it creates a record and the peer is to be dialed. -/
theorem Step.takes_cases (hstep : Step node label after) (htaking : label.sighting? ≠ none) :
    (creation? node label after = none ∧ after.intake.dials = node.intake.dials ∧
        ∀ id, after.intake.store.standing? id = node.intake.store.standing? id) ∨
      ∃ event, creation? node label after = some (node.env.now, event) ∧
        node.intake.store.standing? event.sighting.info.id = none ∧
        after.intake.dials = node.intake.dials ++
          node.intake.timeouts.map (fun timeout => ⟨event.sighting.info, timeout, none⟩) ∧
        ∀ id, after.intake.store.standing? id =
          if event.sighting.info.id = id then some .fresh else node.intake.store.standing? id := by
  obtain ⟨⟨sighting, source⟩, hsighting⟩ := Option.ne_none_iff_exists'.1 htaking
  have hnone : (∀ id, after.intake.store.standing? id = node.intake.store.standing? id) →
      creation? node label after = none := by
    intro hstanding
    simp only [creation?, hsighting, Option.bind_some, PeerStore.has_iff_standing, hstanding]
    exact if_pos (Decidable.em _)
  obtain ⟨-, hsame | htaken⟩ := hstep.takes_intake hsighting
  · have hstanding : ∀ id, after.intake.store.standing? id = node.intake.store.standing? id := by
      simp [hsame]
    exact .inl ⟨hnone hstanding, congrArg Intake.dials hsame, hstanding⟩
  · rcases node.intake.accept_standing node.env.now sighting source with
      ⟨habsent, hdials, hstanding⟩ | ⟨hdials, hstanding⟩ <;> rw [← htaken] at hdials hstanding
    · refine .inr ⟨⟨sighting, source⟩, ?_, habsent, hdials, hstanding⟩
      simp only [creation?, hsighting, Option.bind_some, PeerStore.has_iff_standing]
      exact if_neg (by simp [habsent, hstanding])
    · exact .inl ⟨hnone hstanding, hdials, hstanding⟩

/-- A sighting that is taken in does to what a node has of a peer what `View.Moves` lists. -/
theorem Step.takes_moves (hstep : Step node label after) (htaking : label.sighting? ≠ none)
    (honce : node.intake.timeouts = [timeout]) (id : PeerId) :
    (node.view id).Moves timeout id
      (about id ((creation? node label after).toList.map fun (time, event) =>
        .created time event.sighting.info))
      (after.view id) := by
  have hnow := hstep.takes_now htaking
  rcases hstep.takes_cases htaking with
    ⟨hnone, hdials, hstanding⟩ | ⟨event, hcreated, habsent, hdials, hstanding⟩
  · rw [hnone, view_eq hnow hdials (hstanding id)]
    exact .stays _
  · rw [hcreated, Option.toList_some, List.map_singleton]
    by_cases hid : event.sighting.info.id = id
    · have hview : after.view id =
          { node.view id with
            dials := (node.view id).dials ++ [⟨event.sighting.info, timeout, none⟩]
            standing := some .fresh } := by
        simp [view, hnow, hdials, hstanding, hid, honce]
      rw [about_of_eq (.created _ event.sighting.info) hid, hview]
      exact .created _ _ hid (hid ▸ habsent)
    · have hview : after.view id = node.view id := by
        simp [view, hnow, hdials, hstanding, hid, honce]
      rw [about_of_ne (.created _ event.sighting.info) hid, hview]
      exact .stays _

/-- The beginning of a dial does to what a node has of a peer what `View.Moves` lists. -/
theorem Begins.moves {dial : AutoConnect} (h : node.Begins dial after) (id : PeerId) :
    (node.view id).Moves timeout id
      (about id [.dialed node.env.now dial.peer node.env.transport.delay dial.timeout])
      (after.view id) := by
  obtain ⟨before, later, hdials, hcall⟩ := h
  by_cases hid : dial.peer.id = id
  · rw [about_of_eq (.dialed _ dial.peer _ _) hid]
    have hheld : (node.view id).dials =
        before.filter (·.peer.id = id) ++ dial :: later.filter (·.peer.id = id) := by
      simp [view, hdials, hid]
    convert View.Moves.begins _ _ _ _ node.env.transport hheld hcall using 1
    · rfl
    · simp [view, hid]
  · rw [about_of_ne (.dialed _ dial.peer _ _) hid]
    convert View.Moves.stays (node.view id) using 1
    simp [view, hdials, hid]

/-- The end of a dial does to what a node has of a peer what `View.Moves` lists. -/
theorem Ends.moves {dial : AutoConnect} {outcome : Except Error Unit}
    (h : node.Ends dial outcome after) (id : PeerId) :
    (node.view id).Moves timeout id
      (about id [.settled node.env.now dial.peer (AutoConnect.verdict outcome).1
        (AutoConnect.verdict outcome).2 (node.env.transport.reachable.contains dial.peer.id)])
      (after.view id) := by
  obtain ⟨before, later, call, transport, hdials, hcall, houtcome⟩ := h
  by_cases hid : dial.peer.id = id
  · rw [about_of_eq (.settled _ dial.peer _ _ _) hid]
    have hheld : (node.view id).dials =
        before.filter (·.peer.id = id) ++ dial :: later.filter (·.peer.id = id) := by
      simp [view, hdials, hid]
    convert View.Moves.settles _ _ _ _ call _ _ _ hheld hcall houtcome using 1
    · rfl
    · simp [view, hid, PeerStore.standing_update_status]
  · rw [about_of_ne (.settled _ dial.peer _ _ _) hid]
    convert View.Moves.stays (node.view id) using 1
    simp [view, hdials, hid, PeerStore.standing_update_status]

/-- A step in time does to what a node has of a peer what `View.Moves` lists. -/
theorem Happens.moves (h : Happens node more after) (honce : node.intake.timeouts = [timeout])
    (id : PeerId) : (node.view id).Moves timeout id (about id more) (after.view id) := by
  cases h with
  | takes label _ hstep htaking => exact hstep.takes_moves htaking honce id
  | begins dial _ hbegins => exact hbegins.moves id
  | settles dial outcome _ hends => exact hends.moves id
  | evicts _ hstep =>
      obtain ⟨hnow, hdials, -, hstore⟩ := hstep.evicts_intake
      rcases hstore with hsame | hevicted
      · rw [view_eq hnow hdials (by rw [hsame])]
        exact .stays _
      · rcases node.intake.store.standing_evict id node.env.now with
          hkept | ⟨hnone, standing, hstanding, hdistrusted⟩
        · rw [view_eq hnow hdials (hevicted ▸ hkept)]
          exact .stays _
        · have hview : after.view id = { node.view id with standing := none } := by
            simp [view, hnow, hdials, hevicted, hnone]
          rw [hview]
          exact .evicted _ standing hstanding hdistrusted
  | other label _ hstep hnow hstore hdials =>
      rw [view_eq hnow hdials (by rw [hstore])]
      exact .stays _
  | pass later hlater hwaits =>
      exact .pass _ later hlater fun dial hdial => hwaits dial (List.mem_of_mem_filter hdial)

/-- How long the transport takes to answer a dial. -/
def answerSpan (begun : Clock.Instant) (delay : Clock.Span) : Clock.Span :=
  if delay = 0 then 0 else Clock.lasting begun delay

/-- When a dial ends. -/
def endTime (begun : Clock.Instant) (delay timeout : Clock.Span) : Clock.Instant :=
  begun + min (answerSpan begun delay) (Clock.lasting begun timeout)

/-- A dial whose ends the clock reaches lasts for its delay or for its timeout. -/
theorem end_time_of_reached {begun : Clock.Instant} {delay : Clock.Span}
    (hdelay : begun + delay < Clock.horizon) (htimeout : begun + timeout < Clock.horizon) :
    endTime begun delay timeout = begun + min delay timeout ∧
      (answerSpan begun delay ≤ Clock.lasting begun timeout ↔ delay ≤ timeout) := by
  have hanswer : answerSpan begun delay = delay := by
    unfold answerSpan
    split_ifs with hzero
    · exact hzero.symm
    · exact if_pos hdelay
  have hbound : Clock.lasting begun timeout = timeout := if_pos htimeout
  rw [endTime, hanswer, hbound]
  exact ⟨rfl, Iff.rfl⟩

/-- The status and the error text that are entered after the dial of a peer, given whether the
transport answered in time and whether the peer was reachable. -/
def report (id : PeerId) (answered reachable : Bool) : PeerStatus × Option String :=
  if answered then
    if reachable then (.connected, none)
    else (.unreachable, some (Error.connection (id.text ++ " unreachable")).message)
  else (.unreachable, some (Error.timeout AutoConnect.bound).message)

/-- The connect to a peer with the instants until which it lasts. -/
def connecting (begun : Clock.Instant) (peer : PeerInfo) (delay timeout : Clock.Span) :
    BoundedConnect :=
  ⟨⟨peer, begun + answerSpan begun delay⟩, begun + Clock.lasting begun timeout, AutoConnect.bound⟩

/-- A connect that begins lasts until then. -/
theorem start_eq (transport : Transport) (begun : Clock.Instant) (peer : PeerInfo)
    (timeout : Clock.Span) :
    (BoundedConnect.start transport begun peer timeout AutoConnect.bound).1 =
      connecting begun peer transport.delay timeout := by
  simp only [BoundedConnect.start, Transport.beginConnect, connecting, answerSpan,
    Clock.after_eq_add]
  split_ifs <;> rfl

/-- A connect ends with its dial. -/
theorem wake_connecting (begun : Clock.Instant) (peer : PeerInfo) (delay timeout : Clock.Span) :
    (connecting begun peer delay timeout).wake = endTime begun delay timeout :=
  Nat.add_min_add_left _ _ _

/-- The answer of the transport is reported by whether the peer is reachable. -/
theorem verdict_finish_connect (transport : Transport) (peer : PeerInfo) :
    AutoConnect.verdict (transport.finishConnect peer).1 =
      report peer.id true (transport.reachable.contains peer.id) := by
  simp only [Transport.finishConnect, report, if_true]
  split_ifs <;> rfl

/-- A connect that has an outcome as soon as it ends has the one that is reported. -/
theorem outcome_connecting {begun now : Clock.Instant} {peer : PeerInfo} {delay : Clock.Span}
    {transport moved : Transport} {outcome : Except Error Unit}
    (houtcome : (connecting begun peer delay timeout).outcome? now transport =
      some (outcome, moved))
    (hnow : now ≤ endTime begun delay timeout) :
    now = endTime begun delay timeout ∧ AutoConnect.verdict outcome =
      report peer.id (answerSpan begun delay ≤ Clock.lasting begun timeout)
        (transport.reachable.contains peer.id) := by
  have hready : (connecting begun peer delay timeout).wake ≤ now :=
    ((connecting begun peer delay timeout).outcome_is_some_iff now transport).1
      (houtcome ▸ rfl)
  rw [wake_connecting] at hready
  have hends : now = endTime begun delay timeout := Nat.le_antisymm hnow hready
  refine ⟨hends, ?_⟩
  unfold BoundedConnect.outcome? at houtcome
  by_cases hanswered : answerSpan begun delay ≤ Clock.lasting begun timeout
  · have hdue : (connecting begun peer delay timeout).connect.due ≤ now := by
      rw [hends, endTime, min_eq_left hanswered]
      exact Nat.le_refl _
    rw [if_pos hdue, Option.some.injEq] at houtcome
    have hfinish : (transport.finishConnect peer).1 = outcome := congrArg Prod.fst houtcome
    rw [decide_eq_true hanswered, ← verdict_finish_connect, hfinish]
  · have hdue : ¬ (connecting begun peer delay timeout).connect.due ≤ now := by
      rw [hends, endTime, min_eq_right (Nat.le_of_not_le hanswered)]
      exact fun hle => hanswered (Nat.le_of_add_le_add_left hle)
    rw [if_neg hdue] at houtcome
    rw [decide_eq_false hanswered]
    split_ifs at houtcome
    cases houtcome
    rfl

/-- What happened to a peer and what a node has of it then, if it had a standing at first and new
peers are dialed with a timeout. -/
inductive Account (timeout : Clock.Span) (id : PeerId) (first : Option Standing) :
    List Happening → View → Prop where
  /-- Its record was not created, and it is not dialed. -/
  | untouched (now : Clock.Instant) (standing : Option Standing)
      (hstanding : standing = first ∨ standing = none) :
      Account timeout id first [] ⟨now, [], standing⟩
  /-- Its record has just been created, and its dial is still to begin. -/
  | waiting (now : Clock.Instant) (peer : PeerInfo) (hpeer : peer.id = id) :
      Account timeout id first [.created now peer] ⟨now, [⟨peer, timeout, none⟩], some .fresh⟩
  /-- Its dial began when its record was created, and has not ended. -/
  | dialing (begun now : Clock.Instant) (peer : PeerInfo) (delay : Clock.Span)
      (hpeer : peer.id = id) (hbegun : begun ≤ now) (hnow : now ≤ endTime begun delay timeout) :
      Account timeout id first [.created begun peer, .dialed begun peer delay timeout]
        ⟨now, [⟨peer, timeout, some (connecting begun peer delay timeout)⟩], some .fresh⟩
  /-- Its dial began when its record was created, and the outcome was entered when it ended. -/
  | settled (begun now : Clock.Instant) (peer : PeerInfo) (delay : Clock.Span) (reachable : Bool)
      (status : PeerStatus) (error : Option String) (hpeer : peer.id = id)
      (hnow : endTime begun delay timeout ≤ now)
      (hreport : (status, error) =
        report peer.id (answerSpan begun delay ≤ Clock.lasting begun timeout) reachable) :
      Account timeout id first
        [.created begun peer, .dialed begun peer delay timeout,
          .settled (endTime begun delay timeout) peer status error reachable]
        ⟨now, [], some (Standing.fresh.enter status error)⟩

/-- A single dial is the one that a step is about. -/
theorem eq_of_singleton {own dial : AutoConnect} {before later : List AutoConnect}
    (hdials : [own] = before ++ dial :: later) : before = [] ∧ dial = own ∧ later = [] := by
  cases before with
  | nil =>
      cases hdials
      exact ⟨rfl, rfl, rfl⟩
  | cons => simp at hdials

/-- The account of a peer goes on with every step. -/
theorem Account.next {first : Option Standing} {view moved : View}
    (h : Account timeout id first log view) (hmoves : view.Moves timeout id more moved) :
    Account timeout id first (log ++ more) moved := by
  cases h with
  | untouched now standing hstanding =>
      cases hmoves with
      | stays => exact .untouched now standing hstanding
      | created peer hpeer habsent => exact .waiting now peer hpeer
      | begins before dial later transport hdials => simp at hdials
      | settles before dial later call transport moved outcome hdials => simp at hdials
      | evicted => exact .untouched now none (.inr rfl)
      | pass later => exact .untouched later standing hstanding
  | waiting now peer hpeer =>
      cases hmoves with
      | stays => exact .waiting now peer hpeer
      -- There is a record already, so none is created.
      | created other hother habsent => cases habsent
      | begins before dial later transport hdials =>
          obtain ⟨rfl, rfl, rfl⟩ := eq_of_singleton hdials
          rw [start_eq]
          exact .dialing now now peer transport.delay hpeer (Nat.le_refl _) (Nat.le_add_right _ _)
      | settles before dial later call transport moved outcome hdials hcall =>
          obtain ⟨-, rfl, -⟩ := eq_of_singleton hdials
          cases hcall
      -- A peer that was dialed once at most is trusted, so its record stays.
      | evicted standing hstanding hdistrusted =>
          cases hstanding
          exact absurd hdistrusted PeerRecord.trusted_fresh
      | pass later hlater hwaits =>
          -- No time passes before the dial begins.
          obtain ⟨call, hcall, -⟩ := hwaits _ (List.mem_singleton_self _)
          cases hcall
  | dialing begun now peer delay hpeer hbegun hnow =>
      cases hmoves with
      | stays => exact .dialing begun now peer delay hpeer hbegun hnow
      | created other hother habsent => cases habsent
      | begins before dial later transport hdials hcall =>
          obtain ⟨-, rfl, -⟩ := eq_of_singleton hdials
          cases hcall
      | settles before dial later call transport moved outcome hdials hcall houtcome =>
          obtain ⟨rfl, rfl, rfl⟩ := eq_of_singleton hdials
          cases hcall
          obtain ⟨rfl, hreport⟩ := outcome_connecting houtcome hnow
          exact .settled begun _ peer delay _ _ _ hpeer (Nat.le_refl _) hreport
      | evicted standing hstanding hdistrusted =>
          cases hstanding
          exact absurd hdistrusted PeerRecord.trusted_fresh
      | pass later hlater hwaits =>
          obtain ⟨call, hcall, hwake⟩ := hwaits _ (List.mem_singleton_self _)
          cases hcall
          rw [wake_connecting] at hwake
          exact .dialing begun later peer delay hpeer (hbegun.trans hlater) hwake
  | settled begun now peer delay reachable status error hpeer hnow hreport =>
      cases hmoves with
      | stays => exact .settled begun now peer delay reachable status error hpeer hnow hreport
      | created other hother habsent => cases habsent
      | begins before dial later transport hdials => simp at hdials
      | settles before dial later call transport moved outcome hdials => simp at hdials
      | evicted standing hstanding hdistrusted =>
          cases hstanding
          exact absurd hdistrusted (PeerRecord.trusted_enter_fresh status error)
      | pass later hlater =>
          exact .settled begun later peer delay reachable status error hpeer (hnow.trans hlater)
            hreport

/-- No chronicle changes who dials. -/
theorem Chronicle.timeouts_eq (h : Chronicle node log after) :
    after.intake.timeouts = node.intake.timeouts := by
  induction h with
  | refl => rfl
  | step log middle more after _ hnext ih => exact hnext.timeouts_eq.trans ih

/-- A chronicle gives an account of every peer. -/
theorem Chronicle.account (h : Chronicle node log after) (hidle : node.intake.dials = [])
    (honce : node.intake.timeouts = [timeout]) (id : PeerId) :
    Account timeout id (node.intake.store.standing? id) (about id log) (after.view id) := by
  induction h with
  | refl =>
      have hview : node.view id = ⟨node.env.now, [], node.intake.store.standing? id⟩ := by
        simp [view, hidle]
      rw [hview]
      exact .untouched _ _ (.inl rfl)
  | step log middle more after hchronicle hnext ih =>
      rw [about, List.filter_append]
      exact ih.next (hnext.moves (hchronicle.timeouts_eq.trans honce) id)

/-- Whether a connection to a peer is entered. -/
def Happening.isConnection : Happening → Bool
  | .settled _ _ .connected .. => true
  | .settled .. | .created .. | .dialed .. => false

/-- A record that was created along a chronicle counts the connections that were entered since. -/
theorem Account.connect_count {first : Option Standing} {view : View}
    (h : Account timeout id first log view) (hsome : log ≠ []) {standing : Standing}
    (hstanding : view.standing = some standing) :
    standing.connectCount = log.countP Happening.isConnection := by
  cases h with
  | untouched => exact absurd rfl hsome
  | waiting | dialing =>
      cases hstanding
      rfl
  | settled begun now peer delay reachable status error =>
      cases hstanding
      cases status <;> rfl

/-- Along every chronicle with one observer that dials, every record that is created leads to one
dial, which begins at that time, and to one outcome, which is entered when the transport answers or
the bound is over: a connection if the answer comes in time and the peer is reachable then. Where
the clock reaches the ends of the delay and of the timeout, that is at the earlier one of these. The
record counts the connections since it was created, a sighting that creates nothing begins no dial,
and every dial can come to its end. -/
theorem new_peers_are_dialed_once (hchronicle : Chronicle node log after)
    (hidle : node.intake.dials = []) (honce : node.intake.timeouts = [timeout]) :
    (∀ id, Account timeout id (node.intake.store.standing? id) (about id log) (after.view id)) ∧
    (∀ begun delay, begun + delay < Clock.horizon → begun + timeout < Clock.horizon →
      endTime begun delay timeout = begun + min delay timeout ∧
        (answerSpan begun delay ≤ Clock.lasting begun timeout ↔ delay ≤ timeout)) ∧
    (∀ id record, after.intake.store.get? id = some record → about id log ≠ [] →
      record.connectCount = (about id log).countP Happening.isConnection) ∧
    (∀ label next, Step after label next → label.sighting? ≠ none →
      creation? after label next = none → next.intake.dials = after.intake.dials) ∧
    ∃ more next, Chronicle after more next ∧ next.intake.dials = [] := by
  refine ⟨hchronicle.account hidle honce, fun begun delay => end_time_of_reached,
    fun id record hrecord hsome => ?_, fun label next hstep htaking hnone => ?_,
    exists_chronicle_settled after⟩
  · have hstanding : (after.view id).standing = some record.standing := by
      simp [view, PeerStore.standing?, hrecord]
    exact (hchronicle.account hidle honce id).connect_count hsome hstanding
  · rcases hstep.takes_cases htaking with ⟨-, hdials, -⟩ | ⟨event, hcreated, -⟩
    · exact hdials
    · rw [hnone] at hcreated
      cases hcreated

/-- A node that dials new peers over a transport that takes a while. -/
def dialer (delay timeout : Clock.Span) : Node where
  env := { transport := { localId := ownId, delay := delay } }
  intake := { localId := ownId, observers := [.autoConnect timeout] }
  coordinator := { scope := [0] }

/-- The transport once it can reach the peer. -/
def reaching (node : Node) : Environment :=
  { node.env with transport := node.env.transport.setReachable peerId true }

/-- A peer is found again while it is dialed, becomes reachable and answers with the end of the
bound: it is connected, once. -/
theorem new_peers_are_dialed_once_at_bound :
    ∃ after record, Chronicle (dialer 1000 1000)
        [.created 0 peer.info, .dialed 0 peer.info 1000 1000,
          .settled 1000 peer.info .connected none true] after ∧
      (dialer 1000 1000).intake.dials = [] ∧ (dialer 1000 1000).intake.timeouts = [1000] ∧
      after.intake.store.get? peerId = some record ∧ record.connectCount = 1 := by
  have hfound := (Happens.takes (dialer 1000 1000) _ _ (.found _ peer "mdns") nofun).chronicle
  have hbegun := hfound.append (Happens.begins _ _ _ (.intro [] [] rfl rfl)).chronicle
  have hagain := hbegun.append (Happens.takes _ _ _ (.found _ peer "dht") nofun).chronicle
  have hwaited := hagain.append
    (Happens.pass_single 1000 rfl rfl (by decide) (by decide)).chronicle
  have hreached := hwaited.append (Happens.other _ _ _
    (.surroundings _ (reaching _) fun _ h => h) rfl rfl rfl rfl).chronicle
  have hsettled := hreached.append (Happens.settles _ _ _ _ (.intro [] [] _ _ rfl rfl rfl)).chronicle
  obtain ⟨-, -, hcounts, -⟩ := new_peers_are_dialed_once hsettled rfl rfl
  refine ⟨_, _, hsettled, rfl, rfl, rfl, ?_⟩
  exact hcounts peerId _ rfl (by decide)

/-- A dial whose end is beyond the end of the clock may take thirty years. -/
theorem exists_chronicle_beyond :
    ∃ after status error, Chronicle (dialer Clock.longest Clock.longest)
      [.created 0 peer.info, .dialed 0 peer.info Clock.longest Clock.longest,
        .settled Clock.farFuture peer.info status error false] after := by
  have hfound := (Happens.takes (dialer Clock.longest Clock.longest) _ _ (.found _ peer "mdns")
    nofun).chronicle
  have hbegun := hfound.append (Happens.begins _ _ _ (.intro [] [] rfl rfl)).chronicle
  have hwaited := hbegun.append
    (Happens.pass_single Clock.farFuture rfl rfl (by decide) (by decide)).chronicle
  have hsettled := hwaited.append (Happens.settles _ _ _ _ (.intro [] [] _ _ rfl rfl rfl)).chronicle
  exact ⟨_, _, _, hsettled⟩

/-- It is not so that outcomes are always entered when the delay of the transport or the timeout is
over. -/
theorem not_always_settled_in_time :
    ¬ ∀ node log after timeout, Chronicle node log after → node.intake.dials = [] →
      node.intake.timeouts = [timeout] → ∀ time peer status error reachable,
      .settled time peer status error reachable ∈ log → ∃ begun delay,
        .created begun peer ∈ log ∧ .dialed begun peer delay timeout ∈ log ∧
        time = begun + min delay timeout := by
  intro hintime
  obtain ⟨after, status, error, hchronicle⟩ := exists_chronicle_beyond
  obtain ⟨begun, delay, -, hdialed, htime⟩ :=
    hintime _ _ _ _ hchronicle rfl rfl Clock.farFuture peer.info status error false (by simp)
  simp only [List.mem_cons, reduceCtorEq, Happening.dialed.injEq, List.not_mem_nil, or_false,
    false_or] at hdialed
  obtain ⟨rfl, -, rfl, -⟩ := hdialed
  exact absurd htime (by decide)

end Node

end Coordinator

end PeerFinder
