import Mathlib.Order.MinMax
import PeerFinder.Config.Validity
import PeerFinder.Coordinator.Assembly
import PeerFinder.Proofs.Coordinator.Announcements
import PeerFinder.Proofs.PeerStore.History

/-!
# Dials of new peers and the stop

A new peer is dialed in the background, and that work is under no scope. So a stop ends no dial:
every dial that is in flight when a stop has returned still ends in a step of its own, when the
transport answers or its bound is over, and then changes the record of its peer
(`Node.dials_outlive_stop`). `Node.not_records_kept_after_stop` is a run in which that happens.
-/

namespace PeerFinder

/-- Whom a dial is to, and its bound. -/
def AutoConnect.target (dial : AutoConnect) : PeerInfo × Clock.Span :=
  (dial.peer, dial.timeout)

namespace BoundedConnect

/-- A connect has an outcome from the instant on at which it ends. -/
theorem outcome_is_some_iff (call : BoundedConnect) (now : Clock.Instant) (transport : Transport) :
    (call.outcome? now transport).isSome = true ↔ call.wake ≤ now := by
  unfold outcome? wake
  rw [min_le_iff]
  by_cases hdue : call.connect.due ≤ now
  · simp [hdue]
  · by_cases hexpires : call.expires ≤ now <;> simp [hdue, hexpires]

end BoundedConnect

namespace Coordinator.Node

/-- Whom the dials of a node are to, with their bounds. -/
def targets (node : Node) : List (PeerInfo × Clock.Span) :=
  node.intake.dials.map AutoConnect.target

/-- A dial in flight ends: its outcome goes into the record of its peer. -/
inductive Ends (node : Node) (dial : AutoConnect) (outcome : Except Error Unit) : Node → Prop where
  | intro (before later : List AutoConnect) (call : BoundedConnect) (transport : Transport)
      (hdials : node.intake.dials = before ++ dial :: later) (hcall : dial.call = some call)
      (houtcome : call.outcome? node.env.now node.env.transport = some (outcome, transport)) :
      Ends node dial outcome
        { node with
          env := { node.env with
            transport := transport
            journal := (node.env.now, AutoConnect.notice dial.peer.id outcome) :: node.env.journal }
          intake := { node.intake with
            store := (node.intake.store.updateStatus dial.peer.id (AutoConnect.verdict outcome).1
              (AutoConnect.verdict outcome).2 node.env.now).2
            dials := before ++ later } }

variable {node middle after : Node} {label : Label} {dial : AutoConnect}
  {outcome : Except Error Unit}

/-- The end of a dial is a step. -/
theorem Ends.step (h : node.Ends dial outcome after) : Step node .other after := by
  obtain ⟨before, later, call, transport, hdials, hcall, houtcome⟩ := h
  have hstep : dial.step node.env.now
      ⟨(node.env.transport, node.intake.store), node.env.journal⟩ = some
        (⟨(transport, (node.intake.store.updateStatus dial.peer.id (AutoConnect.verdict outcome).1
            (AutoConnect.verdict outcome).2 node.env.now).2),
          (node.env.now, AutoConnect.notice dial.peer.id outcome) :: node.env.journal⟩, none) := by
    simp only [AutoConnect.step, hcall, houtcome]
    rfl
  have h := Step.dial node before dial later _ none hdials hstep
  rwa [Option.toList_none, List.append_nil] at h

/-- The end of a dial changes the record of its peer, and no other one. -/
theorem Ends.get_store (h : node.Ends dial outcome after) (id : PeerId) :
    after.intake.store.get? id =
      if dial.peer.id = id then
        (node.intake.store.get? id).map fun record =>
          record.withStatus (AutoConnect.verdict outcome).1 (AutoConnect.verdict outcome).2 node.env.now
      else node.intake.store.get? id := by
  obtain ⟨before, later, call, transport, hdials, hcall, houtcome⟩ := h
  dsimp only
  rw [PeerStore.get_update_status]
  split
  · rename_i hsame
    rw [hsame]
  · rfl

/-- Taking a sighting in leaves the dials in flight alone, and may begin others. -/
theorem dials_accept (intake : Intake) (now : Clock.Instant) (sighting : Sighting)
    (source : String) :
    ∃ begun, (intake.accept now sighting source).2.dials = intake.dials ++ begun := by
  unfold Intake.accept
  split
  · exact ⟨[], (List.append_nil _).symm⟩
  · dsimp only
    split
    · rw [Intake.announce_eq]
      exact ⟨_, rfl⟩
    · exact ⟨[], (List.append_nil _).symm⟩

/-- A step ends a dial, or every dial is still to its target after it, and others may have begun. -/
theorem Step.targets_cases (hstep : Step node label after) :
    (∃ dial outcome, node.Ends dial outcome after) ∨
      ∃ begun, after.targets = node.targets ++ begun := by
  have hsame : ∀ {other : Node}, other.intake.dials = node.intake.dials →
      ∃ begun, other.targets = node.targets ++ begun := by
    intro other heq
    exact ⟨[], by rw [targets, heq, List.append_nil, targets]⟩
  have hmore : ∀ {other : Node} {begun : List AutoConnect},
      other.intake.dials = node.intake.dials ++ begun →
      ∃ begun, other.targets = node.targets ++ begun := by
    intro other begun heq
    exact ⟨begun.map AutoConnect.target, by rw [targets, heq, List.map_append, targets]⟩
  cases hstep with
  | query before errand later env intake next herrands hnext =>
      rcases Errand.step_intake hnext with hintake | ⟨sighting, source, -, htaken⟩
      · exact .inr (hsame (congrArg Intake.dials hintake))
      · obtain ⟨begun, hbegun⟩ := dials_accept node.intake node.env.now sighting source
        exact .inr (hmore (htaken ▸ hbegun))
  | found sighting source =>
      obtain ⟨begun, hbegun⟩ := dials_accept node.intake node.env.now sighting source
      exact .inr (hmore hbegun)
  | dial before dial later noted next hdials hnext =>
      cases hcall : dial.call with
      | none =>
          simp only [AutoConnect.step, hcall] at hnext
          cases hnext
          refine .inr ⟨[], ?_⟩
          simp [targets, hdials, AutoConnect.target]
      | some call =>
          simp only [AutoConnect.step, hcall] at hnext
          obtain ⟨⟨outcome, transport⟩, houtcome, heq⟩ := Option.map_eq_some_iff.1 hnext
          cases heq
          have hends := Ends.intro before later call transport hdials hcall houtcome
          refine .inl ⟨dial, outcome, ?_⟩
          rwa [Option.toList_none, List.append_nil]
  | surroundings | sweep | evictor | reporter | status | evict | observe | subscriptions | start
  | startup | stop | shutdown => exact .inr (hsame rfl)

/-- Steps one after another, with the dials that ended. -/
inductive Course : Node → List AutoConnect → Node → Prop where
  | refl (node : Node) : Course node [] node
  /-- A step that ends no dial. -/
  | other (node : Node) (ended : List AutoConnect) (middle : Node) (label : Label) (after : Node)
      (hcourse : Course node ended middle) (hstep : Step middle label after)
      (hgoes : ∃ begun, after.targets = middle.targets ++ begun) : Course node ended after
  | ends (node : Node) (ended : List AutoConnect) (middle : Node) (dial : AutoConnect)
      (outcome : Except Error Unit) (after : Node) (hcourse : Course node ended middle)
      (hends : middle.Ends dial outcome after) : Course node (ended ++ [dial]) after

/-- On every path some dials end. -/
theorem Path.exists_course {labels : List Label} (hpath : Path node labels after) :
    ∃ ended, Course node ended after := by
  induction hpath with
  | refl => exact ⟨[], .refl node⟩
  | step labels middle label after hpath hstep ih =>
      obtain ⟨ended, hcourse⟩ := ih
      rcases hstep.targets_cases with ⟨dial, outcome, hends⟩ | hgoes
      · exact ⟨_, .ends _ _ _ _ _ _ hcourse hends⟩
      · exact ⟨_, .other _ _ _ _ _ hcourse hstep hgoes⟩

/-- The end of a dial takes it out of those in flight. -/
theorem Ends.targets_perm (h : node.Ends dial outcome after) :
    (dial.target :: after.targets).Perm node.targets := by
  obtain ⟨before, later, call, transport, hdials, hcall, houtcome⟩ := h
  simp only [targets, hdials, List.map_append, List.map_cons]
  exact List.perm_middle.symm

/-- No dial is dropped: each one that was in flight or has begun since has ended or is in flight. -/
theorem Course.targets_perm {ended : List AutoConnect} (hcourse : Course node ended after) :
    ∃ begun, (ended.map AutoConnect.target ++ after.targets).Perm (node.targets ++ begun) := by
  induction hcourse with
  | refl => exact ⟨[], by simp⟩
  | other ended middle label after hcourse hstep hgoes ih =>
      obtain ⟨earlier, hearlier⟩ := ih
      obtain ⟨begun, hbegun⟩ := hgoes
      refine ⟨earlier ++ begun, ?_⟩
      rw [hbegun, ← List.append_assoc, ← List.append_assoc]
      exact hearlier.append_right begun
  | ends ended middle dial outcome after hcourse hends ih =>
      obtain ⟨begun, hbegun⟩ := ih
      refine ⟨begun, List.Perm.trans ?_ hbegun⟩
      rw [List.map_append, List.append_assoc]
      exact hends.targets_perm.append_left _

/-- A dial that has begun can end exactly from the instant on at which the transport answers or its
bound is over. -/
theorem exists_ends_iff (hdial : dial ∈ node.intake.dials) {call : BoundedConnect}
    (hcall : dial.call = some call) :
    (∃ outcome after, node.Ends dial outcome after) ↔ call.wake ≤ node.env.now := by
  rw [← call.outcome_is_some_iff node.env.now node.env.transport, Option.isSome_iff_exists]
  constructor
  · intro hends
    obtain ⟨outcome, after, hends⟩ := hends
    obtain ⟨before, later, own, transport, hdials, hown, houtcome⟩ := hends
    rw [hcall] at hown
    cases hown
    exact ⟨_, houtcome⟩
  · intro hready
    obtain ⟨⟨outcome, transport⟩, houtcome⟩ := hready
    obtain ⟨before, later, hdials⟩ := List.append_of_mem hdial
    exact ⟨outcome, _, .intro before later call transport hdials hcall houtcome⟩

/-- A dial that has begun ends if time passes. -/
theorem exists_ends_of_call (hdial : dial ∈ node.intake.dials) {call : BoundedConnect}
    (hcall : dial.call = some call) :
    ∃ outcome after, (node.atTime (max node.env.now call.wake)).Ends dial outcome after := by
  have hlater : dial ∈ (node.atTime (max node.env.now call.wake)).intake.dials := hdial
  exact (exists_ends_iff hlater hcall).2 (Nat.le_max_right _ _)

/-- A dial that has not begun can begin. -/
theorem exists_step_begins (hdial : dial ∈ node.intake.dials) (hcall : dial.call = none) :
    ∃ middle own call, Step node .other middle ∧ middle.intake.store = node.intake.store ∧
      own ∈ middle.intake.dials ∧ own.target = dial.target ∧ own.call = some call := by
  obtain ⟨before, later, hdials⟩ := List.append_of_mem hdial
  let begun := BoundedConnect.start node.env.transport node.env.now dial.peer dial.timeout
    AutoConnect.bound
  have hbegins : dial.step node.env.now
      ⟨(node.env.transport, node.intake.store), node.env.journal⟩ =
        some (⟨(begun.2, node.intake.store), node.env.journal⟩,
          some { dial with call := some begun.1 }) := by
    simp only [AutoConnect.step, hcall]
    rfl
  have hstep := Step.dial node before dial later _ _ hdials hbegins
  exact ⟨_, { dial with call := some begun.1 }, begun.1, hstep, rfl, by simp, rfl, rfl⟩

/-- Every dial that is in flight, or about to begin, can go on to its end by itself: nothing else needs
to happen but that time passes. -/
theorem exists_path_ends (hdial : dial ∈ node.intake.dials) :
    ∃ labels middle own outcome after, Path node labels middle ∧
      middle.intake.store = node.intake.store ∧ own.target = dial.target ∧
      middle.Ends own outcome after := by
  cases hcall : dial.call with
  | some call =>
      obtain ⟨outcome, after, hends⟩ := exists_ends_of_call hdial hcall
      have hpath := Path.step _ _ _ _ _ (.refl node)
        (step_at_time node (max node.env.now call.wake))
      exact ⟨_, _, dial, outcome, after, hpath, rfl, rfl, hends⟩
  | none =>
      obtain ⟨begun, own, call, hbegins, hstore, hown, htarget, hcall⟩ :=
        exists_step_begins hdial hcall
      obtain ⟨outcome, after, hends⟩ := exists_ends_of_call hown hcall
      have hbegun := Path.step _ _ _ _ _ (.refl node) hbegins
      have hpath := Path.step _ _ _ _ _ hbegun
        (step_at_time begun (max begun.env.now call.wake))
      exact ⟨_, _, own, outcome, after, hpath, hstore, htarget, hends⟩

/-- A stop returns with a step. -/
inductive Returns : Node → Node → Prop where
  | intro (node : Node) (before : List Shutdown) (call : Shutdown) (later : List Shutdown)
      (env : Environment) (coordinator : Coordinator) (result : Except Error Unit)
      (hcalls : node.shutdowns = before ++ call :: later)
      (hstep : call.step (node.env, node.coordinator) = some ((env, coordinator), .inr result)) :
      Returns node
        { node with env := env, coordinator := coordinator, shutdowns := before ++ later }

/-- The step with which a stop returns leaves the intake alone. -/
theorem Returns.intake_eq {stopping stopped : Node} (h : stopping.Returns stopped) :
    stopped.intake = stopping.intake := by
  cases h
  rfl

/-- The node of a configuration. -/
def ofConfig (config : Config) (env : Environment) (hasRouting : Bool) : Node where
  env := (Coordinator.ofConfig config env hasRouting).2.2
  intake := (Coordinator.ofConfig config env hasRouting).1
  coordinator := (Coordinator.ofConfig config env hasRouting).2.1

/-- A stop leaves the dials of new peers and the store alone, and whatever happens after it has
returned, none of the dials is dropped. A dial that has begun can end exactly from the instant on at
which the transport answers or its bound is over, which it does by itself if time passes. When it ends,
the record of its peer gets the outcome, and no other record is changed. -/
theorem dials_outlive_stop {stopping stopped after : Node} {ended : List AutoConnect}
    (hreturns : stopping.Returns stopped) (hcourse : Course stopped ended after) :
    stopped.intake = stopping.intake ∧
    (∃ begun, (ended.map AutoConnect.target ++ after.targets).Perm (stopped.targets ++ begun)) ∧
    (∀ dial ∈ after.intake.dials, ∀ call, dial.call = some call →
      ((∃ outcome next, after.Ends dial outcome next) ↔ call.wake ≤ after.env.now)) ∧
    (∀ dial ∈ after.intake.dials, ∃ labels middle own outcome next, Path after labels middle ∧
      middle.intake.store = after.intake.store ∧ own.target = dial.target ∧
      middle.Ends own outcome next) ∧
    ∀ dial outcome next, after.Ends dial outcome next → ∀ id, next.intake.store.get? id =
      if dial.peer.id = id then
        (after.intake.store.get? id).map fun record =>
          record.withStatus (AutoConnect.verdict outcome).1 (AutoConnect.verdict outcome).2
            after.env.now
      else after.intake.store.get? id := by
  refine ⟨hreturns.intake_eq, hcourse.targets_perm, fun dial hdial call hcall => ?_,
    fun dial hdial => ?_, fun dial outcome next hends id => ?_⟩
  · exact exists_ends_iff hdial hcall
  · exact exists_path_ends hdial
  · exact hends.get_store id

section Stopped

/-- A configuration without seeds that lets new peers be dialed. -/
def dialing : Config where
  localNet := { enabled := false }
  coordinator := { autoConnect := true }

/-- Surroundings in which a dial takes a second. -/
def slow : Environment where
  transport := { localId := ownId, delay := 1000 }

/-- A stop may return while the dial of a peer is in flight of which nothing is known yet. -/
theorem exists_dial_after_stop :
    ∃ labels stopping stopped dial call, Path (ofConfig dialing slow false) labels stopping ∧
      stopping.Returns stopped ∧ dial ∈ stopped.intake.dials ∧ dial.call = some call ∧
      dial.peer.id = peerId ∧
      stopped.intake.store.get? peerId = some (.ofSighting peer "static" 0) := by
  have hfound := Path.step _ _ _ _ _ (.refl (ofConfig dialing slow false)) (.found _ peer "static")
  have hdialed := Path.step _ _ _ _ _ hfound (.dial _ [] _ [] _ _ rfl rfl)
  have hstop := Path.step _ _ _ _ _ hdialed (.stop _)
  have hcancelled := Path.step _ _ _ _ _ hstop (.shutdown _ [] .cancelling [] _ _ _ rfl rfl)
  have hentered := Path.step _ _ _ _ _ hcancelled (.shutdown _ [] .entering [] _ _ _ rfl rfl)
  exact ⟨_, _, _, _, _, hentered, .intro _ [] _ [] _ _ _ rfl rfl, List.mem_singleton_self _, rfl, rfl,
    rfl⟩

/-- That dial still ends, and the record of the peer gets its outcome. -/
theorem dials_outlive_stop_dialing :
    ∃ labels stopping stopped dial call, Path (ofConfig dialing slow false) labels stopping ∧
      stopping.Returns stopped ∧ Course stopped [] stopped ∧ dial ∈ stopped.intake.dials ∧
      dial.call = some call ∧ ∃ labels middle own outcome next, Path stopped labels middle ∧
        own.target = dial.target ∧ middle.Ends own outcome next := by
  obtain ⟨labels, stopping, stopped, dial, call, hpath, hreturns, hdial, hcall, -, -⟩ :=
    exists_dial_after_stop
  have hcourse := Course.refl stopped
  obtain ⟨-, -, -, hends, -⟩ := dials_outlive_stop hreturns hcourse
  obtain ⟨later, middle, own, outcome, next, hlater, -, htarget, hends⟩ := hends dial hdial
  exact ⟨labels, stopping, stopped, dial, call, hpath, hreturns, hcourse, hdial, hcall, later, middle,
    own, outcome, next, hlater, htarget, hends⟩

/-- After a connect the status of a peer is known. -/
theorem verdict_ne_unknown (outcome : Except Error Unit) :
    (AutoConnect.verdict outcome).1 ≠ .unknown := by
  cases outcome <;> nofun

/-- It is not so that the dials that are in flight when a stop returns leave all records alone. -/
theorem not_records_kept_after_stop :
    ¬ ∀ config env hasRouting, config.validate = .ok () → config.coordinator.autoConnect = true →
      ∀ labels stopping stopped, Path (ofConfig config env hasRouting) labels stopping →
      stopping.Returns stopped → ∀ dial ∈ stopped.intake.dials, ∀ later after outcome next,
      Path stopped later after → after.Ends dial outcome next →
      next.intake.store = after.intake.store := by
  intro hkept
  obtain ⟨labels, stopping, stopped, dial, call, hpath, hreturns, hdial, hcall, hpeer, hrecord⟩ :=
    exists_dial_after_stop
  obtain ⟨outcome, next, hends⟩ := exists_ends_of_call hdial hcall
  have hlater := Path.step _ _ _ _ _ (.refl stopped)
    (step_at_time stopped (max stopped.env.now call.wake))
  have hsame := hkept dialing slow false (by decide) rfl labels stopping stopped hpath hreturns dial
    hdial _ _ outcome next hlater hends
  -- The record would have to have both the status before and the one after the connect.
  have hget := hends.get_store peerId
  have hafter : (stopped.atTime (max stopped.env.now call.wake)).intake.store.get? peerId =
      some (.ofSighting peer "static" 0) := hrecord
  rw [hsame, if_pos hpeer, hafter, Option.map_some, Option.some.injEq] at hget
  exact verdict_ne_unknown outcome (congrArg PeerRecord.status hget).symm

end Stopped

end Coordinator.Node

end PeerFinder
