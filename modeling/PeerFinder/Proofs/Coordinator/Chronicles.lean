import Mathlib.Data.List.MinMax
import PeerFinder.Proofs.Coordinator.Calls
import PeerFinder.Proofs.Coordinator.Dials

/-!
# Chronicles of new peers

A chronicle writes down what happens to peers along a run of a node: their records are created,
their dials begin, and the outcomes of these are entered. Time passes only while no dial can go on,
and nothing but dials enters outcomes (`Node.Happens`, `Node.Chronicle`). A chronicle is one of a
path (`Node.Chronicle.exists_path`), a step is one of a chronicle unless it meddles with the clock,
the outcomes or the dials (`Node.Step.exists_happens`), and every chronicle can go on until no dial
is left (`Node.exists_chronicle_settled`).
-/

namespace PeerFinder

namespace Coordinator

/-- The bounds with which the observers dial new peers. -/
def Intake.timeouts (intake : Intake) : List Clock.Span :=
  intake.observers.filterMap fun
    | .autoConnect timeout => some timeout
    | .recorder _ => none

/-- What happens to a peer. -/
inductive Happening where
  /-- Its record is created. -/
  | created (time : Clock.Instant) (peer : PeerInfo)
  /-- A dial begins: how long the transport takes to answer, and the bound of the dial. -/
  | dialed (time : Clock.Instant) (peer : PeerInfo) (delay timeout : Clock.Span)
  /-- The outcome of a dial is entered, while the peer is reachable or not. -/
  | settled (time : Clock.Instant) (peer : PeerInfo) (status : PeerStatus) (error : Option String)
      (reachable : Bool)

/-- The peer to which something happens. -/
def Happening.peer : Happening → PeerInfo
  | .created _ peer => peer
  | .dialed _ peer .. => peer
  | .settled _ peer .. => peer

namespace Node

/-- A dial that was not begun begins: the transport is asked to connect. -/
inductive Begins (node : Node) (dial : AutoConnect) : Node → Prop where
  | intro (before later : List AutoConnect)
      (hdials : node.intake.dials = before ++ dial :: later) (hcall : dial.call = none) :
      Begins node dial
        { node with
          env := { node.env with
            transport := (node.env.transport.beginConnect node.env.now dial.peer).2 }
          intake := { node.intake with
            dials := before ++ { dial with call := some (BoundedConnect.start node.env.transport
              node.env.now dial.peer dial.timeout AutoConnect.bound).1 } :: later } }

/-- The single steps of a node in time, with what happens to peers. Only dials enter outcomes. -/
inductive Happens : Node → List Happening → Node → Prop where
  /-- A sighting is handed in, or a query goes on that is about to take one in. -/
  | takes (node : Node) (label : Label) (after : Node) (hstep : Step node label after)
      (htaking : label.sighting? ≠ none) :
      Happens node
        ((creation? node label after).toList.map fun (time, event) =>
          .created time event.sighting.info)
        after
  | begins (node : Node) (dial : AutoConnect) (after : Node) (hbegins : node.Begins dial after) :
      Happens node [.dialed node.env.now dial.peer node.env.transport.delay dial.timeout] after
  | settles (node : Node) (dial : AutoConnect) (outcome : Except Error Unit) (after : Node)
      (hends : node.Ends dial outcome after) :
      Happens node
        [.settled node.env.now dial.peer (AutoConnect.verdict outcome).1
          (AutoConnect.verdict outcome).2 (node.env.transport.reachable.contains dial.peer.id)]
        after
  | evicts (node : Node) (after : Node) (hstep : Step node .eviction after) : Happens node [] after
  /-- Anything else at the same instant that leaves the store, the dials and who dials alone. -/
  | other (node : Node) (label : Label) (after : Node) (hstep : Step node label after)
      (hnow : after.env.now = node.env.now) (hstore : after.intake.store = node.intake.store)
      (hdials : after.intake.dials = node.intake.dials)
      (htimeouts : after.intake.timeouts = node.intake.timeouts) : Happens node [] after
  /-- Time passes while every dial waits. -/
  | pass (node : Node) (later : Clock.Instant) (hlater : node.env.now ≤ later)
      (hwaits : ∀ dial ∈ node.intake.dials, ∃ call, dial.call = some call ∧ later ≤ call.wake) :
      Happens node [] (node.atTime later)

/-- Steps in time one after another, with what happens to peers. -/
inductive Chronicle : Node → List Happening → Node → Prop where
  | refl (node : Node) : Chronicle node [] node
  | step (node : Node) (log : List Happening) (middle : Node) (more : List Happening)
      (after : Node) (hchronicle : Chronicle node log middle) (hnext : Happens middle more after) :
      Chronicle node (log ++ more) after

variable {node middle after : Node} {label : Label} {log more : List Happening}
  {dial : AutoConnect}

/-- The beginning of a dial is a step. -/
theorem Begins.step (h : node.Begins dial after) : Step node .other after := by
  obtain ⟨before, later, hdials, hcall⟩ := h
  have hstep : dial.step node.env.now
      ⟨(node.env.transport, node.intake.store), node.env.journal⟩ = some
        (⟨((node.env.transport.beginConnect node.env.now dial.peer).2, node.intake.store),
          node.env.journal⟩, some { dial with call := some (BoundedConnect.start node.env.transport
            node.env.now dial.peer dial.timeout AutoConnect.bound).1 }) := by
    simp only [AutoConnect.step, hcall]
    rfl
  have h := Step.dial node before dial later _ _ hdials hstep
  rwa [Option.toList_some, List.append_assoc, List.singleton_append] at h

/-- A step in time is a step. -/
theorem Happens.exists_step (h : Happens node more after) : ∃ label, Step node label after := by
  cases h with
  | takes label _ hstep => exact ⟨label, hstep⟩
  | begins dial _ hbegins => exact ⟨_, hbegins.step⟩
  | settles dial outcome _ hends => exact ⟨_, hends.step⟩
  | evicts _ hstep => exact ⟨_, hstep⟩
  | other label _ hstep => exact ⟨label, hstep⟩
  | pass later => exact ⟨_, node.step_at_time later⟩

/-- A chronicle is one of a path. -/
theorem Chronicle.exists_path (h : Chronicle node log after) :
    ∃ labels, Path node labels after := by
  induction h with
  | refl => exact ⟨[], .refl node⟩
  | step log middle more after _ hnext ih =>
      obtain ⟨labels, hpath⟩ := ih
      obtain ⟨label, hstep⟩ := hnext.exists_step
      exact ⟨_, .step _ _ _ _ _ hpath hstep⟩

/-- A chronicle goes on with another one. -/
theorem Chronicle.append (hleft : Chronicle node log middle) (hright : Chronicle middle more after) :
    Chronicle node (log ++ more) after := by
  induction hright with
  | refl => rwa [List.append_nil]
  | step log middle more after _ hnext ih =>
      rw [← List.append_assoc]
      exact .step _ _ _ _ _ ih hnext

/-- A single step is a chronicle. -/
theorem Happens.chronicle (h : Happens node more after) : Chronicle node more after :=
  .step _ [] _ _ _ (.refl node) h

/-- Time passes while the only dial waits. -/
theorem Happens.pass_single {call : BoundedConnect} (later : Clock.Instant)
    (hdials : node.intake.dials = [dial]) (hcall : dial.call = some call)
    (hlater : node.env.now ≤ later) (hwake : later ≤ call.wake) :
    Happens node [] (node.atTime later) := by
  refine .pass node later hlater fun other hother => ?_
  rw [hdials, List.mem_singleton] at hother
  exact ⟨call, hother ▸ hcall, hwake⟩

/-- A step that leaves the intake alone and takes no time is one of a chronicle. -/
theorem Step.happens_of_intake_eq (hstep : Step node label after)
    (hnow : after.env.now = node.env.now) (hintake : after.intake = node.intake) :
    Happens node [] after :=
  .other _ _ _ hstep hnow (congrArg Intake.store hintake) (congrArg Intake.dials hintake)
    (congrArg Intake.timeouts hintake)

/-- What no chronicle holds: the clock is set, a status is entered from outside, or an observer that
dials is added. -/
inductive Meddles (node : Node) : Node → Prop where
  | clock (env : Environment) (hnow : env.now ≠ node.env.now) :
      Meddles node { node with env := env }
  | status (id : PeerId) (status : PeerStatus) (error : Option String) :
      Meddles node
        { node with intake := { node.intake with
            store := (node.intake.store.updateStatus id status error node.env.now).2 } }
  | observer (timeout : Clock.Span) :
      Meddles node
        { node with intake := { node.intake with
            observers := node.intake.observers ++ [.autoConnect timeout] } }

/-- A step of a dial is its beginning or its end. -/
theorem exists_happens_dial {before later : List AutoConnect}
    {noted : Noted (Transport × PeerStore)} {next : Option AutoConnect}
    (hdials : node.intake.dials = before ++ dial :: later)
    (hnext : dial.step node.env.now ⟨(node.env.transport, node.intake.store), node.env.journal⟩ =
      some (noted, next)) :
    ∃ more, Happens node more
      { node with
        env := { node.env with transport := noted.state.1, journal := noted.journal }
        intake := { node.intake with
          store := noted.state.2, dials := before ++ next.toList ++ later } } := by
  cases hcall : dial.call with
  | none =>
      simp only [AutoConnect.step, hcall] at hnext
      cases hnext
      have hbegins := Begins.intro before later hdials hcall
      refine ⟨_, .begins node dial _ ?_⟩
      rwa [Option.toList_some, List.append_assoc, List.singleton_append]
  | some call =>
      simp only [AutoConnect.step, hcall] at hnext
      obtain ⟨⟨outcome, transport⟩, houtcome, heq⟩ := Option.map_eq_some_iff.1 hnext
      cases heq
      have hends := Ends.intro before later call transport hdials hcall houtcome
      refine ⟨_, .settles node dial outcome _ ?_⟩
      rwa [Option.toList_none, List.append_nil]

/-- Every step is one of a chronicle, but for those that no chronicle holds. -/
theorem Step.exists_happens (hstep : Step node label after) :
    Meddles node after ∨ ∃ more, Happens node more after := by
  have htaken := hstep
  cases hstep with
  | surroundings env hcancelled =>
      by_cases hnow : env.now = node.env.now
      · exact .inr ⟨[], htaken.happens_of_intake_eq hnow rfl⟩
      · exact .inl (.clock env hnow)
  | status id status error => exact .inl (.status id status error)
  | observe observer =>
      cases observer with
      | autoConnect timeout => exact .inl (.observer timeout)
      | recorder name =>
          refine .inr ⟨[], .other _ _ _ htaken rfl rfl rfl ?_⟩
          simp [Intake.timeouts]
  | query before errand later env intake next herrands hnext =>
      cases htaking : errand.taking? with
      | some taking =>
          rw [htaking] at htaken
          exact .inr ⟨_, .takes _ _ _ htaken nofun⟩
      | none =>
          have hnow := (Errand.step_sends hnext).now
          rcases Errand.step_intake hnext with hsame | ⟨sighting, source, hsome, -⟩
          · exact .inr ⟨[], htaken.happens_of_intake_eq hnow hsame⟩
          · rw [htaking] at hsome
            cases hsome
  | found sighting source => exact .inr ⟨_, .takes _ _ _ htaken nofun⟩
  | dial before dial later noted next hdials hnext =>
      exact .inr (exists_happens_dial hdials hnext)
  | evictor | evict => exact .inr ⟨[], .evicts _ _ htaken⟩
  | reporter heedsStop reporter store next hreporter hnext =>
      have hstate : store.state = node.intake.store := Reporter.step_state hnext
      exact .inr ⟨[], .other _ _ _ htaken rfl hstate rfl rfl⟩
  | subscriptions => exact .inr ⟨[], .other _ _ _ htaken rfl rfl rfl rfl⟩
  | startup before call later env coordinator next hcalls hnext =>
      have hnow := (startup_step_receives hnext).1
      exact .inr ⟨[], htaken.happens_of_intake_eq hnow rfl⟩
  | shutdown before call later env coordinator next hcalls hnext =>
      have hnow := (shutdown_step_receives hnext).1
      exact .inr ⟨[], htaken.happens_of_intake_eq hnow rfl⟩
  | sweep | start | stop => exact .inr ⟨[], htaken.happens_of_intake_eq rfl rfl⟩

/-- How many steps the dials of a node have to make: each is to end, and some are to begin. -/
def dialSteps (node : Node) : Nat :=
  node.intake.dials.length + node.intake.dials.countP (·.call.isNone)

/-- The beginning of a dial is one of its steps. -/
theorem Begins.dial_steps_lt (h : node.Begins dial after) : after.dialSteps < node.dialSteps := by
  obtain ⟨before, later, hdials, hcall⟩ := h
  simp [dialSteps, hdials, hcall]

/-- The end of a dial is one of its steps. -/
theorem Ends.dial_steps_lt {outcome : Except Error Unit} (h : node.Ends dial outcome after) :
    after.dialSteps < node.dialSteps := by
  obtain ⟨before, later, call, transport, hdials, hcall, houtcome⟩ := h
  simp [dialSteps, hdials, hcall]

/-- Of dials that have begun one ends first. -/
theorem exists_first_wake {dials : List AutoConnect} (hsome : dials ≠ [])
    (hbegun : ∀ dial ∈ dials, dial.call ≠ none) :
    ∃ first ∈ dials, ∃ call, first.call = some call ∧
      ∀ dial ∈ dials, ∃ other, dial.call = some other ∧ call.wake ≤ other.wake := by
  obtain ⟨first, hfirst⟩ := Option.ne_none_iff_exists'.1
    (mt List.argmin_eq_none.1 hsome : dials.argmin (fun dial => dial.wake.getD 0) ≠ none)
  have hmem := List.argmin_mem hfirst
  obtain ⟨call, hcall⟩ := Option.ne_none_iff_exists'.1 (hbegun first hmem)
  refine ⟨first, hmem, call, hcall, fun dial hdial => ?_⟩
  obtain ⟨other, hother⟩ := Option.ne_none_iff_exists'.1 (hbegun dial hdial)
  have hle := List.le_of_mem_argmin hdial hfirst
  simp only [AutoConnect.wake, hcall, hother, Option.map_some, Option.getD_some] at hle
  exact ⟨other, hother, hle⟩

/-- While there are dials, one of them can go on, at once or after time has passed. -/
theorem exists_chronicle_go (hsome : node.intake.dials ≠ []) :
    ∃ more after, Chronicle node more after ∧ after.dialSteps < node.dialSteps := by
  by_cases hbegun : ∀ dial ∈ node.intake.dials, dial.call ≠ none
  · obtain ⟨first, hfirst, call, hcall, hleast⟩ := exists_first_wake hsome hbegun
    by_cases hdue : call.wake ≤ node.env.now
    · obtain ⟨outcome, after, hends⟩ := (exists_ends_iff hfirst hcall).2 hdue
      exact ⟨_, after, (Happens.settles _ _ _ _ hends).chronicle, hends.dial_steps_lt⟩
    · -- Nothing is due before `call`, so time may pass until then.
      have hpass := Happens.pass node call.wake (Nat.le_of_not_le hdue) hleast
      have hthen : first ∈ (node.atTime call.wake).intake.dials := hfirst
      obtain ⟨outcome, after, hends⟩ := (exists_ends_iff hthen hcall).2 (Nat.le_refl _)
      have hsettles := Happens.settles _ _ _ _ hends
      exact ⟨_, after, hpass.chronicle.append hsettles.chronicle, hends.dial_steps_lt⟩
  · push Not at hbegun
    obtain ⟨dial, hdial, hcall⟩ := hbegun
    obtain ⟨before, later, hdials⟩ := List.append_of_mem hdial
    have hbegins := Begins.intro before later hdials hcall
    exact ⟨_, _, (Happens.begins _ _ _ hbegins).chronicle, hbegins.dial_steps_lt⟩

/-- Every chronicle can go on until no dial is left. -/
theorem exists_chronicle_settled (node : Node) :
    ∃ more after, Chronicle node more after ∧ after.intake.dials = [] := by
  -- The induction is on the steps that the dials have to make.
  induction hsteps : node.dialSteps using Nat.strong_induction_on generalizing node with
  | _ steps ih =>
      by_cases hnone : node.intake.dials = []
      · exact ⟨[], node, .refl node, hnone⟩
      · obtain ⟨first, middle, hfirst, hfewer⟩ := exists_chronicle_go hnone
        obtain ⟨more, after, hmore, hdone⟩ := ih _ (hsteps ▸ hfewer) middle rfl
        exact ⟨first ++ more, after, hfirst.append hmore, hdone⟩

end Node

end Coordinator

end PeerFinder
