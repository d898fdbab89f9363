import PeerFinder.Coordinator.Basic
import PeerFinder.Proofs.Activity

/-!
# Interleavings of a coordinator

The work of a coordinator goes on in single steps, in any order: its loops, its queries, the dials
of new peers, calls of start and stop, sightings that are handed in, changes of the store, and
whatever its surroundings do. `Node.Step` lists these steps and `Node.Path` strings them together.
The order in which a coordinator itself takes its work on is one of them
(`Node.advance_errands_path`, `Node.advance_loops_path`).
-/

namespace PeerFinder

namespace Coordinator

/-- A coordinator with its surroundings and its intake, and the calls of start and stop that are
under way. -/
structure Node where
  env : Environment
  intake : Intake
  coordinator : Coordinator
  startups : List Startup := []
  shutdowns : List Shutdown := []

/-- The sighting that an errand is about to take in, with the name of its mechanism. -/
def Errand.taking? (errand : Errand) : Option (Sighting × String) :=
  match errand.query.point with
  | .accepting sighting _ _ _ => some (sighting, errand.query.mechanism)
  | .ready | .asking _ | .ingesting .. => none

namespace Node

/-- What the work of a coordinator sees, and whether a wait that could end either way ends by the
stop. -/
def moment (node : Node) (heedsStop : Bool) : Moment :=
  { node.env.moment node.coordinator.scope with heedsStop := heedsStop }

/-- The store of a node with its journal. -/
def store (node : Node) : Noted PeerStore :=
  ⟨node.intake.store, node.env.journal⟩

/-- The node with another store and journal. -/
def withStore (node : Node) (store : Noted PeerStore) : Node :=
  { node with
    env := { node.env with journal := store.journal }
    intake := { node.intake with store := store.state } }

/-- The node with other errands. -/
def withErrands (node : Node) (errands : List Errand) : Node :=
  { node with coordinator := { node.coordinator with errands := errands } }

/-- What a step is about. -/
inductive Label where
  /-- A query goes on; it was about to take this sighting in, if any. -/
  | query (taking : Option (Sighting × String))
  /-- The sweeper goes on, whether or not it heeds the stop, and begins these queries. -/
  | sweep (heedsStop : Bool) (begun : List Errand)
  /-- A sighting from a source is handed in. -/
  | found (sighting : Sighting) (source : String)
  /-- The evictor goes on, or an eviction is asked for. -/
  | eviction
  /-- Something else happens. -/
  | other

/-- The sighting that a step may take in, with its source. -/
def Label.sighting? : Label → Option (Sighting × String)
  | .query taking => taking
  | .found sighting source => some (sighting, source)
  | .sweep .. | .eviction | .other => none

/-- The single steps of a node. -/
inductive Step : Node → Label → Node → Prop where
  /-- The clock, the mechanisms or anything else around changes, but for what was cancelled. -/
  | surroundings (node : Node) (env : Environment)
      (hcancelled : ∀ token, node.env.tree.isCancelled token = true →
        env.tree.isCancelled token = true) :
      Step node .other { node with env := env }
  | query (node : Node) (before : List Errand) (errand : Errand) (later : List Errand)
      (env : Environment) (intake : Intake) (next : Option Errand)
      (herrands : node.coordinator.errands = before ++ errand :: later)
      (hstep : errand.step node.coordinator.scope (node.env, node.intake) =
        some ((env, intake), next)) :
      Step node (.query errand.taking?)
        { node.withErrands (before ++ next.toList ++ later) with env := env, intake := intake }
  | sweep (node : Node) (heedsStop : Bool) (sweeper : Sweeper) (begun : List Errand)
      (next : Option Sweeper) (hsweeper : node.coordinator.sweeper = some sweeper)
      (hstep : Sweeper.step node.coordinator.schedule (node.moment heedsStop)
        node.coordinator.errands sweeper = some (node.coordinator.errands ++ begun, next)) :
      Step node (.sweep heedsStop begun)
        { node with coordinator := { node.coordinator with
            errands := node.coordinator.errands ++ begun, sweeper := next } }
  | evictor (node : Node) (heedsStop : Bool) (evictor : Evictor) (store : Noted PeerStore)
      (next : Option Evictor) (hevictor : node.coordinator.evictor = some evictor)
      (hstep : evictor.step (node.moment heedsStop) node.store = some (store, next)) :
      Step node .eviction
        { node.withStore store with coordinator := { node.coordinator with evictor := next } }
  | reporter (node : Node) (heedsStop : Bool) (reporter : Reporter) (store : Noted PeerStore)
      (next : Option Reporter) (hreporter : node.coordinator.reporter = some reporter)
      (hstep : Reporter.step node.coordinator.schedule (node.moment heedsStop) node.store reporter =
        some (store, next)) :
      Step node .other
        { node.withStore store with coordinator := { node.coordinator with reporter := next } }
  | dial (node : Node) (before : List AutoConnect) (dial : AutoConnect) (later : List AutoConnect)
      (noted : Noted (Transport × PeerStore)) (next : Option AutoConnect)
      (hdials : node.intake.dials = before ++ dial :: later)
      (hstep : dial.step node.env.now ⟨(node.env.transport, node.intake.store), node.env.journal⟩ =
        some (noted, next)) :
      Step node .other
        { node with
          env := { node.env with transport := noted.state.1, journal := noted.journal }
          intake := { node.intake with
            store := noted.state.2, dials := before ++ next.toList ++ later } }
  | found (node : Node) (sighting : Sighting) (source : String) :
      Step node (.found sighting source)
        { node with intake := (node.intake.accept node.env.now sighting source).2 }
  | status (node : Node) (id : PeerId) (status : PeerStatus) (error : Option String) :
      Step node .other
        { node with intake := { node.intake with
            store := (node.intake.store.updateStatus id status error node.env.now).2 } }
  | evict (node : Node) :
      Step node .eviction
        { node with intake := { node.intake with
            store := (node.intake.store.evict node.env.now).2 } }
  | observe (node : Node) (observer : Observer) :
      Step node .other
        { node with intake := { node.intake with
            observers := node.intake.observers ++ [observer] } }
  /-- Subscriptions are opened, read from or ended. -/
  | subscriptions (node : Node) (subscriptions : List Subscription)
      (hevents : ∀ subscription ∈ subscriptions, ∀ event ∈ subscription.events,
        ∃ held ∈ node.intake.subscriptions, event ∈ held.events) :
      Step node .other
        { node with intake := { node.intake with subscriptions := subscriptions } }
  | start (node : Node) : Step node .other { node with startups := .entering :: node.startups }
  | startup (node : Node) (before : List Startup) (call : Startup) (later : List Startup)
      (env : Environment) (coordinator : Coordinator) (next : Startup ⊕ Except Error Unit)
      (hcalls : node.startups = before ++ call :: later)
      (hstep : call.step (node.env, node.coordinator) = some ((env, coordinator), next)) :
      Step node .other
        { node with
          env := env, coordinator := coordinator
          startups := before ++ next.getLeft?.toList ++ later }
  | stop (node : Node) : Step node .other { node with shutdowns := .cancelling :: node.shutdowns }
  | shutdown (node : Node) (before : List Shutdown) (call : Shutdown) (later : List Shutdown)
      (env : Environment) (coordinator : Coordinator) (next : Shutdown ⊕ Except Error Unit)
      (hcalls : node.shutdowns = before ++ call :: later)
      (hstep : call.step (node.env, node.coordinator) = some ((env, coordinator), next)) :
      Step node .other
        { node with
          env := env, coordinator := coordinator
          shutdowns := before ++ next.getLeft?.toList ++ later }

/-- The node at another time. -/
def atTime (node : Node) (now : Clock.Instant) : Node :=
  { node with env := { node.env with now := now } }

/-- Time may pass. -/
theorem step_at_time (node : Node) (now : Clock.Instant) : Step node .other (node.atTime now) :=
  .surroundings node { node.env with now := now } fun _ h => h

/-- Steps one after another, with what they are about. -/
inductive Path : Node → List Label → Node → Prop where
  | refl (node : Node) : Path node [] node
  | step (node : Node) (labels : List Label) (middle : Node) (label : Label) (after : Node)
      (hpath : Path node labels middle) (hstep : Step middle label after) :
      Path node (labels ++ [label]) after

/-- A path goes on with another one. -/
theorem Path.append {node middle after : Node} {left right : List Label}
    (hleft : Path node left middle) (hright : Path middle right after) :
    Path node (left ++ right) after := by
  induction hright with
  | refl => rwa [List.append_nil]
  | step labels middle label after _ hstep ih =>
      rw [← List.append_assoc]
      exact .step _ _ _ _ _ ih hstep

/-- A coordinator takes its errands on in single steps. -/
theorem advance_errands_path (node : Node) :
    ∃ labels, Path node labels
      { node with
        coordinator := (node.coordinator.advanceErrands node.env node.intake).1
        env := (node.coordinator.advanceErrands node.env node.intake).2.1
        intake := (node.coordinator.advanceErrands node.env node.intake).2.2.1 } := by
  refine Activity.run_all_keeps
    (motive := fun state errands => ∃ labels, Path node labels
      { node.withErrands errands with env := state.1, intake := state.2 })
    ?_ (node.env, node.intake) [] node.coordinator.errands ⟨[], .refl node⟩
  intro state before errand later after next hpath hnext
  obtain ⟨labels, hpath⟩ := hpath
  exact ⟨_, .step _ _ _ _ _ hpath (.query _ before errand later _ _ _ rfl hnext)⟩

/-- A step of a sweeper begins no queries, or one for every mechanism because its wait ended by a
tick that was due. -/
theorem sweeper_step_cases {schedule : Schedule} {moment : Moment} {errands after : List Errand}
    {sweeper : Sweeper} {next : Option Sweeper}
    (hstep : Sweeper.step schedule moment errands sweeper = some (after, next)) :
    ∃ begun, after = errands ++ begun ∧
      (begun = [] ∨ begun = sweeper.members.map (Errand.ofMember schedule) ∧
        moment.stops true = false ∧
        ∃ ticker, sweeper.loop = .waiting ticker ∧ ticker.due ≤ moment.now) := by
  unfold Sweeper.step at hstep
  cases hloop : sweeper.loop with
  | ready =>
      simp only [hloop] at hstep
      split at hstep <;> cases hstep <;> exact ⟨[], (List.append_nil _).symm, .inl rfl⟩
  | waiting ticker =>
      simp only [hloop] at hstep
      split at hstep
      · cases hstep
        exact ⟨[], (List.append_nil _).symm, .inl rfl⟩
      · rename_i hstops
        obtain ⟨fired, hfired, heq⟩ := Option.map_eq_some_iff.1 hstep
        cases heq
        rw [hfired] at hstops
        refine ⟨_, rfl, .inr ⟨rfl, Bool.eq_false_iff.2 hstops, ticker, rfl, ?_⟩⟩
        by_cases hdue : ticker.due ≤ moment.now
        · exact hdue
        · rw [Ticker.fire?, if_neg hdue] at hfired
          cases hfired

/-- A turn of an activity is a path if each of its steps is one step of the node. -/
theorem run_option_path {σ α : Type} {step : Activity.Step σ α} (place : σ → Option α → Node)
    (hstep : ∀ state activity after next, step state activity = some (after, next) →
      ∃ label, Step (place state (some activity)) label (place after next))
    (state : σ) (activity : Option α) :
    ∃ labels, Path (place state activity) labels
      (place (Activity.runOption step state activity).1
        (Activity.runOption step state activity).2.1) := by
  refine Activity.run_option_keeps
    (motive := fun reached next => ∃ labels, Path (place state activity) labels
      (place reached next)) ?_ state activity ⟨[], .refl _⟩
  intro reached activity after next hpath hnext
  obtain ⟨labels, hpath⟩ := hpath
  obtain ⟨label, htaken⟩ := hstep reached activity after next hnext
  exact ⟨_, .step _ _ _ _ _ hpath htaken⟩

/-- The node with its sweeper and its errands further on. -/
def withSweeper (node : Node) (errands : List Errand) (sweeper : Option Sweeper) : Node :=
  { node with coordinator := { node.coordinator with errands := errands, sweeper := sweeper } }

/-- The node with its evictor and its store further on. -/
def withEvictor (node : Node) (store : Noted PeerStore) (evictor : Option Evictor) : Node :=
  { node.withStore store with coordinator := { node.coordinator with evictor := evictor } }

/-- The node with its reporter and its store further on. -/
def withReporter (node : Node) (store : Noted PeerStore) (reporter : Option Reporter) : Node :=
  { node.withStore store with coordinator := { node.coordinator with reporter := reporter } }

/-- The sweeper has its turn in single steps. -/
theorem run_sweeper_path (node : Node) :
    ∃ labels, Path node labels (node.withSweeper
      (Activity.runOption (Sweeper.step node.coordinator.schedule (node.moment true))
        node.coordinator.errands node.coordinator.sweeper).1
      (Activity.runOption (Sweeper.step node.coordinator.schedule (node.moment true))
        node.coordinator.errands node.coordinator.sweeper).2.1) := by
  refine run_option_path node.withSweeper ?_ _ _
  intro errands sweeper after next hnext
  obtain ⟨begun, rfl, -⟩ := sweeper_step_cases hnext
  exact ⟨_, .sweep _ true sweeper begun next rfl hnext⟩

/-- The evictor has its turn in single steps. -/
theorem run_evictor_path (node : Node) :
    ∃ labels, Path node labels (node.withEvictor
      (Activity.runOption (Evictor.step (node.moment true)) node.store
        node.coordinator.evictor).1
      (Activity.runOption (Evictor.step (node.moment true)) node.store
        node.coordinator.evictor).2.1) := by
  refine run_option_path node.withEvictor ?_ node.store _
  intro store evictor after next hnext
  exact ⟨_, .evictor _ true evictor after next rfl hnext⟩

/-- The reporter has its turn in single steps. -/
theorem run_reporter_path (node : Node) :
    ∃ labels, Path node labels (node.withReporter
      (Activity.runOption (Reporter.step node.coordinator.schedule (node.moment true)) node.store
        node.coordinator.reporter).1
      (Activity.runOption (Reporter.step node.coordinator.schedule (node.moment true)) node.store
        node.coordinator.reporter).2.1) := by
  refine run_option_path node.withReporter ?_ node.store _
  intro store reporter after next hnext
  exact ⟨_, .reporter _ true reporter after next rfl hnext⟩

/-- A coordinator takes its loops on in single steps. -/
theorem advance_loops_path (node : Node) :
    ∃ labels, Path node labels
      { node with
        coordinator := (node.coordinator.advanceLoops node.env node.intake).1
        env := (node.coordinator.advanceLoops node.env node.intake).2.1
        intake := (node.coordinator.advanceLoops node.env node.intake).2.2.1 } := by
  obtain ⟨swept, hsweeper⟩ := run_sweeper_path node
  obtain ⟨evicted, hevictor⟩ := run_evictor_path (node.withSweeper _ _)
  obtain ⟨reported, hreporter⟩ := run_reporter_path ((node.withSweeper _ _).withEvictor _ _)
  exact ⟨_, (hsweeper.append hevictor).append hreporter⟩

/-- The identity of a node. -/
def ownId : PeerId :=
  ⟨List.replicate 32 0, rfl, by decide +kernel⟩

/-- The identity of a peer. -/
def peerId : PeerId :=
  ⟨1 :: List.replicate 31 0, rfl, by decide +kernel⟩

/-- A sighting of the peer, without addresses. -/
def peer : Sighting :=
  .ofInfo ⟨peerId, ∅⟩

/-- A node that was not started, with one observer and one mechanism, which finds the peer. -/
def fresh : Node where
  env :=
    { tree := ⟨[], 1⟩
      transport := { localId := ownId }
      mechanisms := [.scripted { name := "canned", answers := [{ peers := [peer] }] }] }
  intake := { localId := ownId, observers := [.recorder "observer"] }
  coordinator := { members := [⟨0, "canned"⟩], scope := [0] }

end Node

end Coordinator

end PeerFinder
