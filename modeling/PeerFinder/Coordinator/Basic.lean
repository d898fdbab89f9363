import PeerFinder.Coordinator.Loops
import PeerFinder.Evictor

/-!
# The coordinator

A coordinator starts mechanisms, queries them on a schedule, and keeps the store in order. A start
and a stop are calls with points at which other work may go on; a start holds a lock from its check
to its end, and a stop waits for it.
-/

namespace PeerFinder

/-- The state of a coordinator. -/
structure Coordinator where
  schedule : Coordinator.Schedule := {}
  members : List Coordinator.Member := []
  /-- What all its work is under. -/
  scope : Token
  /-- The mechanisms that started. -/
  active : List Coordinator.Member := []
  /-- Whether the loops were begun and not ended by a stop. -/
  runs : Bool := false
  /-- Whether a start is under way. -/
  starting : Bool := false
  sweeper : Option Coordinator.Sweeper := none
  evictor : Option Evictor := none
  reporter : Option Coordinator.Reporter := none
  errands : List Coordinator.Errand := []

namespace Coordinator

/-- The points of a start. -/
inductive Startup where
  /-- It waits for the lock. -/
  | entering
  /-- These mechanisms are still to be started, and those have started. -/
  | starting (rest started : List Member)
deriving DecidableEq, Repr

/-- The points of a stop. -/
inductive Shutdown where
  /-- It has not begun. -/
  | cancelling
  /-- It waits for the lock. -/
  | entering
  /-- These mechanisms are still to be stopped, and those errors came up, in order. -/
  | stopping (rest : List Member) (errors : List String)
deriving DecidableEq, Repr

/-- A coordinator with the loops begun for the mechanisms that started. -/
def begin (coordinator : Coordinator) (started : List Member) : Coordinator :=
  { coordinator with
    active := started
    runs := true
    starting := false
    sweeper := some { members := started }
    evictor := some .ready
    reporter := some {} }

/-- A coordinator with its loops ended. -/
def endLoops (coordinator : Coordinator) : Coordinator :=
  { coordinator with runs := false, sweeper := none, evictor := none, reporter := none }

/-- A step of a start. Only the first start has an effect, and none has one after a stop. -/
def Startup.step :
    Activity.CallStep (Environment × Coordinator) Startup (Except Error Unit) :=
  fun (env, coordinator) call =>
    match call with
    | .entering =>
        if coordinator.starting then none
        else if coordinator.runs then some ((env, coordinator), .inr (.ok ()))
        else if env.tree.isCancelled coordinator.scope then
          some ((env, coordinator), .inr (.error (.shutdown ["coordinator already stopped"])))
        else
          some ((env, { coordinator with starting := true }),
            .inl (.starting coordinator.members []))
    | .starting (member :: rest) started =>
        let (result, env) := env.start member.place coordinator.scope
        let started := if result.isOk then started ++ [member] else started
        some ((env, coordinator), .inl (.starting rest started))
    | .starting [] started => some ((env, coordinator.begin started), .inr (.ok ()))

/-- The outcome of a stop with the errors that came up. -/
def stopResult : List String → Except Error Unit
  | [] => .ok ()
  | errors => .error (.shutdown errors)

/-- The error of a mechanism that did not stop cleanly, with its name. -/
def stopError? (member : Member) : Except Error Unit → Option String
  | .ok () => none
  | .error error => some s!"{member.name}: {error.message}"

/-- A step of a stop: all work is cancelled, the loops are ended, and then every mechanism is
stopped. -/
def Shutdown.step :
    Activity.CallStep (Environment × Coordinator) Shutdown (Except Error Unit) :=
  fun (env, coordinator) call =>
    match call with
    | .cancelling => some ((env.cancel coordinator.scope, coordinator), .inl .entering)
    | .entering =>
        if coordinator.starting then none
        else some ((env, coordinator.endLoops), .inl (.stopping coordinator.members []))
    | .stopping (member :: rest) errors =>
        let (result, env) := env.stop member.place
        some ((env, coordinator),
          .inl (.stopping rest (errors ++ (stopError? member result).toList)))
    | .stopping [] errors =>
        some ((env, { coordinator with active := [] }), .inr (stopResult errors))

/-- Take the loops on, and tell whether any moved. -/
def advanceLoops (coordinator : Coordinator) (env : Environment) (intake : Intake) :
    Coordinator × Environment × Intake × Bool :=
  let moment := env.moment coordinator.scope
  let (errands, sweeper, swept) :=
    Activity.runOption (Sweeper.step coordinator.schedule moment) coordinator.errands
      coordinator.sweeper
  let store : Noted PeerStore := ⟨intake.store, env.journal⟩
  let (store, evictor, evicted) :=
    Activity.runOption (Evictor.step moment) store coordinator.evictor
  let (store, reporter, reported) :=
    Activity.runOption (Reporter.step coordinator.schedule moment) store coordinator.reporter
  ({ coordinator with
      errands := errands, sweeper := sweeper, evictor := evictor, reporter := reporter },
    { env with journal := store.journal }, { intake with store := store.state },
    swept || evicted || reported)

/-- Take the errands on, and tell whether any moved. -/
def advanceErrands (coordinator : Coordinator) (env : Environment) (intake : Intake) :
    Coordinator × Environment × Intake × Bool :=
  let ((env, intake), errands, moved) :=
    Activity.runAll (Errand.step coordinator.scope) (env, intake) coordinator.errands
  ({ coordinator with errands := errands }, env, intake, moved)

/-- When a coordinator may go on by itself. -/
def wakes (coordinator : Coordinator) (env : Environment) : List Clock.Instant :=
  (coordinator.sweeper.bind (·.loop.wake)).toList
    ++ (coordinator.evictor.bind Evictor.wake).toList
    ++ (coordinator.reporter.bind (·.loop.wake)).toList
    ++ coordinator.errands.filterMap fun errand => errand.wake env

end Coordinator

end PeerFinder
