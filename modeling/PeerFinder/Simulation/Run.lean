import PeerFinder.Simulation.Begin

/-!
# Running a simulation

All work has its turn in rounds, until a round moves nothing. A command in the foreground then lets
the clock go on until it is answered, and afterwards everything that can go on at that instant does.
-/

namespace PeerFinder.Simulation

/-- The most rounds at one instant, and the most instants in one command, that are waited for. -/
def patience : Nat := Nat.pow 2 62

/-- Keep the answer of a call in the background until it is asked for. -/
def keepAnswer (sim : Simulation) (name : String) (answer : Answer) : Simulation :=
  { sim with ended := assign sim.ended name (sim.env.now, answer) }

/-- A step of what runs in the background. -/
def Background.step : Activity.Step Simulation Background := fun sim background =>
  let next? :=
    match background.job with
    | .inl command => some (sim.begin command)
    | .inr call => call.step sim
  next?.map fun (sim, next) =>
    match next with
    | .inl call => (sim, some { background with job := .inr call })
    | .inr answer => (sim.keepAnswer background.name answer, none)

/-- Take the calls in the background on, and tell whether any moved. -/
def advanceBackground (sim : Simulation) : Simulation × Bool :=
  let (after, background, moved) := Activity.runAll Background.step sim sim.background
  ({ after with background := background }, moved)

/-- Give all work a turn, and tell whether any moved. -/
def round (sim : Simulation) : Simulation × Bool :=
  let (env, mechanisms) := sim.env.advance
  let (sim, coordinator) := { sim with env := env }.advanceCoordinator
  let (sim, dials) := sim.advanceDials
  let (sim, background) := sim.advanceBackground
  (sim, mechanisms || coordinator || dials || background)

/-- Go on for at most so many rounds, until nothing moves. -/
def settleWithin : (rounds : Nat) → Simulation → Simulation
  | 0, sim => sim
  | rounds + 1, sim =>
      match sim.round with
      | (sim, true) => settleWithin rounds sim
      | (sim, false) => sim

/-- Go on until nothing moves. -/
def settle (sim : Simulation) : Simulation :=
  settleWithin patience sim

/-- The instants to come at which something in the simulation may go on by itself. -/
def wakes (sim : Simulation) : List Clock.Instant :=
  let background := sim.background.filterMap fun background =>
    match background.job with
    | .inl _ => none
    | .inr call => call.wake sim
  sim.env.wakes
    ++ (sim.coordinator.elim [] fun coordinator => coordinator.wakes sim.env)
    ++ sim.intake.dials.filterMap AutoConnect.wake
    ++ background

/-- The next instant at which the simulation or a call may go on by itself. -/
def nextWake? (sim : Simulation) (call : Call) : Option Clock.Instant :=
  (((call.wake sim).toList ++ sim.wakes).filter (sim.env.now < ·)).min?

/-- Wait for the answer of a call for at most so many instants. -/
def waitWithin : (instants : Nat) → Simulation → Call → Simulation × Answer
  | 0, sim, _ => (sim, .never)
  | instants + 1, sim, call =>
      let outcome := Activity.runCall Call.step patience sim call
      match outcome.call with
      | .inr answer => (outcome.state, answer)
      | .inl call =>
          let settled := outcome.state.settle
          let outcome := Activity.runCall Call.step patience settled call
          match outcome.call with
          | .inr answer => (outcome.state, answer)
          | .inl call =>
              let sim := outcome.state
              match sim.nextWake? call with
              | none => (sim, .never)
              | some wake =>
                  waitWithin instants { sim with env := { sim.env with now := wake } } call

/-- Carry a command out in the foreground. -/
def execute (sim : Simulation) (command : Command) : Simulation × Answer :=
  match sim.begin command with
  | (sim, .inr answer) => (sim, answer)
  | (sim, .inl call) => waitWithin patience sim call

/-- Begin a command in the background under a name. -/
def spawn (sim : Simulation) (name : String) (command : Command) : Simulation :=
  { sim with
    background := sim.background ++ [⟨name, .inl command⟩]
    ended := sim.ended.filter (·.1 ≠ name) }

/-- A step of a run: a command, and the name of the background call if it is to be one. -/
structure Step where
  command : Command
  background : Option String := none

/-- Carry a step out and let everything go on that can. The instant is the one of the answer. -/
def perform (sim : Simulation) (step : Step) : Simulation × (Clock.Instant × Answer) :=
  let (sim, answer) : Simulation × Answer :=
    match step.background with
    | some name => (sim.spawn name step.command, .spawned)
    | none => sim.execute step.command
  (sim.settle, (sim.env.now, answer))

/-- Carry steps out in order. -/
def performAll (sim : Simulation) : List Step → List (Clock.Instant × Answer)
  | [] => []
  | step :: rest =>
      let (sim, answer) := sim.perform step
      answer :: sim.performAll rest

end PeerFinder.Simulation
