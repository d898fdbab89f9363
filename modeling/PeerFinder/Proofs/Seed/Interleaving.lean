import Mathlib.Tactic.SplitIfs
import PeerFinder.Proofs.Activity
import PeerFinder.Seed.Service

/-!
# Interleavings of the seeds

Sweeps, dials and supervisors of seeds go on in single steps, in any order, while seeds are added,
time passes, links are lost, peers become reachable or not, and a stop may come. `Dial.Moves` and
`Supervisor.Moves` list what one step of a dial or of a supervisor can do to the flags. `Scene.Step`
lists the steps of the whole mechanism and `Scene.Path` strings them together; the order in which the
mechanism takes its own work on is one of them (`Scene.sweep_path`, `Scene.advance_path`).
-/

namespace PeerFinder

namespace Seed

namespace Dial

/-- How many steps a dial takes at most until it ends. -/
def stepsLeft (policy : Policy) (dial : Dial) : Nat :=
  match dial.point with
  | .ready attempt _ => 3 * (policy.attempts + 1 - attempt) + 3
  | .trying attempt _ _ => 3 * (policy.attempts + 1 - attempt) + 2
  | .resting attempt _ _ => 3 * max (policy.attempts + 1 - attempt) 1 + 1
  | .ending _ => 1

/-- Whether a connect of a dial is in flight. -/
def isConnecting (dial : Dial) : Bool :=
  match dial.point with
  | .trying .. => true
  | .ready .. | .resting .. | .ending _ => false

/-- What one step of a dial can do. -/
inductive Moves (policy : Policy) (dial : Dial) (board : Board) : Board → Option Dial → Prop where
  /-- The dial goes on and leaves the flags alone. -/
  | went (transport : Transport) (point : Point)
      (hleft : stepsLeft policy { dial with point := point } < stepsLeft policy dial) :
      Moves policy dial board { board with transport := transport } (some { dial with point := point })
  /-- The dial ends and settles the flags of its seed. -/
  | settled (connected : Bool) (after : Board) (hpoint : dial.point = .ending connected)
      (hafter : after = settle dial.seed connected board) : Moves policy dial board after none

section Settle

variable (seed : Seed) (connected : Bool) (board : Board) (other : PeerId)

/-- A dial that ends releases its seed. -/
@[simp]
theorem mem_dialing_settle :
    other ∈ (settle seed connected board).flags.dialing ↔
      seed.id ≠ other ∧ other ∈ board.flags.dialing := by
  simp only [settle]
  split_ifs <;> simp [Board.mapFlags, Flags.release, Flags.connect, Flags.supervise]

/-- A dial that connected flags its seed. -/
@[simp]
theorem mem_connected_settle :
    other ∈ (settle seed connected board).flags.connected ↔
      connected = true ∧ seed.id = other ∨ other ∈ board.flags.connected := by
  simp only [settle]
  split_ifs with hconnected <;>
    simp [Board.mapFlags, Flags.release, Flags.connect, Flags.supervise, hconnected]

/-- A dial that connected puts its seed under supervision. -/
@[simp]
theorem mem_supervised_settle :
    other ∈ (settle seed connected board).flags.supervised ↔
      connected = true ∧ seed.id = other ∨ other ∈ board.flags.supervised := by
  simp only [settle]
  split_ifs with hconnected hsupervised
  · rw [Board.mapFlags, Flags.connect, Board.mapFlags, Flags.release] at hsupervised
    simp only [Board.mapFlags, Flags.connect, Flags.release, hconnected, true_and]
    refine ⟨.inr, fun h => h.elim (fun heq => ?_) (fun hmem => hmem)⟩
    exact heq ▸ hsupervised
  · simp [Board.mapFlags, Flags.release, Flags.connect, Flags.supervise, hconnected]
  · simp [Board.mapFlags, Flags.release, hconnected]

/-- A dial that connected calls for a supervisor unless its seed has one. -/
theorem recruits_settle :
    (settle seed connected board).recruits = board.recruits ++
      if connected = true ∧ seed.id ∉ board.flags.supervised then [Supervisor.ofSeed seed]
      else [] := by
  simp only [settle]
  split_ifs <;>
    simp_all [Board.mapFlags, Flags.release, Flags.connect]

end Settle

/-- A dial that goes on after a try has fewer steps left than during the try. -/
theorem steps_left_after_try (policy : Policy) (moment : Moment) (seed : Seed) (attempt : Nat)
    (backoff : Clock.Span) (outcome : Except Error Unit) :
    stepsLeft policy ⟨seed, afterTry policy moment attempt backoff outcome⟩ <
      3 * (policy.attempts + 1 - attempt) + 2 := by
  cases outcome with
  | ok => simp only [afterTry, stepsLeft]; omega
  | error error =>
      simp only [afterTry]
      split_ifs <;> simp only [stepsLeft] <;> omega

/-- The steps of a dial do what `Moves` lists. -/
theorem step_moves {policy : Policy} {moment : Moment} {board after : Noted Board} {dial : Dial}
    {next : Option Dial} (hstep : step policy moment board dial = some (after, next)) :
    Moves policy dial board.state after.state next := by
  obtain ⟨seed, point⟩ := dial
  cases point with
  | ready attempt backoff =>
      have hconclude := steps_left_after_try policy moment seed attempt backoff (.error shuttingDown)
      simp only [step, goTo, conclude] at hstep
      split_ifs at hstep <;> cases hstep <;>
        refine .went _ _ ?_ <;> simp only [stepsLeft] at hconclude ⊢ <;> omega
  | trying attempt backoff call =>
      simp only [step, goTo, conclude, Option.map_eq_some_iff] at hstep
      obtain ⟨⟨outcome, transport⟩, -, heq⟩ := hstep
      cases heq
      exact .went _ _ (steps_left_after_try policy moment seed attempt backoff outcome)
  | resting attempt backoff resume =>
      simp only [step, goTo] at hstep
      split_ifs at hstep <;> cases hstep <;>
        refine .went _ _ ?_ <;> simp only [stepsLeft] <;> omega
  | ending connected =>
      cases hstep
      exact .settled connected _ rfl rfl

end Dial

namespace Supervisor

/-- How many steps a supervisor takes at most until it no longer owns the dialing flag of its seed;
none if it does not own it. -/
def Point.stepsLeft : Point → Nat
  | .claimed _ => 3
  | .redialing .. => 2
  | .redialed .. => 1
  | .ready | .waiting _ | .looked .. | .ending => 0

/-- Whether a supervisor owns the dialing flag of its seed. -/
def Point.owns (point : Point) : Bool :=
  decide (0 < point.stepsLeft)

/-- Whether a connect of a supervisor is in flight. -/
def Point.isConnecting : Point → Bool
  | .redialing .. => true
  | .ready | .waiting _ | .looked .. | .claimed _ | .redialed .. | .ending => false

/-- What one step of a supervisor can do. -/
inductive Moves (policy : Policy) (moment : Moment) (supervisor : Supervisor) (board : Board) :
    Board → Option Supervisor → Prop where
  /-- Its interval is zero and it does not begin. -/
  | unfit (hpoint : supervisor.point = .ready) (hinterval : policy.superviseInterval = 0) :
      Moves policy moment supervisor board board none
  /-- It goes on without the flags and does not own more or less than before. -/
  | went (transport : Transport) (point : Point) (howns : point.owns = supervisor.point.owns)
      (hleft : point.stepsLeft < supervisor.point.stepsLeft ∨ supervisor.point.stepsLeft = 0)
      (hending : point = .ending → moment.stopping = true) :
      Moves policy moment supervisor board { board with transport := transport }
        (some { supervisor with point := point })
  /-- It has seen that its seed is connected. -/
  | kept (ticker : Ticker) (hpoint : supervisor.point = .looked ticker true) :
      Moves policy moment supervisor board (board.mapFlags (·.connect supervisor.seed.id))
        (some { supervisor with point := .waiting ticker })
  /-- It has seen that its seed is not connected, and leaves it to a dial. -/
  | yielded (ticker : Ticker) (hpoint : supervisor.point = .looked ticker false)
      (hdialing : supervisor.seed.id ∈ board.flags.dialing) :
      Moves policy moment supervisor board (board.mapFlags (·.lose supervisor.seed.id))
        (some { supervisor with point := .waiting ticker })
  /-- It has seen that its seed is not connected, and claims it. -/
  | claimed (ticker : Ticker) (hpoint : supervisor.point = .looked ticker false)
      (hfree : supervisor.seed.id ∉ board.flags.dialing) :
      Moves policy moment supervisor board
        (board.mapFlags fun flags => (flags.lose supervisor.seed.id).claim supervisor.seed.id)
        (some { supervisor with point := .claimed ticker })
  /-- Its reconnect succeeded. -/
  | reconnected (ticker : Ticker) (outcome : Except Error Unit)
      (hpoint : supervisor.point = .redialed ticker outcome) :
      Moves policy moment supervisor board
        (board.mapFlags fun flags => (flags.release supervisor.seed.id).connect supervisor.seed.id)
        (some { supervisor with point := .waiting ticker })
  /-- Its reconnect failed. -/
  | failed (ticker : Ticker) (outcome : Except Error Unit)
      (hpoint : supervisor.point = .redialed ticker outcome) :
      Moves policy moment supervisor board (board.mapFlags (·.release supervisor.seed.id))
        (some { supervisor with point := .waiting ticker })
  /-- It ends after a stop. -/
  | ended (hpoint : supervisor.point = .ending) :
      Moves policy moment supervisor board (board.mapFlags (·.dismiss supervisor.seed.id)) none

/-- Acting on a look at the connection is a move. -/
theorem look_moves (policy : Policy) (moment : Moment) (seed : Seed) (ticker : Ticker)
    (connected : Bool) (board : Noted Board) :
    Moves policy moment ⟨seed, .looked ticker connected⟩ board.state
      (look ⟨seed, .looked ticker connected⟩ ticker connected moment.now board).1.state
      (look ⟨seed, .looked ticker connected⟩ ticker connected moment.now board).2 := by
  cases connected with
  | true => exact .kept ticker rfl
  | false =>
      -- The notice of a lost connection does not change the flags.
      have hnoted : (if board.state.flags.connected.contains seed.id
          then board.note moment.now (.seedLost seed.id) else board).state = board.state := by
        split <;> rfl
      by_cases hdialing : board.state.flags.dialing.contains seed.id = true
      · simp only [look, Bool.false_eq_true, if_false, hdialing, if_true, Noted.modify, hnoted, goTo]
        exact .yielded ticker rfl hdialing
      · simp only [look, Bool.false_eq_true, if_false, hdialing, Noted.modify, hnoted, goTo]
        exact .claimed ticker rfl hdialing

/-- The steps of a supervisor do what `Moves` lists. -/
theorem step_moves {policy : Policy} {moment : Moment} {board after : Noted Board}
    {supervisor : Supervisor} {next : Option Supervisor}
    (hstep : step policy moment board supervisor = some (after, next)) :
    Moves policy moment supervisor board.state after.state next := by
  obtain ⟨seed, point⟩ := supervisor
  cases point with
  | ready =>
      simp only [step, goTo] at hstep
      split_ifs at hstep with hinterval <;> cases hstep
      · exact .unfit rfl hinterval
      · exact .went _ _ rfl (.inr rfl) (fun h => by cases h)
  | waiting ticker =>
      simp only [step, goTo] at hstep
      split_ifs at hstep with hstops
      · cases hstep
        exact .went _ _ rfl (.inr rfl) (fun _ => (Bool.and_eq_true_iff.1 hstops).1)
      · obtain ⟨fired, -, heq⟩ := Option.map_eq_some_iff.1 hstep
        cases heq
        exact .went _ _ rfl (.inr rfl) (fun h => by cases h)
  | looked ticker connected =>
      have hmoves := look_moves policy moment seed ticker connected board
      rwa [Option.some.inj hstep] at hmoves
  | claimed ticker =>
      simp only [step, goTo] at hstep
      split_ifs at hstep <;> cases hstep <;>
        exact .went _ _ rfl (.inl (by simp [Point.stepsLeft])) (fun h => by cases h)
  | redialing ticker call =>
      simp only [step, goTo, Option.map_eq_some_iff] at hstep
      obtain ⟨⟨outcome, transport⟩, -, heq⟩ := hstep
      cases heq
      exact .went _ _ rfl (.inl (by simp [Point.stepsLeft])) (fun h => by cases h)
  | redialed ticker outcome =>
      cases outcome with
      | ok =>
          cases hstep
          exact .reconnected ticker _ rfl
      | error error =>
          cases hstep
          exact .failed ticker _ rfl
  | ending =>
      cases hstep
      exact .ended rfl

end Supervisor

/-- The points of a sweep. -/
inductive Sweep where
  /-- It has found that the mechanism is not stopped, and is about to read the list of seeds. -/
  | reading
  /-- These seeds are still to be looked at. -/
  | looking (rest : List Seed)

namespace Sweep

/-- A step of a sweep. -/
def step : Activity.Step Service Sweep := fun service sweep =>
  match sweep with
  | .reading => some (service, some (.looking service.seeds))
  | .looking [] => some (service, none)
  | .looking (seed :: rest) => some (service.sweepSeed seed, some (.looking rest))

/-- What one step of a sweep can do. -/
inductive Moves (service : Service) : Sweep → Service → Option Sweep → Prop where
  | read : Moves service .reading service (some (.looking service.seeds))
  | finished : Moves service (.looking []) service none
  /-- It passes a seed that is connected or being dialed. -/
  | passed (seed : Seed) (rest : List Seed) :
      Moves service (.looking (seed :: rest)) service (some (.looking rest))
  /-- It claims a seed and begins to dial it. -/
  | dialed (seed : Seed) (rest : List Seed) (hfree : seed.id ∉ service.flags.dialing) :
      Moves service (.looking (seed :: rest))
        { service with
          flags := service.flags.claim seed.id
          dials := service.dials ++ [Dial.ofSeed service.policy seed] }
        (some (.looking rest))

/-- The steps of a sweep do what `Moves` lists. -/
theorem step_moves {service after : Service} {sweep : Sweep} {next : Option Sweep}
    (hstep : sweep.step service = some (after, next)) : Moves service sweep after next := by
  cases sweep with
  | reading =>
      cases hstep
      exact .read
  | looking rest =>
      cases rest with
      | nil =>
          cases hstep
          exact .finished
      | cons seed rest =>
          simp only [step, Service.sweepSeed] at hstep
          split_ifs at hstep with hflagged <;> cases hstep
          · exact .passed seed rest
          · have hfree : service.flags.dialing.contains seed.id ≠ true := by simp_all
            exact .dialed seed rest hfree

end Sweep

/-- The mechanism of the seeds among its surroundings, with the sweeps of starts and queries that are
under way. -/
structure Scene where
  service : Service
  transport : Transport
  journal : Journal := []
  now : Clock.Instant := 0
  /-- Whether the mechanism was stopped. -/
  stopping : Bool := false
  sweeps : List Sweep := []

namespace Scene

/-- A new mechanism for a list of seeds. -/
def initial (seeds : List Seed) (policy : Policy) (shutdown : Token) (transport : Transport) :
    Scene where
  service := { Service.ofSeeds seeds shutdown with policy := policy }
  transport := transport

/-- What dials and supervisors share, with supervisors that were called for. -/
def board (scene : Scene) (recruits : List Supervisor) : Noted Board :=
  ⟨⟨scene.transport, scene.service.flags, recruits⟩, scene.journal⟩

/-- The scene with its dials and supervisors further on. -/
def withWork (scene : Scene) (board : Noted Board) (dials : List Dial)
    (supervisors : List Supervisor) : Scene :=
  { scene with
    service := { scene.service with
      flags := board.state.flags, dials := dials, supervisors := supervisors }
    transport := board.state.transport
    journal := board.journal }

/-- What a step is about. -/
inductive Label where
  /-- A seed is given to the mechanism. -/
  | added (seed : Seed)
  /-- Something else happens. -/
  | other

/-- The seed that a step gives to the mechanism. -/
def Label.added? : Label → Option Seed
  | .added seed => some seed
  | .other => none

/-- The single steps of the mechanism. -/
inductive Step : Scene → Label → Scene → Prop where
  /-- Time passes, links are lost, peers become reachable or not. -/
  | surroundings (scene : Scene) (now : Clock.Instant) (transport : Transport)
      (journal : Journal) :
      Step scene .other { scene with now := now, transport := transport, journal := journal }
  | stop (scene : Scene) : Step scene .other { scene with stopping := true }
  | add (scene : Scene) (seed : Seed) :
      Step scene (.added seed) { scene with service := (scene.service.addSeed seed).2 }
  /-- A start or a query begins to sweep. -/
  | begin (scene : Scene) (hstopping : scene.stopping = false) :
      Step scene .other { scene with sweeps := .reading :: scene.sweeps }
  | sweep (scene : Scene) (before : List Sweep) (sweep : Sweep) (later : List Sweep)
      (service : Service) (next : Option Sweep)
      (hsweeps : scene.sweeps = before ++ sweep :: later)
      (hstep : sweep.step scene.service = some (service, next)) :
      Step scene .other
        { scene with service := service, sweeps := before ++ next.toList ++ later }
  /-- A query is given up, and its sweep with it. -/
  | abandon (scene : Scene) (before : List Sweep) (sweep : Sweep) (later : List Sweep)
      (hsweeps : scene.sweeps = before ++ sweep :: later) :
      Step scene .other { scene with sweeps := before ++ later }
  /-- A dial goes on; the supervisor it calls for begins behind the others. -/
  | dial (scene : Scene) (moment : Moment) (before : List Dial) (dial : Dial) (later : List Dial)
      (watching recruits : List Supervisor) (board : Noted Board) (next : Option Dial)
      (hnow : moment.now = scene.now) (hstopping : moment.stopping = scene.stopping)
      (hdials : scene.service.dials = before ++ dial :: later)
      (hsupervisors : scene.service.supervisors = watching ++ recruits)
      (hstep : dial.step scene.service.policy moment (scene.board recruits) = some (board, next)) :
      Step scene .other
        (scene.withWork board (before ++ next.toList ++ later) (watching ++ board.state.recruits))
  | supervisor (scene : Scene) (moment : Moment) (before : List Supervisor)
      (supervisor : Supervisor) (later recruits : List Supervisor) (board : Noted Board)
      (next : Option Supervisor)
      (hnow : moment.now = scene.now) (hstopping : moment.stopping = scene.stopping)
      (hsupervisors : scene.service.supervisors = before ++ supervisor :: later)
      (hstep : supervisor.step scene.service.policy moment (scene.board recruits) =
        some (board, next)) :
      Step scene .other
        (scene.withWork board scene.service.dials (before ++ next.toList ++ later))

/-- Steps one after another, with what they are about. -/
inductive Path : Scene → List Label → Scene → Prop where
  | refl (scene : Scene) : Path scene [] scene
  | step (scene : Scene) (labels : List Label) (middle : Scene) (label : Label) (after : Scene)
      (hpath : Path scene labels middle) (hstep : Step middle label after) :
      Path scene (labels ++ [label]) after

/-- A sweep that has read the list of seeds looks at each of them. -/
theorem looking_path (scene : Scene) (origin : Scene) (seeds : List Seed) (labels : List Label)
    (hpath : Path origin labels { scene with sweeps := .looking seeds :: scene.sweeps }) :
    ∃ labels, Path origin labels
      { scene with service := seeds.foldl Service.sweepSeed scene.service } := by
  induction seeds generalizing scene labels with
  | nil => exact ⟨_, .step _ _ _ _ _ hpath (.sweep _ [] (.looking []) scene.sweeps _ _ rfl rfl)⟩
  | cons seed rest ih =>
      exact ih { scene with service := scene.service.sweepSeed seed } _
        (.step _ _ _ _ _ hpath (.sweep _ [] (.looking (seed :: rest)) scene.sweeps _ _ rfl rfl))

/-- A start or a query sweeps in single steps. -/
theorem sweep_path (scene : Scene) :
    ∃ labels, Path scene labels { scene with service := scene.service.sweep scene.stopping } := by
  cases hstopping : scene.stopping with
  | true =>
      rw [Service.sweep, if_pos rfl, ← hstopping]
      exact ⟨[], .refl scene⟩
  | false =>
      have hbegun := Path.step _ _ _ _ _ (.refl scene) (.begin scene hstopping)
      have hread := Path.step _ _ _ _ _ hbegun (.sweep _ [] .reading scene.sweeps _ _ rfl rfl)
      rw [Service.sweep, if_neg Bool.false_ne_true, ← hstopping]
      exact looking_path scene scene scene.service.seeds _ hread

/-- What every step of a dial or a supervisor keeps holds when the mechanism took its dials and then
its supervisors on. -/
theorem advance_keeps {motive : Scene → Prop} (scene : Scene) (moment : Moment)
    (hstart : motive scene)
    (hdial : ∀ board before dial later after next,
      motive (scene.withWork board (before ++ dial :: later)
        (scene.service.supervisors ++ board.state.recruits)) →
      Dial.step scene.service.policy moment board dial = some (after, next) →
      motive (scene.withWork after (before ++ next.toList ++ later)
        (scene.service.supervisors ++ after.state.recruits)))
    (hsupervisor : ∀ board dials before supervisor later after next,
      motive (scene.withWork board dials (before ++ supervisor :: later)) →
      Supervisor.step scene.service.policy moment board supervisor = some (after, next) →
      motive (scene.withWork after dials (before ++ next.toList ++ later))) :
    motive { scene with
      service := (scene.service.advance moment ⟨scene.transport, scene.journal⟩).1.state.1
      transport := (scene.service.advance moment ⟨scene.transport, scene.journal⟩).1.state.2
      journal := (scene.service.advance moment ⟨scene.transport, scene.journal⟩).1.journal } := by
  have hdials := @Activity.run_all_keeps _ _ (Dial.step scene.service.policy moment)
    (fun board dials => motive
      (scene.withWork board dials (scene.service.supervisors ++ board.state.recruits)))
    hdial (scene.board []) [] scene.service.dials ?_
  · exact @Activity.run_all_keeps _ _ (Supervisor.step scene.service.policy moment)
      (fun board supervisors => motive (scene.withWork board _ supervisors))
      (fun board => hsupervisor board _) _ [] _ hdials
  · rwa [show scene.withWork (scene.board []) ([] ++ scene.service.dials)
      (scene.service.supervisors ++ (scene.board []).state.recruits) = scene by
        simp [withWork, board]]

/-- The mechanism takes its dials and then its supervisors on in single steps. -/
theorem advance_path (scene : Scene) (moment : Moment) (hnow : moment.now = scene.now)
    (hstopping : moment.stopping = scene.stopping) :
    ∃ labels, Path scene labels
      { scene with
        service :=
          (scene.service.advance moment ⟨scene.transport, scene.journal⟩).1.state.1
        transport :=
          (scene.service.advance moment ⟨scene.transport, scene.journal⟩).1.state.2
        journal := (scene.service.advance moment ⟨scene.transport, scene.journal⟩).1.journal } := by
  refine @advance_keeps (fun after => ∃ labels, Path scene labels after) scene moment
    ⟨[], .refl scene⟩ ?_ ?_
  · rintro board before dial later after next ⟨labels, hpath⟩ hnext
    exact ⟨_, .step _ _ _ _ _ hpath (.dial _ moment before dial later
      scene.service.supervisors board.state.recruits _ _ hnow hstopping rfl rfl hnext)⟩
  · rintro board dials before supervisor later after next ⟨labels, hpath⟩ hnext
    exact ⟨_, .step _ _ _ _ _ hpath (.supervisor _ moment before supervisor later
      board.state.recruits _ _ hnow hstopping rfl hnext)⟩

/-- The identity of a node. -/
def nodeId : PeerId :=
  ⟨3 :: List.replicate 31 0, rfl, by decide +kernel⟩

/-- A seed at `10.0.0.1:4001`. -/
def lone : Seed where
  id := ⟨4 :: List.replicate 31 0, rfl, by decide +kernel⟩
  address := .v4 ⟨10, 0, 0, 1⟩ 4001

/-- A new mechanism with that seed. -/
def fresh : Scene :=
  initial [lone] {} [0] { localId := nodeId }

end Scene

end Seed

end PeerFinder
