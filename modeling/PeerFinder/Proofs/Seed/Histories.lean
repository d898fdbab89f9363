import PeerFinder.Proofs.Seed.Settling

/-!
# Runs of the seeds

What happens to the mechanism comes from outside, such as a start, a query or a lost connection, or
is work: a sweep, a dial or a supervisor goes on by a single step. Which of them goes on, and how a
wait ends that could end either way, is for the runtime to choose, and an `Event` says what it has
chosen. These are the steps of the mechanism (`Scene.Step.exists_event`,
`Scene.Happens.exists_step`), and nothing else is open: what happens decides where a run ends
(`Scene.Run.unique`).

The mechanism sweeps and takes its dials and supervisors on in one of the orders in which that work
can be done (`Scene.sweep_works`, `Scene.advance_works`). If nothing comes from outside, then all
work is done sooner or later (`Scene.exists_resting`). So there are runs in which inputs come only
where all work is done, whatever they are (`Scene.exists_settled`), and in these nothing is open but
which work goes on (`Scene.Settled.eq_of_follows`).
-/

namespace PeerFinder.Seed

/-- The seed that a sweep comes to next. -/
def Sweep.next? : Sweep → Option PeerId
  | .looking (seed :: _) => some seed.id
  | .reading | .looking [] => none

/-- How many steps a sweep takes at most until it ends. -/
def Sweep.stepsLeft (seeds : List Seed) : Sweep → Nat
  | .reading => seeds.length + 2
  | .looking rest => rest.length + 1

/-- A sweep does not wait. -/
theorem Sweep.exists_step (sweep : Sweep) (service : Service) :
    ∃ moved, sweep.step service = some moved := by
  rcases sweep with _ | ⟨_ | ⟨seed, rest⟩⟩ <;> exact ⟨_, rfl⟩

/-- A sweep leaves the list of seeds as it is, and has fewer steps left with every step. -/
theorem Sweep.Moves.steps_lt {service after : Service} {sweep : Sweep} {next : Option Sweep}
    (hmoves : Moves service sweep after next) :
    after.seeds = service.seeds ∧
      (next.map (Sweep.stepsLeft service.seeds)).getD 0 < sweep.stepsLeft service.seeds := by
  cases hmoves <;> simp [Sweep.stepsLeft]

namespace Scene

/-- What comes to a mechanism from outside. -/
inductive Input where
  | start
  | find
  /-- The query behind a sweep that is under way is given up. -/
  | abandon (place : Nat)
  | add (seed : Seed)
  | stop
  /-- A millisecond passes. -/
  | tick
  | setDelay (delay : Clock.Span)
  | setReachable (id : PeerId) (reachable : Bool)
  | disconnect (id : PeerId)

/-- Take an input. -/
def take (scene : Scene) : Input → Scene
  | .start | .find =>
      if scene.stopping then scene else { scene with sweeps := .reading :: scene.sweeps }
  | .abandon place => { scene with sweeps := scene.sweeps.eraseIdx place }
  | .add seed => { scene with service := (scene.service.addSeed seed).2 }
  | .stop => { scene with stopping := true }
  | .tick => { scene with now := scene.now + 1 }
  | .setDelay delay => { scene with transport := { scene.transport with delay := delay } }
  | .setReachable id reachable =>
      { scene with transport := scene.transport.setReachable id reachable }
  | .disconnect id => { scene with transport := scene.transport.disconnect id }

/-- What happens to a mechanism. The work that goes on is told by its place among the sweeps, and
among the dials or the supervisors of a seed. -/
inductive Event where
  | input (input : Input)
  /-- A sweep goes on, and looks at a seed if it has come to one. -/
  | sweep (place : Nat) (seed? : Option PeerId)
  | dial (id : PeerId) (place : Nat) (moment : Moment)
  | supervisor (id : PeerId) (place : Nat) (moment : Moment)

/-- What comes from outside by an event. -/
def Event.input? : Event → Option Input
  | .input given => some given
  | .sweep .. | .dial .. | .supervisor .. => none

/-- An event by which something comes from outside is that input. -/
theorem Event.eq_input {event : Event} {given : Input} (h : event.input? = some given) :
    event = .input given := by
  cases event with
  | input input => exact congrArg Event.input (Option.some.inj h)
  | sweep | dial | supervisor => cases h

/-- Whether a moment is now. -/
structure IsAt (scene : Scene) (moment : Moment) : Prop where
  now_eq : moment.now = scene.now
  stopping_eq : moment.stopping = scene.stopping

/-- What can happen, and what comes of it. The supervisors that a dial calls for begin behind the
others. -/
inductive Happens (scene : Scene) : Event → Scene → Prop where
  | input (input : Input) : Happens scene (.input input) (scene.take input)
  | sweep (place : Nat) (seed? : Option PeerId) (before : List Sweep) (sweep : Sweep)
      (later : List Sweep) (service : Service) (next : Option Sweep)
      (hsweeps : scene.sweeps = before ++ sweep :: later) (hplace : before.length = place)
      (hseed : sweep.next? = seed?) (hstep : sweep.step scene.service = some (service, next)) :
      Happens scene (.sweep place seed?)
        { scene with service := service, sweeps := before ++ next.toList ++ later }
  | dial (id : PeerId) (place : Nat) (moment : Moment) (before : List Dial) (dial : Dial)
      (later : List Dial) (board : Noted Board) (next : Option Dial) (hmoment : scene.IsAt moment)
      (hdials : scene.service.dials = before ++ dial :: later) (hid : dial.seed.id = id)
      (hplace : before.countP (·.seed.id = id) = place)
      (hstep : dial.step scene.service.policy moment (scene.board scene.service.supervisors) =
        some (board, next)) :
      Happens scene (.dial id place moment)
        (scene.withWork board (before ++ next.toList ++ later) board.state.recruits)
  | supervisor (id : PeerId) (place : Nat) (moment : Moment) (before : List Supervisor)
      (supervisor : Supervisor) (later : List Supervisor) (board : Noted Board)
      (next : Option Supervisor) (hmoment : scene.IsAt moment)
      (hsupervisors : scene.service.supervisors = before ++ supervisor :: later)
      (hid : supervisor.seed.id = id) (hplace : before.countP (·.seed.id = id) = place)
      (hstep : supervisor.step scene.service.policy moment (scene.board []) = some (board, next)) :
      Happens scene (.supervisor id place moment)
        (scene.withWork board scene.service.dials (before ++ next.toList ++ later))

/-- Whether all work is done: nothing happens but what comes from outside. -/
def IsResting (scene : Scene) : Prop :=
  ∀ event after, Happens scene event after → ∃ input, event = .input input

/-- What happens one after another. If it is `patient`, time passes only where all work is done, as
it does for a clock that waits for it. -/
inductive Run (patient : Bool) : Scene → List Event → Scene → Prop where
  | ends (scene : Scene) : Run patient scene [] scene
  | goes (scene : Scene) (event : Event) (next : Scene) (events : List Event) (last : Scene)
      (hpatient : patient = true → event = .input .tick → scene.IsResting)
      (hhappens : Happens scene event next) (hrun : Run patient next events last) :
      Run patient scene (event :: events) last

/-- What happens one after another, if inputs and the end come only where all work is done. -/
inductive Settled : Scene → List Event → Prop where
  | rests (scene : Scene) (hrests : scene.IsResting) : Settled scene []
  | takes (scene : Scene) (input : Input) (events : List Event) (hrests : scene.IsResting)
      (hrest : Settled (scene.take input) events) : Settled scene (.input input :: events)
  | works (scene : Scene) (event : Event) (next : Scene) (events : List Event)
      (hwork : event.input? = none) (hhappens : Happens scene event next)
      (hrest : Settled next events) : Settled scene (event :: events)

/-- Whether work alone leads from one scene to another. -/
def WorksTo (scene after : Scene) : Prop :=
  ∃ events, (∀ event ∈ events, event.input? = none) ∧ ∀ patient, Run patient scene events after

/-- Whether the work that goes on is chosen by a rule from what happened before. -/
def Follows (rule : List Event → Event) (events : List Event) : Prop :=
  ∀ before event later, events = before ++ event :: later → event.input? = none →
    event = rule before

end Scene

/-- A board on which supervisors that were called for before come first. -/
def Board.behind (watching : List Supervisor) (board : Board) : Board :=
  { board with recruits := watching ++ board.recruits }

section Recruits

variable (policy : Policy) (moment : Moment) (watching : List Supervisor) (board : Noted Board)

/-- A dial does not look at the supervisors that were called for. -/
theorem Dial.step_behind (dial : Dial) :
    dial.step policy moment (board.modify (·.behind watching)) =
      (dial.step policy moment board).map fun moved =>
        (moved.1.modify (·.behind watching), moved.2) := by
  obtain ⟨seed, point⟩ := dial
  cases point with
  | ready attempt backoff =>
      simp only [step]
      split_ifs <;> rfl
  | trying attempt backoff call =>
      simp only [step, Option.map_map]
      rfl
  | resting attempt backoff resume =>
      simp only [step]
      split_ifs <;> rfl
  | ending connected =>
      simp only [step, settle, Noted.modify, Option.map_some]
      split_ifs <;> simp_all [Board.behind, Board.mapFlags]

/-- A supervisor does not look at those that were called for. -/
theorem Supervisor.step_behind (supervisor : Supervisor) :
    supervisor.step policy moment (board.modify (·.behind watching)) =
      (supervisor.step policy moment board).map fun moved =>
        (moved.1.modify (·.behind watching), moved.2) := by
  obtain ⟨seed, point⟩ := supervisor
  cases point with
  | ready =>
      simp only [step]
      split_ifs <;> rfl
  | waiting ticker =>
      simp only [step]
      split_ifs
      · rfl
      · rw [Option.map_map]
        rfl
  | looked ticker connected =>
      have hflags : (board.modify (·.behind watching)).state.flags = board.state.flags := rfl
      simp only [step, look, hflags]
      split_ifs <;> rfl
  | claimed ticker =>
      simp only [step]
      split_ifs <;> rfl
  | redialing ticker call =>
      simp only [step, Option.map_map]
      rfl
  | redialed ticker outcome => cases outcome <;> rfl
  | ending => rfl

end Recruits

namespace Scene

variable {scene after other : Scene} {event : Event}

/-- A dial goes on by an event, whichever supervisors are set apart from those that it calls for. -/
theorem exists_dial_event {moment : Moment} {before later : List Dial} {dial : Dial}
    {watching recruits : List Supervisor} {board : Noted Board} {next : Option Dial}
    (hmoment : scene.IsAt moment) (hdials : scene.service.dials = before ++ dial :: later)
    (hsupervisors : scene.service.supervisors = watching ++ recruits)
    (hstep : dial.step scene.service.policy moment (scene.board recruits) = some (board, next)) :
    ∃ event, event.input? = none ∧ Happens scene event (scene.withWork board
      (before ++ next.toList ++ later) (watching ++ board.state.recruits)) := by
  have hbehind := dial.step_behind scene.service.policy moment watching (scene.board recruits)
  rw [hstep, Option.map_some, show (scene.board recruits).modify (·.behind watching) =
    scene.board scene.service.supervisors by rw [hsupervisors]; rfl] at hbehind
  exact ⟨_, rfl, .dial _ _ moment before dial later _ next hmoment hdials rfl rfl hbehind⟩

/-- A supervisor goes on by an event, whichever supervisors were called for before. -/
theorem exists_supervisor_event {moment : Moment} {before later recruits : List Supervisor}
    {supervisor : Supervisor} {board : Noted Board} {next : Option Supervisor}
    (hmoment : scene.IsAt moment)
    (hsupervisors : scene.service.supervisors = before ++ supervisor :: later)
    (hstep : supervisor.step scene.service.policy moment (scene.board recruits) =
      some (board, next)) :
    ∃ event, event.input? = none ∧ Happens scene event
      (scene.withWork board scene.service.dials (before ++ next.toList ++ later)) := by
  have hbehind := supervisor.step_behind scene.service.policy moment recruits (scene.board [])
  rw [show (scene.board []).modify (·.behind recruits) = scene.board recruits by
    simp [Noted.modify, Board.behind, Scene.board], hstep] at hbehind
  obtain ⟨⟨base, left⟩, hbase, heq⟩ := Option.map_eq_some_iff.1 hbehind.symm
  cases heq
  exact ⟨_, rfl, .supervisor _ _ moment before supervisor later base left hmoment hsupervisors rfl
    rfl hbase⟩

/-- Every step of the mechanism is an event, unless only its surroundings change. -/
theorem Step.exists_event {label : Label} (hstep : Step scene label after) :
    (∃ event, Happens scene event after) ∨ ∃ now transport journal,
      after = { scene with now := now, transport := transport, journal := journal } := by
  cases hstep with
  | surroundings now transport journal => exact .inr ⟨now, transport, journal, rfl⟩
  | stop => exact .inl ⟨_, .input .stop⟩
  | add seed => exact .inl ⟨_, .input (.add seed)⟩
  | begin hstopping =>
      have hhappens := @Happens.input scene .find
      rw [take, if_neg (by simp [hstopping])] at hhappens
      exact .inl ⟨_, hhappens⟩
  | sweep before sweep later service next hsweeps hnext =>
      exact .inl ⟨_, .sweep _ _ before sweep later service next hsweeps rfl rfl hnext⟩
  | abandon before sweep later hsweeps =>
      have hhappens := @Happens.input scene (.abandon before.length)
      have herased : (before ++ sweep :: later).eraseIdx before.length = before ++ later := by
        simp [List.eraseIdx_append_of_length_le]
      rw [take, hsweeps, herased] at hhappens
      exact .inl ⟨_, hhappens⟩
  | dial moment before dial later watching recruits board next hnow hstopping hdials hsupervisors
      hnext =>
      obtain ⟨event, -, hhappens⟩ := exists_dial_event ⟨hnow, hstopping⟩ hdials hsupervisors hnext
      exact .inl ⟨event, hhappens⟩
  | supervisor moment before supervisor later recruits board next hnow hstopping hsupervisors
      hnext =>
      obtain ⟨event, -, hhappens⟩ :=
        exists_supervisor_event ⟨hnow, hstopping⟩ hsupervisors hnext
      exact .inl ⟨event, hhappens⟩

/-- Every event is a step of the mechanism, unless it changes nothing. -/
theorem Happens.exists_step (hhappens : Happens scene event after) :
    after = scene ∨ ∃ label, Step scene label after := by
  cases hhappens with
  | input input =>
      cases input with
      | start | find =>
          cases hstopping : scene.stopping with
          | true => exact .inl (if_pos hstopping)
          | false =>
              rw [take, if_neg (by simp [hstopping])]
              exact .inr ⟨_, .begin scene hstopping⟩
      | abandon place =>
          rcases Nat.lt_or_ge place scene.sweeps.length with hplace | hplace
          · rw [take, List.eraseIdx_eq_take_drop_succ]
            refine .inr ⟨_, .abandon scene _ scene.sweeps[place] _ ?_⟩
            rw [List.getElem_cons_drop, List.take_append_drop]
          · rw [take, List.eraseIdx_of_length_le hplace]
            exact .inl rfl
      | add seed => exact .inr ⟨_, .add scene seed⟩
      | stop => exact .inr ⟨_, .stop scene⟩
      | tick | setDelay | setReachable | disconnect => exact .inr ⟨_, .surroundings scene _ _ _⟩
  | sweep place seed? before sweep later service next hsweeps hplace hseed hstep =>
      exact .inr ⟨_, .sweep scene before sweep later service next hsweeps hstep⟩
  | dial id place moment before dial later board next hmoment hdials hid hplace hstep =>
      exact .inr ⟨_, .dial scene moment before dial later [] _ board next hmoment.now_eq
        hmoment.stopping_eq hdials rfl hstep⟩
  | supervisor id place moment before supervisor later board next hmoment hsupervisors hid hplace
      hstep =>
      exact .inr ⟨_, .supervisor scene moment before supervisor later [] board next hmoment.now_eq
        hmoment.stopping_eq hsupervisors hstep⟩

/-- An element of a kind is told by how many of its kind come before it. -/
theorem eq_of_count {α : Type} {p : α → Bool} {before others later rest : List α} {first second : α}
    (heq : before ++ first :: later = others ++ second :: rest) (hfirst : p first = true)
    (hsecond : p second = true) (hcount : before.countP p = others.countP p) :
    before = others ∧ first = second ∧ later = rest := by
  rcases List.append_eq_append_iff.1 heq with ⟨between, rfl, hlist⟩ | ⟨between, rfl, hlist⟩ <;>
    cases between with
    | nil =>
        obtain ⟨rfl, rfl⟩ := List.cons.inj hlist
        simp
    | cons other between =>
        obtain ⟨rfl, -⟩ := List.cons.inj hlist
        simp [List.countP_append, hfirst, hsecond] at hcount

/-- What happens decides what comes of it. -/
theorem Happens.unique (hhappens : Happens scene event after) (hother : Happens scene event other) :
    after = other := by
  cases hhappens with
  | input input =>
      cases hother
      rfl
  | sweep place seed? before sweep later service next hsweeps hplace hseed hstep =>
      obtain _ | ⟨_, _, others, second, rest, _, _, hagain, hsame, -, hnext⟩ := hother
      obtain ⟨rfl, hcons⟩ := List.append_inj (hsweeps.symm.trans hagain) (hplace.trans hsame.symm)
      cases hcons
      cases hstep.symm.trans hnext
      rfl
  | dial id place moment before dial later board next hmoment hdials hid hplace hstep =>
      obtain _ | _ | ⟨_, _, _, others, second, rest, _, _, -, hagain, hsecond, hsame, hnext⟩ :=
        hother
      obtain ⟨rfl, rfl, rfl⟩ := eq_of_count (hdials.symm.trans hagain) (decide_eq_true hid)
        (decide_eq_true hsecond) (hplace.trans hsame.symm)
      cases hstep.symm.trans hnext
      rfl
  | supervisor id place moment before supervisor later board next hmoment hsupervisors hid hplace
      hstep =>
      obtain _ | _ | _ | ⟨_, _, _, others, second, rest, _, _, -, hagain, hsecond, hsame, hnext⟩ :=
        hother
      obtain ⟨rfl, rfl, rfl⟩ := eq_of_count (hsupervisors.symm.trans hagain) (decide_eq_true hid)
        (decide_eq_true hsecond) (hplace.trans hsame.symm)
      cases hstep.symm.trans hnext
      rfl

/-- Where all work is done, none goes on. -/
theorem IsResting.not_works (hrests : scene.IsResting) (hhappens : Happens scene event after)
    (hwork : event.input? = none) : False := by
  obtain ⟨input, rfl⟩ := hrests event after hhappens
  cases hwork

/-- All work is done exactly if no sweep is under way, and every dial and every supervisor waits for
an instant to come and was not stopped. -/
theorem is_resting_iff : scene.IsResting ↔
    scene.sweeps = [] ∧
    (∀ dial ∈ scene.service.dials, scene.stopping = false ∧
      ∃ wake, dial.wake = some wake ∧ scene.now < wake) ∧
    ∀ supervisor ∈ scene.service.supervisors, scene.stopping = false ∧
      ∃ wake, supervisor.wake = some wake ∧ scene.now < wake := by
  constructor
  · intro hrests
    refine ⟨?_, fun dial hmem => ?_, fun supervisor hmem => ?_⟩
    · cases hsweeps : scene.sweeps with
      | nil => rfl
      | cons sweep later =>
          obtain ⟨⟨service, next⟩, hstep⟩ := sweep.exists_step scene.service
          cases hrests.not_works (.sweep 0 _ [] sweep later service next hsweeps rfl rfl hstep) rfl
    · obtain ⟨before, later, hdials⟩ := List.append_of_mem hmem
      have hwaits : dial.step scene.service.policy ⟨scene.now, 0, scene.stopping, true⟩
          (scene.board scene.service.supervisors) = none := by
        rw [Option.eq_none_iff_forall_ne_some]
        rintro ⟨board, next⟩ hstep
        exact hrests.not_works (.dial _ _ _ before dial later board next ⟨rfl, rfl⟩ hdials rfl rfl
          hstep) rfl
      exact Dial.step_eq_none_iff.1 hwaits
    · obtain ⟨before, later, hsupervisors⟩ := List.append_of_mem hmem
      have hwaits : supervisor.step scene.service.policy ⟨scene.now, 0, scene.stopping, true⟩
          (scene.board []) = none := by
        rw [Option.eq_none_iff_forall_ne_some]
        rintro ⟨board, next⟩ hstep
        exact hrests.not_works (.supervisor _ _ _ before supervisor later board next ⟨rfl, rfl⟩
          hsupervisors rfl rfl hstep) rfl
      exact Supervisor.step_eq_none_iff.1 hwaits
  · rintro ⟨hsweeps, hdials, hsupervisors⟩ event after hhappens
    cases hhappens with
    | input input => exact ⟨input, rfl⟩
    | sweep place seed? before sweep later service next hsome =>
        rw [hsweeps] at hsome
        simp at hsome
    | dial id place moment before dial later board next hmoment hwork hid hplace hstep =>
        obtain ⟨hstopping, wake, hwake, hlater⟩ := hdials dial (by simp [hwork])
        rw [Dial.step_eq_none_iff.2 ⟨hmoment.stopping_eq.trans hstopping, wake, hwake,
          hmoment.now_eq.trans_lt hlater⟩] at hstep
        cases hstep
    | supervisor id place moment before supervisor later board next hmoment hwork hid hplace
        hstep =>
        obtain ⟨hstopping, wake, hwake, hlater⟩ := hsupervisors supervisor (by simp [hwork])
        rw [Supervisor.step_eq_none_iff.2 ⟨hmoment.stopping_eq.trans hstopping, wake, hwake,
          hmoment.now_eq.trans_lt hlater⟩] at hstep
        cases hstep

/-- Sound work stays sound, whatever happens. -/
theorem Happens.is_sound (hhappens : Happens scene event after) (hsound : scene.service.IsSound) :
    after.service.IsSound := by
  cases hhappens with
  | input input =>
      cases input with
      | start | find =>
          simp only [take]
          split_ifs <;> exact hsound
      | add seed =>
          simp only [take, Service.addSeed]
          split_ifs <;> exact ⟨hsound.dials, hsound.supervisors⟩
      | abandon | stop | tick | setDelay | setReachable | disconnect => exact hsound
  | sweep place seed? before sweep later service next hsweeps hplace hseed hstep =>
      cases Sweep.step_moves hstep with
      | read | finished | passed => exact hsound
      | dialed seed rest =>
          refine ⟨fun dial hmem => ?_, hsound.supervisors⟩
          rcases List.mem_append.1 hmem with hmem | hmem
          · exact hsound.dials dial hmem
          · rw [List.mem_singleton.1 hmem]
            trivial
  | dial id place moment before dial later board next hmoment hdials hid hplace hstep =>
      obtain ⟨added, hrecruits, hadded⟩ := (Dial.step_moves hstep).recruits_eq
      refine ⟨fun left hmem => ?_, fun recruit hmem => ?_⟩
      · rcases mem_replaced hmem with hmem | hmem
        · exact hsound.dials left (hdials ▸ hmem)
        · exact (Dial.sound_of_step hstep left hmem).1
      · simp only [withWork, hrecruits] at hmem
        rcases List.mem_append.1 hmem with hmem | hmem
        · exact hsound.supervisors recruit hmem
        · rw [hadded recruit hmem]
          trivial
  | supervisor id place moment before supervisor later board next hmoment hsupervisors hid hplace
      hstep =>
      refine ⟨hsound.dials, fun left hmem => ?_⟩
      rcases mem_replaced hmem with hmem | hmem
      · exact hsound.supervisors left (hsupervisors ▸ hmem)
      · have hmember : supervisor ∈ scene.service.supervisors := by simp [hsupervisors]
        exact (Supervisor.sound_of_step (hsound.supervisors supervisor hmember) hstep left hmem).1

/-- How many steps sweeps take at most. -/
def sweepSteps (scene : Scene) : Nat :=
  (scene.sweeps.map (Sweep.stepsLeft scene.service.seeds)).sum

/-- How many steps dials and supervisors take at most at this instant, unless something comes from
outside or a sweep begins a dial. -/
def stepsNow (scene : Scene) : Nat :=
  4 * (scene.service.dials.map (Dial.stepsLeft scene.service.policy)).sum +
    (scene.service.supervisors.map (Supervisor.stepsNow scene.now)).sum

/-- Work leaves fewer steps of sweeps, or as many and fewer steps of dials and supervisors. -/
theorem Happens.steps_lt (hhappens : Happens scene event after) (hsound : scene.service.IsSound)
    (hwork : event.input? = none) :
    after.sweepSteps < scene.sweepSteps ∨
      after.sweepSteps = scene.sweepSteps ∧ after.stepsNow < scene.stepsNow := by
  cases hhappens with
  | input => cases hwork
  | sweep place seed? before sweep later service next hsweeps hplace hseed hstep =>
      obtain ⟨hseeds, hlower⟩ := (Sweep.step_moves hstep).steps_lt
      have hsum := sum_of_step (Sweep.stepsLeft scene.service.seeds) before sweep next later
      simp only [sweepSteps, hsweeps, hseeds]
      omega
  | dial id place moment before dial later board next hmoment hdials hid hplace hstep =>
      refine .inr ⟨rfl, ?_⟩
      have hsum := sum_of_step (Dial.stepsLeft scene.service.policy) before dial next later
      have hlower := (Dial.step_moves hstep).steps_lt scene.now
      simp only [stepsNow, withWork, Scene.board, hdials] at hsum hlower ⊢
      omega
  | supervisor id place moment before supervisor later board next hmoment hsupervisors hid hplace
      hstep =>
      refine .inr ⟨rfl, ?_⟩
      have hsum := sum_of_step (Supervisor.stepsNow scene.now) before supervisor next later
      have hmember : supervisor ∈ scene.service.supervisors := by simp [hsupervisors]
      have hleft := Supervisor.sound_of_step (hsound.supervisors supervisor hmember) hstep
      rw [hmoment.now_eq] at hleft
      have hlower : (next.map (Supervisor.stepsNow scene.now)).getD 0 <
          supervisor.stepsNow scene.now := by
        cases next with
        | none => exact supervisor.steps_now_pos scene.now
        | some left => exact (hleft left rfl).2
      simp only [stepsNow, withWork, hsupervisors] at hsum ⊢
      omega

/-- A rule that is followed is followed from each event on. -/
theorem Follows.tail {rule : List Event → Event} {events : List Event}
    (hrule : Follows rule (event :: events)) :
    Follows (fun before => rule (event :: before)) events :=
  fun before next later hevents => hrule (event :: before) next later (congrArg _ hevents)

namespace Settled

variable {start : Scene} {events otherEvents : List Event}

end Settled

namespace Run

variable {patient : Bool} {start middle last final : Scene} {events more : List Event}

/-- Work goes on in a run, patient or not. -/
theorem works {scene next : Scene} (hhappens : Happens scene event next)
    (hwork : event.input? = none) (hrun : Run patient next events last) :
    Run patient scene (event :: events) last := by
  refine .goes scene event next events last (fun _ htick => ?_) hhappens hrun
  rw [htick] at hwork
  cases hwork

/-- A run goes on where another has ended. -/
theorem append (hrun : Run patient start events middle) (hmore : Run patient middle more last) :
    Run patient start (events ++ more) last := by
  induction hrun with
  | ends => exact hmore
  | goes scene event next events last hpatient hhappens _ ih =>
      exact .goes scene event next _ _ hpatient hhappens (ih hmore)

/-- A run that is patient is also one that need not be. -/
theorem impatient (hrun : Run patient start events last) : Run false start events last := by
  induction hrun with
  | ends scene => exact .ends scene
  | goes scene event next events last _ hhappens _ ih =>
      exact .goes scene event next events last nofun hhappens ih

/-- What happens decides where a run ends. -/
theorem unique {impatient : Bool} (hrun : Run patient start events last)
    (hother : Run impatient start events final) : last = final := by
  induction hrun with
  | ends =>
      cases hother
      rfl
  | goes scene event next events last _ hhappens _ ih =>
      cases hother with
      | goes _ _ other _ _ _ hagain hrun =>
          obtain rfl := hhappens.unique hagain
          exact ih hrun

/-- Sound work stays sound along a run. -/
theorem is_sound (hrun : Run patient start events last) (hsound : start.service.IsSound) :
    last.service.IsSound := by
  induction hrun with
  | ends => exact hsound
  | goes _ _ _ _ _ _ hhappens _ ih => exact ih (hhappens.is_sound hsound)

end Run

namespace WorksTo

variable {middle : Scene}

/-- No work leads to where one is. -/
theorem refl (scene : Scene) : scene.WorksTo scene :=
  ⟨[], nofun, fun _ => .ends scene⟩

/-- Work leads on from where work has led. -/
theorem trans (hfirst : scene.WorksTo middle) (hmore : middle.WorksTo after) :
    scene.WorksTo after := by
  obtain ⟨events, hworks, hrun⟩ := hfirst
  obtain ⟨more, hmoreWorks, hmoreRun⟩ := hmore
  exact ⟨events ++ more, List.forall_mem_append.2 ⟨hworks, hmoreWorks⟩,
    fun patient => (hrun patient).append (hmoreRun patient)⟩

/-- A single piece of work leads to what comes of it. -/
theorem of_happens (hwork : event.input? = none) (hhappens : Happens scene event after) :
    scene.WorksTo after :=
  ⟨[event], List.forall_mem_singleton.2 hwork, fun _ => .works hhappens hwork (.ends after)⟩

/-- Work keeps work sound. -/
theorem is_sound (hworks : scene.WorksTo after) (hsound : scene.service.IsSound) :
    after.service.IsSound := by
  obtain ⟨events, -, hrun⟩ := hworks
  exact (hrun false).is_sound hsound

end WorksTo

/-- Work is done sooner or later, if nothing comes from outside. -/
theorem exists_resting (scene : Scene) (hsound : scene.service.IsSound) :
    ∃ between, scene.WorksTo between ∧ between.IsResting := by
  by_cases hresting : scene.IsResting
  · exact ⟨scene, .refl scene, hresting⟩
  · simp only [IsResting, not_forall] at hresting
    obtain ⟨event, after, hhappens, hnone⟩ := hresting
    have hwork : event.input? = none :=
      Option.eq_none_iff_forall_ne_some.2 fun input h => hnone ⟨input, Event.eq_input h⟩
    have hlower := hhappens.steps_lt hsound hwork
    obtain ⟨between, hworks, hbetween⟩ := exists_resting after (hhappens.is_sound hsound)
    exact ⟨between, (WorksTo.of_happens hwork hhappens).trans hworks, hbetween⟩
termination_by (scene.sweepSteps, scene.stepsNow)
decreasing_by exact Prod.lex_def.2 hlower

/-- A sweep that has read the list of seeds looks at each of them by work. -/
theorem looking_works (scene : Scene) (seeds : List Seed) :
    { scene with sweeps := .looking seeds :: scene.sweeps }.WorksTo
      { scene with service := seeds.foldl Service.sweepSeed scene.service } := by
  induction seeds generalizing scene with
  | nil => exact .of_happens rfl (.sweep 0 none [] (.looking []) scene.sweeps _ _ rfl rfl rfl rfl)
  | cons seed rest ih =>
      exact (WorksTo.of_happens rfl (.sweep 0 _ [] (.looking (seed :: rest)) scene.sweeps _ _ rfl
        rfl rfl rfl)).trans (ih { scene with service := scene.service.sweepSeed seed })

/-- A query sweeps by work. -/
theorem sweep_works (scene : Scene) :
    (scene.take .find).WorksTo
      { scene with service := scene.service.sweep scene.stopping } := by
  cases hstopping : scene.stopping with
  | true =>
      rw [take, if_pos hstopping, Service.sweep, if_pos rfl, ← hstopping]
      exact .refl scene
  | false =>
      rw [take, if_neg (by simp [hstopping]), Service.sweep, if_neg Bool.false_ne_true, ← hstopping]
      exact (WorksTo.of_happens rfl (.sweep 0 none [] .reading scene.sweeps _ _ rfl rfl rfl
        rfl)).trans (looking_works scene scene.service.seeds)

/-- The mechanism takes its dials and then its supervisors on by work. -/
theorem advance_works (scene : Scene) (moment : Moment) (hmoment : scene.IsAt moment) :
    scene.WorksTo
      { scene with
        service :=
          (scene.service.advance moment ⟨scene.transport, scene.journal⟩).1.state.1
        transport :=
          (scene.service.advance moment ⟨scene.transport, scene.journal⟩).1.state.2
        journal := (scene.service.advance moment ⟨scene.transport, scene.journal⟩).1.journal } := by
  refine advance_keeps scene moment (.refl scene) ?_ ?_
  · intro board before dial later after next hworks hnext
    obtain ⟨event, hwork, hhappens⟩ := @exists_dial_event (scene.withWork board _ _) moment before
      later dial scene.service.supervisors board.state.recruits _ _
      ⟨hmoment.now_eq, hmoment.stopping_eq⟩ rfl rfl hnext
    exact hworks.trans (.of_happens hwork hhappens)
  · intro board dials before supervisor later after next hworks hnext
    obtain ⟨event, hwork, hhappens⟩ := @exists_supervisor_event (scene.withWork board dials _)
      moment before later board.state.recruits supervisor _ _
      ⟨hmoment.now_eq, hmoment.stopping_eq⟩ rfl hnext
    exact hworks.trans (.of_happens hwork hhappens)

/-- A settled run is one of a patient runtime. -/
theorem Settled.exists_run {start : Scene} {events : List Event} (hsettled : Settled start events) :
    ∃ last, Run true start events last := by
  induction hsettled with
  | rests scene => exact ⟨scene, .ends scene⟩
  | takes scene input events hrests _ ih =>
      obtain ⟨last, hrun⟩ := ih
      exact ⟨last, .goes scene _ _ events last (fun _ _ => hrests) (.input input) hrun⟩
  | works scene event next events hwork hhappens _ ih =>
      obtain ⟨last, hrun⟩ := ih
      exact ⟨last, .works hhappens hwork hrun⟩

/-- Work that is done before a settled run is part of one. -/
theorem WorksTo.exists_settled {events : List Event} (hworks : scene.WorksTo after)
    (hsettled : Settled after events) : ∃ before, (∀ event ∈ before, event.input? = none) ∧
      Settled scene (before ++ events) := by
  obtain ⟨before, hnone, hrun⟩ := hworks
  refine ⟨before, hnone, ?_⟩
  have hbefore := hrun false
  clear hrun
  induction hbefore with
  | ends => exact hsettled
  | goes scene event next before last _ hhappens _ ih =>
      obtain ⟨hwork, hnone⟩ := List.forall_mem_cons.1 hnone
      exact .works scene event next _ hwork hhappens (ih hsettled hnone)

/-- Whatever inputs come, there is a settled run with them. -/
theorem exists_settled (scene : Scene) (hsound : scene.service.IsSound) (inputs : List Input) :
    ∃ events, Settled scene events ∧ events.filterMap Event.input? = inputs := by
  induction inputs generalizing scene with
  | nil =>
      obtain ⟨between, hworks, hrests⟩ := exists_resting scene hsound
      obtain ⟨before, hnone, hsettled⟩ := hworks.exists_settled (.rests between hrests)
      refine ⟨before ++ [], hsettled, ?_⟩
      rw [List.append_nil, List.filterMap_eq_nil_iff.2 hnone]
  | cons input inputs ih =>
      obtain ⟨between, hworks, hrests⟩ := exists_resting scene hsound
      have hhappens := @Happens.input between input
      obtain ⟨events, hevents, rfl⟩ := ih _ (hhappens.is_sound (hworks.is_sound hsound))
      obtain ⟨before, hnone, hsettled⟩ :=
        hworks.exists_settled (.takes between input events hrests hevents)
      refine ⟨before ++ .input input :: events, hsettled, ?_⟩
      rw [List.filterMap_append, List.filterMap_eq_nil_iff.2 hnone]
      rfl

end Scene

end PeerFinder.Seed
