import PeerFinder.Proofs.Coordinator.Cancellation
import PeerFinder.Proofs.Coordinator.Uses

/-!
# Starts and stops that are under way together

A coordinator may be started and stopped any number of times, and starts and stops may be under way
together. A start holds a lock while it starts the mechanisms, and a stop cancels the scope before it
waits for that lock. `Startup.Moves` and `Shutdown.Moves` say what one step of them can do, `Life.Step`
lists the steps of all of them together, and `Life.Path` strings these together. A coordinator that has
come to its end stays so with every step (`Follows`), and mechanisms remember exactly the steps that start
and stop them (`Startup.Moves.uses_eq`, `Shutdown.Moves.uses_eq`).
-/

namespace PeerFinder.Coordinator

/-- The answer of a start after a stop. -/
def refusal : Except Error Unit :=
  .error (.shutdown ["coordinator already stopped"])

/-- What a start does with a step. -/
inductive Startup.Moves (env : Environment) (coordinator : Coordinator) :
    Startup → Environment → Coordinator → Startup ⊕ Except Error Unit → Prop where
  /-- The coordinator was started before. -/
  | again (hfree : coordinator.starting = false) (hruns : coordinator.runs = true) :
      Moves env coordinator .entering env coordinator (.inr (.ok ()))
  /-- The coordinator was stopped before. -/
  | refused (hfree : coordinator.starting = false) (hruns : coordinator.runs = false)
      (hcancelled : env.tree.isCancelled coordinator.scope = true) :
      Moves env coordinator .entering env coordinator (.inr refusal)
  | enters (hfree : coordinator.starting = false) (hruns : coordinator.runs = false)
      (hcancelled : env.tree.isCancelled coordinator.scope = false) :
      Moves env coordinator .entering env { coordinator with starting := true }
        (.inl (.starting coordinator.members []))
  /-- It starts the next mechanism, and goes on whatever comes of it. -/
  | starts (member : Member) (rest started next : List Member) :
      Moves env coordinator (.starting (member :: rest) started)
        (env.start member.place coordinator.scope).2 coordinator (.inl (.starting rest next))
  | begins (started : List Member) :
      Moves env coordinator (.starting [] started) env (coordinator.begin started) (.inr (.ok ()))

/-- What a stop does with a step. -/
inductive Shutdown.Moves (env : Environment) (coordinator : Coordinator) :
    Shutdown → Environment → Coordinator → Shutdown ⊕ Except Error Unit → Prop where
  | cancels : Moves env coordinator .cancelling (env.cancel coordinator.scope) coordinator
      (.inl .entering)
  | enters (hfree : coordinator.starting = false) :
      Moves env coordinator .entering env coordinator.endLoops (.inl (.stopping coordinator.members []))
  /-- It stops the next mechanism, and goes on whatever comes of it. -/
  | stops (member : Member) (rest : List Member) (errors : List String) :
      Moves env coordinator (.stopping (member :: rest) errors) (env.stop member.place).2 coordinator
        (.inl (.stopping rest (errors ++ (stopError? member (env.stop member.place).1).toList)))
  | returns (errors : List String) :
      Moves env coordinator (.stopping [] errors) env { coordinator with active := [] }
        (.inr (stopResult errors))

section Moves

variable {env after : Environment} {coordinator moved : Coordinator}

/-- A step of a start does what `Startup.Moves` lists. -/
theorem Startup.moves_of_step {point : Startup} {next : Startup ⊕ Except Error Unit}
    (hstep : point.step (env, coordinator) = some ((after, moved), next)) :
    Startup.Moves env coordinator point after moved next := by
  cases point with
  | entering =>
      simp only [step] at hstep
      split_ifs at hstep with hstarting hruns hcancelled
      · cases hstep
        exact .again (Bool.eq_false_iff.2 hstarting) hruns
      · cases hstep
        exact .refused (Bool.eq_false_iff.2 hstarting) (Bool.eq_false_iff.2 hruns) hcancelled
      · cases hstep
        exact .enters (Bool.eq_false_iff.2 hstarting) (Bool.eq_false_iff.2 hruns)
          (Bool.eq_false_iff.2 hcancelled)
  | starting rest started =>
      cases rest with
      | nil =>
          cases hstep
          exact .begins started
      | cons member rest =>
          cases hstep
          exact .starts member rest started _

/-- A step of a stop does what `Shutdown.Moves` lists. -/
theorem Shutdown.moves_of_step {point : Shutdown} {next : Shutdown ⊕ Except Error Unit}
    (hstep : point.step (env, coordinator) = some ((after, moved), next)) :
    Shutdown.Moves env coordinator point after moved next := by
  cases point with
  | cancelling =>
      cases hstep
      exact .cancels
  | entering =>
      simp only [step] at hstep
      split_ifs at hstep with hstarting
      cases hstep
      exact .enters (Bool.eq_false_iff.2 hstarting)
  | stopping rest errors =>
      cases rest with
      | nil =>
          cases hstep
          exact .returns errors
      | cons member rest =>
          cases hstep
          exact .stops member rest errors

/-- A start waits only while another one is under way. -/
theorem Startup.starting_of_step {point : Startup} (hstep : point.step (env, coordinator) = none) :
    coordinator.starting = true := by
  cases point with
  | entering =>
      simp only [step] at hstep
      split_ifs at hstep with hstarting
      exact hstarting
  | starting rest started => cases rest <;> cases hstep

/-- A stop waits only while a start is under way. -/
theorem Shutdown.starting_of_step {point : Shutdown} (hstep : point.step (env, coordinator) = none) :
    coordinator.starting = true := by
  cases point with
  | cancelling => cases hstep
  | entering =>
      simp only [step] at hstep
      split_ifs at hstep with hstarting
      exact hstarting
  | stopping rest errors => cases rest <;> cases hstep

end Moves

/-! ## Starts and stops together -/

/-- The mechanism that a start starts with a step, and what comes of it. -/
def Startup.asks? (env : Environment) (scope : Token) :
    Startup → Option (Member × Except Error Unit)
  | .starting (member :: _) _ => some (member, (env.start member.place scope).1)
  | .entering | .starting [] _ => none

/-- The mechanism that a stop stops with a step, and what comes of it. -/
def Shutdown.asks? (env : Environment) : Shutdown → Option (Member × Except Error Unit)
  | .stopping (member :: _) _ => some (member, (env.stop member.place).1)
  | .cancelling | .entering | .stopping [] _ => none

/-- How many times the mechanism of a place was called. -/
def used (place : Nat) (asked : List (Member × Except Error Unit)) : Nat :=
  asked.countP fun answer => answer.1.place = place

/-- A start: where it stands or what it answered, the mechanisms that it started with what came of it,
and whether a stop had returned before. -/
structure StartCall where
  stage : Startup ⊕ Except Error Unit := .inl .entering
  asked : List (Member × Except Error Unit) := []
  late : Bool := false

/-- A stop: where it stands or what it answered, and the mechanisms that it stopped with what came of
it. -/
structure StopCall where
  stage : Shutdown ⊕ Except Error Unit := .inl .cancelling
  asked : List (Member × Except Error Unit) := []

/-- A coordinator with its surroundings, and its starts and stops in the order they were called. -/
structure Life where
  node : Node
  starts : List StartCall := []
  stops : List StopCall := []

namespace Life

/-- Whether a stop has returned. -/
def hasStopped (life : Life) : Bool :=
  life.stops.any fun call => call.stage.isRight

/-- The coordinator and its surroundings at another point. -/
def goTo (life : Life) (env : Environment) (coordinator : Coordinator) : Life :=
  { life with node := { life.node with env := env, coordinator := coordinator } }

/-- A start after a step from a point. -/
def moveStart (life : Life) (call : StartCall) (point : Startup)
    (next : Startup ⊕ Except Error Unit) : StartCall :=
  { call with
    stage := next
    asked := call.asked ++ (point.asks? life.node.env life.node.coordinator.scope).toList }

/-- A stop after a step from a point. -/
def moveStop (life : Life) (call : StopCall) (point : Shutdown)
    (next : Shutdown ⊕ Except Error Unit) : StopCall where
  stage := next
  asked := call.asked ++ (point.asks? life.node.env).toList

/-- The single steps of a coordinator that is started and stopped. -/
inductive Step : Life → Life → Prop where
  /-- Something else happens, that starts and stops no mechanism. -/
  | other (life : Life) (label : Node.Label) (after : Node) (hstep : Node.Step life.node label after)
      (hstartups : after.startups = []) (hshutdowns : after.shutdowns = [])
      (huses : life.node.env.KeepsUses after.env) : Step life { life with node := after }
  | start (life : Life) :
      Step life { life with starts := life.starts ++ [{ late := life.hasStopped }] }
  | startup (life : Life) (before : List StartCall) (call : StartCall) (later : List StartCall)
      (point : Startup) (env : Environment) (coordinator : Coordinator)
      (next : Startup ⊕ Except Error Unit) (hcalls : life.starts = before ++ call :: later)
      (hpoint : call.stage = .inl point)
      (hstep : point.step (life.node.env, life.node.coordinator) = some ((env, coordinator), next)) :
      Step life
        { life.goTo env coordinator with
          starts := before ++ life.moveStart call point next :: later }
  | stop (life : Life) : Step life { life with stops := life.stops ++ [{}] }
  | shutdown (life : Life) (before : List StopCall) (call : StopCall) (later : List StopCall)
      (point : Shutdown) (env : Environment) (coordinator : Coordinator)
      (next : Shutdown ⊕ Except Error Unit) (hcalls : life.stops = before ++ call :: later)
      (hpoint : call.stage = .inl point)
      (hstep : point.step (life.node.env, life.node.coordinator) = some ((env, coordinator), next)) :
      Step life
        { life.goTo env coordinator with
          stops := before ++ life.moveStop call point next :: later }

/-- Steps one after another. -/
inductive Path : Life → Life → Prop where
  | refl (life : Life) : Path life life
  | step (life middle after : Life) (hpath : Path life middle) (hstep : Step middle after) :
      Path life after

/-- The coordinator was neither started nor stopped yet. -/
structure IsFresh (life : Life) : Prop where
  starts : life.starts = []
  stops : life.stops = []
  startups : life.node.startups = []
  shutdowns : life.node.shutdowns = []
  starting : life.node.coordinator.starting = false
  runs : life.node.coordinator.runs = false

end Life

/-! ## What every step keeps -/

/-- A coordinator that has come to its end: its scope is cancelled, no start is under way, and its loops
are gone. -/
structure IsEnded (env : Environment) (coordinator : Coordinator) : Prop where
  cancelled : env.tree.isCancelled coordinator.scope = true
  starting : coordinator.starting = false
  runs : coordinator.runs = false
  sweeper : coordinator.sweeper = none
  evictor : coordinator.evictor = none
  reporter : coordinator.reporter = none

/-- What every step keeps of a coordinator. -/
structure Follows (env : Environment) (coordinator : Coordinator) (after : Environment)
    (moved : Coordinator) : Prop where
  members : moved.members = coordinator.members
  cancelled : env.tree.isCancelled coordinator.scope = true →
    after.tree.isCancelled moved.scope = true
  ended : IsEnded env coordinator → IsEnded after moved ∧
    (coordinator.active = [] → moved.active = [])

/-- Nothing may happen. -/
theorem Follows.refl (env : Environment) (coordinator : Coordinator) :
    Follows env coordinator env coordinator :=
  ⟨rfl, id, fun hended => ⟨hended, id⟩⟩

section Keeps

variable {env after : Environment} {coordinator moved : Coordinator}

/-- A step of a start keeps what is to be kept, if the start is one that is under way. -/
theorem Startup.Moves.follows {point : Startup} {next : Startup ⊕ Except Error Unit}
    (hmoves : Startup.Moves env coordinator point after moved next)
    (hholds : ∀ rest started, point = .starting rest started → coordinator.starting = true) :
    Follows env coordinator after moved := by
  have hgoes : ∀ rest started, point = .starting rest started → ¬ IsEnded env coordinator := by
    intro rest started hpoint hended
    exact absurd (hholds rest started hpoint) (Bool.eq_false_iff.1 hended.starting)
  cases hmoves with
  | again | refused => exact .refl env coordinator
  | enters hfree hruns hcancelled =>
      exact ⟨rfl, id, fun hended => absurd hended.cancelled (Bool.eq_false_iff.1 hcancelled)⟩
  | starts member rest started next =>
      refine ⟨rfl, fun hcancelled => ?_, fun hended => absurd hended (hgoes _ _ rfl)⟩
      rw [start_tree]
      exact hcancelled
  | begins started => exact ⟨rfl, id, fun hended => absurd hended (hgoes _ _ rfl)⟩

/-- A step of a stop keeps what is to be kept. -/
theorem Shutdown.Moves.follows {point : Shutdown} {next : Shutdown ⊕ Except Error Unit}
    (hmoves : Shutdown.Moves env coordinator point after moved next) :
    Follows env coordinator after moved := by
  cases hmoves with
  | cancels =>
      have hcancelled := ScopeTree.is_cancelled_cancel_self env.tree coordinator.scope
      exact ⟨rfl, fun _ => hcancelled, fun h => ⟨{ h with cancelled := hcancelled }, id⟩⟩
  | enters hfree =>
      exact ⟨rfl, id, fun h => ⟨⟨h.cancelled, h.starting, rfl, rfl, rfl, rfl⟩, id⟩⟩
  | stops member rest errors =>
      have hcancelled := (env.allows_stop member.place).cancelled coordinator.scope
      exact ⟨rfl, hcancelled, fun h => ⟨{ h with cancelled := hcancelled h.cancelled }, id⟩⟩
  | returns errors =>
      exact ⟨rfl, id, fun h => ⟨⟨h.cancelled, h.starting, h.runs, h.sweeper, h.evictor, h.reporter⟩,
        fun _ => rfl⟩⟩

/-- A step of a stop does not change whether a start is under way, and the coordinator runs on unless
that was the step that ends its loops. -/
theorem Shutdown.Moves.runs {point : Shutdown} {next : Shutdown ⊕ Except Error Unit}
    (hmoves : Shutdown.Moves env coordinator point after moved next) :
    moved.starting = coordinator.starting ∧
      (moved.runs = coordinator.runs ∨ point = .entering) := by
  cases hmoves with
  | cancels | stops | returns => exact ⟨rfl, .inl rfl⟩
  | enters => exact ⟨rfl, .inr rfl⟩

/-- A mechanism remembers a step of a start exactly if it is started by it. -/
theorem Startup.Moves.uses_eq {point : Startup} {next : Startup ⊕ Except Error Unit}
    (hmoves : Startup.Moves env coordinator point after moved next) (place : Nat) :
    after.uses? place = (env.uses? place).map fun uses =>
      (uses.1 + used place (point.asks? env coordinator.scope).toList, uses.2 + 0) := by
  cases hmoves with
  | again | refused | enters | begins => exact Option.map_id'.symm
  | starts member rest started next =>
      rw [Environment.uses_start]
      by_cases hplace : member.place = place <;> simp [asks?, used, hplace]

/-- A mechanism remembers a step of a stop exactly if it is stopped by it. -/
theorem Shutdown.Moves.uses_eq {point : Shutdown} {next : Shutdown ⊕ Except Error Unit}
    (hmoves : Shutdown.Moves env coordinator point after moved next) (place : Nat) :
    after.uses? place = (env.uses? place).map fun uses =>
      (uses.1 + 0, uses.2 + used place (point.asks? env).toList) := by
  cases hmoves with
  | cancels | enters | returns => exact Option.map_id'.symm
  | stops member rest errors =>
      rw [Environment.uses_stop]
      by_cases hplace : member.place = place <;> simp [asks?, used, hplace]

/-- Any other step keeps what is to be kept, and whether the coordinator is starting or runs. -/
theorem Node.Step.follows {node after : Node} {label : Label} (hstep : Step node label after)
    (hstartups : node.startups = []) (hshutdowns : node.shutdowns = []) :
    Follows node.env node.coordinator after.env after.coordinator ∧
      after.coordinator.starting = node.coordinator.starting ∧
      after.coordinator.runs = node.coordinator.runs := by
  have hcancelled : node.IsCancelled → after.IsCancelled := hstep.is_cancelled
  cases hstep with
  | startup before call later env coordinator next hcalls hnext => simp [hstartups] at hcalls
  | shutdown before call later env coordinator next hcalls hnext => simp [hshutdowns] at hcalls
  | sweep heedsStop sweeper begun next hsweeper hnext =>
      refine ⟨⟨rfl, hcancelled, fun h => ?_⟩, rfl, rfl⟩
      rw [h.sweeper] at hsweeper
      cases hsweeper
  | evictor heedsStop evictor store next hevictor hnext =>
      refine ⟨⟨rfl, hcancelled, fun h => ?_⟩, rfl, rfl⟩
      rw [h.evictor] at hevictor
      cases hevictor
  | reporter heedsStop reporter store next hreporter hnext =>
      refine ⟨⟨rfl, hcancelled, fun h => ?_⟩, rfl, rfl⟩
      rw [h.reporter] at hreporter
      cases hreporter
  | _ =>
      exact ⟨⟨rfl, hcancelled, fun h => ⟨⟨hcancelled h.cancelled, h.starting, h.runs, h.sweeper,
        h.evictor, h.reporter⟩, id⟩⟩, rfl, rfl⟩

end Keeps

end PeerFinder.Coordinator
