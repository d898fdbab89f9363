import PeerFinder.Proofs.Coordinator.Calls
import PeerFinder.Proofs.Coordinator.Dials
import PeerFinder.Proofs.Coordinator.Lifecycle
import PeerFinder.Proofs.Environment.Timers

/-!
# The timers of a coordinator

A coordinator has three loops with periodic timers, and its mechanisms have more. `Node.Goes` is a step
of a coordinator in which its mechanisms do only what they do by themselves or are called for; all steps
of its own are of this kind (`Node.Step.goes`). If the configuration of a coordinator is valid, then
whatever it comes to, no timer has the period zero, the loops and the tasks of mechanisms go on until a
stop, all deadlines and first ticks are exact, and waits double without bounds but the longest span
(`Node.valid_configurations_keep_time`).
-/

namespace PeerFinder

/-- The timer of an evictor. -/
def Evictor.ticker? : Evictor → Option Ticker
  | .ready => none
  | .waiting ticker => some ticker

/-- The steps of an evictor do to its timer what `Ticker.Moves` lists. -/
theorem Evictor.step_timer {moment : Moment} {evictor : Evictor} {store after : Noted PeerStore}
    {next : Option Evictor} (hstep : evictor.step moment store = some (after, next)) :
    Ticker.Moves store.state.limits.evictionInterval moment.stopping evictor.ticker?
      (next.map ticker?) := by
  cases evictor with
  | ready => exact .of_begin rfl rfl hstep
  | waiting ticker => exact .of_tick (fun _ => rfl) hstep

/-- A step of an evictor keeps the limits. -/
theorem Evictor.limits_step {moment : Moment} {evictor : Evictor} {store after : Noted PeerStore}
    {next : Option Evictor} (hstep : evictor.step moment store = some (after, next)) :
    after.state.limits = store.state.limits := by
  cases evictor with
  | ready =>
      simp only [step] at hstep
      split_ifs at hstep <;> cases hstep <;> rfl
  | waiting ticker =>
      simp only [step] at hstep
      split_ifs at hstep
      · cases hstep
        rfl
      · obtain ⟨_, -, heq⟩ := Option.map_eq_some_iff.1 hstep
        cases heq
        rfl

/-- A step of the dial of a new peer keeps the limits. -/
theorem AutoConnect.limits_step {now : Clock.Instant} {dial : AutoConnect}
    {noted after : Noted (Transport × PeerStore)} {next : Option AutoConnect}
    (hstep : dial.step now noted = some (after, next)) :
    after.state.2.limits = noted.state.2.limits := by
  unfold step at hstep
  cases hcall : dial.call with
  | none =>
      simp only [hcall] at hstep
      cases hstep
      rfl
  | some call =>
      simp only [hcall] at hstep
      obtain ⟨_, -, heq⟩ := Option.map_eq_some_iff.1 hstep
      cases heq
      exact PeerStore.limits_apply _ (.dialed now dial.peer.id _ _)

namespace Coordinator

/-- Taking a sighting in keeps the limits. -/
theorem Intake.limits_accept (intake : Intake) (now : Clock.Instant) (sighting : Sighting)
    (source : String) :
    (intake.accept now sighting source).2.store.limits = intake.store.limits := by
  have hlimits := intake.store.limits_apply (.seen now sighting source)
  unfold accept
  split_ifs
  · rfl
  · dsimp only
    split_ifs
    · rw [announce_eq]
      exact hlimits
    · exact hlimits

/-- The timer of a loop. -/
def Loop.ticker? : Loop → Option Ticker
  | .ready => none
  | .waiting ticker => some ticker

/-- The steps of a sweeper do to its timer what `Ticker.Moves` lists. -/
theorem Sweeper.step_timer {schedule : Schedule} {moment : Moment} {errands after : List Errand}
    {sweeper : Sweeper} {next : Option Sweeper}
    (hstep : Sweeper.step schedule moment errands sweeper = some (after, next)) :
    Ticker.Moves schedule.sweepInterval moment.stopping sweeper.loop.ticker?
      (next.map (·.loop.ticker?)) := by
  obtain ⟨members, loop⟩ := sweeper
  cases loop with
  | ready => exact .of_begin rfl rfl hstep
  | waiting ticker => exact .of_tick (fun _ => rfl) hstep

/-- The steps of a reporter do to its timer what `Ticker.Moves` lists. -/
theorem Reporter.step_timer {schedule : Schedule} {moment : Moment} {store after : Noted PeerStore}
    {reporter : Reporter} {next : Option Reporter}
    (hstep : reporter.step schedule moment store = some (after, next)) :
    Ticker.Moves schedule.statsInterval moment.stopping reporter.loop.ticker?
      (next.map (·.loop.ticker?)) := by
  obtain ⟨loop⟩ := reporter
  cases loop with
  | ready => exact .of_begin rfl rfl hstep
  | waiting ticker => exact .of_tick (fun _ => rfl) hstep

/-- A query keeps its bound. -/
theorem Query.timeout_step {query next : Query} {moment : Moment}
    {answer? : Option (Except Error (List Sighting))} {intake after : Noted Intake}
    (hstep : query.step moment answer? intake = some (after, some next)) :
    next.timeout = query.timeout := by
  unfold step at hstep
  cases hpoint : query.point with
  | ready =>
      simp only [hpoint] at hstep
      split at hstep <;> cases hstep
      rfl
  | asking expires =>
      simp only [hpoint] at hstep
      split at hstep
      · cases hstep
      · split at hstep
        · cases hstep
          rfl
        · cases hstep
        · split at hstep <;> cases hstep
  | ingesting rest found new =>
      cases rest with
      | nil =>
          simp only [hpoint] at hstep
          cases hstep
      | cons sighting rest =>
          simp only [hpoint] at hstep
          split at hstep <;> cases hstep
          rfl
  | accepting sighting rest found new =>
      simp only [hpoint] at hstep
      cases hstep
      rfl

namespace Errand

variable {errand left : Errand} {token : Token} {env after : Environment} {intake taken : Intake}
  {next : Option Errand}

/-- An errand keeps the bound of its query when that goes on. -/
theorem timeout_step_query {answer? : Option (Except Error (List Sighting))}
    (hstep : errand.stepQuery token answer? (env, intake) = some ((after, taken), some left)) :
    left.query.timeout = errand.query.timeout := by
  obtain ⟨⟨noted, query?⟩, hquery, heq⟩ := Option.map_eq_some_iff.1 hstep
  dsimp only at heq
  split at heq
  · cases heq
    rfl
  · obtain ⟨query, rfl, rfl⟩ := Option.map_eq_some_iff.1 (Prod.mk.inj heq).2
    exact Query.timeout_step hquery

/-- An errand keeps the bound of its query. -/
theorem timeout_step (hstep : errand.step token (env, intake) = some ((after, taken), some left)) :
    left.query.timeout = errand.query.timeout := by
  unfold step at hstep
  cases hsearch : errand.search with
  | none =>
      simp only [hsearch] at hstep
      exact timeout_step_query hstep
  | some search =>
      simp only [hsearch] at hstep
      split at hstep
      · exact timeout_step_query hstep
      · split at hstep
        · exact timeout_step_query hstep
        · cases hstep
          rfl
        · exact timeout_step_query hstep

/-- The query of an errand goes on in steps of mechanisms. -/
theorem goes_step_query {answer? : Option (Except Error (List Sighting))}
    (hstep : errand.stepQuery token answer? (env, intake) = some ((after, taken), next)) :
    env.Goes after := by
  obtain ⟨⟨noted, query?⟩, -, heq⟩ := Option.map_eq_some_iff.1 hstep
  have hnoted : env.Goes { env with journal := noted.journal } := .of_mechanisms rfl fun _ h => h
  dsimp only at heq
  split at heq
  · cases heq
    refine hnoted.trans (.trans ?_ (Environment.goes_find _ _ _ _))
    exact .of_mechanisms rfl fun _ h => h
  · cases heq
    cases errand.search with
    | none => exact hnoted
    | some search => exact hnoted.trans (search.goes_abandon _)

/-- An errand goes on in steps of mechanisms. -/
theorem goes_step (hstep : errand.step token (env, intake) = some ((after, taken), next)) :
    env.Goes after := by
  unfold step at hstep
  cases hsearch : errand.search with
  | none =>
      simp only [hsearch] at hstep
      exact goes_step_query hstep
  | some search =>
      simp only [hsearch] at hstep
      split at hstep
      · exact goes_step_query hstep
      · split at hstep
        · exact goes_step_query hstep
        · rename_i moved search hmoves
          cases hstep
          exact Search.goes_step hmoves
        · rename_i moved answer hmoves
          exact (Search.goes_step hmoves).trans (goes_step_query hstep)

end Errand

section Calls

variable {env after : Environment} {coordinator moved : Coordinator}

/-- A start goes on in steps of mechanisms. -/
theorem Startup.goes_step {call : Startup} {next : Startup ⊕ Except Error Unit}
    (hstep : call.step (env, coordinator) = some ((after, moved), next)) : env.Goes after := by
  cases Startup.moves_of_step hstep with
  | again | refused | enters | begins => exact .of_mechanisms rfl fun _ h => h
  | starts => exact Environment.goes_start _ _ _

/-- A stop goes on in steps of mechanisms. -/
theorem Shutdown.goes_step {call : Shutdown} {next : Shutdown ⊕ Except Error Unit}
    (hstep : call.step (env, coordinator) = some ((after, moved), next)) : env.Goes after := by
  cases Shutdown.moves_of_step hstep with
  | enters | returns => exact .of_mechanisms rfl fun _ h => h
  | cancels => exact .of_mechanisms rfl fun _ h => ScopeTree.is_cancelled_cancel_of _ h
  | stops => exact Environment.goes_stop _ _

end Calls

/-- What the timers of the loops are like, and that there are loops as long as they are wanted. -/
structure KeepsLoops (config : Config) (wanted : Prop) (coordinator : Coordinator) : Prop where
  sweeper : Ticker.IsKept (Clock.ofSeconds config.coordinator.sweepInterval) wanted
    (coordinator.sweeper.map (·.loop.ticker?))
  evictor : Ticker.IsKept (Clock.ofSeconds config.store.evictionInterval) wanted
    (coordinator.evictor.map Evictor.ticker?)
  reporter : Ticker.IsKept (Clock.ofSeconds config.coordinator.statsInterval) wanted
    (coordinator.reporter.map (·.loop.ticker?))

/-- Loops are kept that are the same and wanted less. -/
theorem KeepsLoops.of_eq {config : Config} {wanted needed : Prop} {coordinator moved : Coordinator}
    (h : coordinator.KeepsLoops config wanted) (hsweeper : moved.sweeper = coordinator.sweeper)
    (hevictor : moved.evictor = coordinator.evictor) (hreporter : moved.reporter = coordinator.reporter)
    (hneeded : needed → wanted) : moved.KeepsLoops config needed := by
  refine ⟨?_, ?_, ?_⟩
  · rw [hsweeper]
    exact h.sweeper.mono hneeded
  · rw [hevictor]
    exact h.evictor.mono hneeded
  · rw [hreporter]
    exact h.reporter.mono hneeded

/-- Loops that were begun have no timers yet. -/
theorem KeepsLoops.begin {config : Config} {wanted : Prop} {coordinator : Coordinator}
    {started : List Member} : (coordinator.begin started).KeepsLoops config wanted :=
  ⟨.ready, .ready, .ready⟩

/-- Loops may be ended that are not wanted. -/
theorem KeepsLoops.end_loops {config : Config} {wanted : Prop} {coordinator : Coordinator}
    (hunwanted : ¬ wanted) : coordinator.endLoops.KeepsLoops config wanted :=
  ⟨.none hunwanted, .none hunwanted, .none hunwanted⟩

/-- Whether the mechanism of every member keeps time. -/
def MembersKeepTime (config : Config) (state : List Member × Environment) : Prop :=
  ∀ member ∈ state.1, ∃ mechanism, state.2.mechanisms[member.place]? = some mechanism ∧
    mechanism.KeepsTime config state.2.tree

namespace MembersKeepTime

variable {config : Config} {state : List Member × Environment}

/-- The mechanisms of members keep time while their environment goes on. -/
theorem goes (h : MembersKeepTime config state)
    {after : Environment} (hgoes : state.2.Goes after) (hvalid : config.IsValid) :
    MembersKeepTime config (state.1, after) :=
  fun member hmember => hgoes.keeps_time hvalid (h member hmember)

/-- A member is added whose mechanism keeps time. -/
theorem add_if (h : MembersKeepTime config state)
    {wanted : Bool} {add : Environment → Nat × Environment} (hvalid : config.IsValid)
    (hadd : wanted = true → state.2.Gets config (add state.2)) :
    MembersKeepTime config (addIf wanted add state) := by
  cases wanted with
  | false => exact h
  | true =>
      intro member hmember
      rcases List.mem_append.1 hmember with hheld | hadded
      · exact h.goes (hadd rfl).goes hvalid member hheld
      · rw [List.mem_singleton.1 hadded]
        exact (hadd rfl).mechanism

/-- The mechanisms of a valid configuration keep time. -/
theorem of_config (hvalid : config.IsValid) (env : Environment) (hasRouting : Bool) :
    MembersKeepTime config (membersOf config env hasRouting) := by
  have hall : MembersKeepTime config (addIf (config.rendezvous.enabled && hasRouting)
      (·.addRendezvous config.rendezvous.label (Clock.ofSeconds config.rendezvous.advertiseInterval)
        (Clock.ofSeconds config.rendezvous.queryTimeout))
      (addIf (config.seeds.enabled && !config.seeds.addresses.isEmpty)
        (·.addSeedTexts config.seeds.addresses config.seeds.policy)
        (addIf config.localNet.enabled (·.addLocalNet config.localNet.tag config.localNet.services
          (Clock.ofSeconds config.localNet.queryTimeout) false) ([], env)))) := by
    refine add_if (add_if (add_if ?_ hvalid fun _ => ?_) hvalid fun hwanted => ?_) hvalid
      fun hwanted => ?_
    · simp [MembersKeepTime]
    · exact Environment.gets_local_net config _
    · exact Environment.gets_seeds config _ (Bool.and_eq_true_iff.1 hwanted).1
    · exact Environment.gets_rendezvous config _ (Bool.and_eq_true_iff.1 hwanted).1
  unfold membersOf
  dsimp only
  split_ifs
  · exact hall
  · exact hall

end MembersKeepTime

namespace Node

/-- Whether a node may come to be another one with one step, in which its mechanisms do only what they
do by themselves or are called for. -/
def Goes (node after : Node) : Prop :=
  (∃ label, Step node label after) ∧ node.env.Goes after.env

/-- Whether the loops of a node were begun and neither ended nor told to. -/
def IsRunning (node : Node) : Prop :=
  node.coordinator.runs = true ∧ node.env.tree.isCancelled node.coordinator.scope = false

/-- What the timers, tasks and waits of a node are like under a configuration. -/
structure KeepsTime (config : Config) (node : Node) : Prop where
  schedule_eq : node.coordinator.schedule = config.coordinator.schedule
  limits_eq : node.intake.store.limits = config.store.limits
  loops : node.coordinator.KeepsLoops config node.IsRunning
  errands : ∀ errand ∈ node.coordinator.errands,
    errand.query.timeout = Clock.ofSeconds config.coordinator.queryTimeout
  members : MembersKeepTime config (node.coordinator.members, node.env)

variable {config : Config} {node after : Node} {label : Label}

/-- The mechanisms of a node may go on. -/
theorem goes_of_env {env : Environment} (hgoes : node.env.Goes env) :
    node.Goes { node with env := env } :=
  ⟨⟨_, .surroundings node env hgoes.cancelled⟩, hgoes⟩

/-- A start of a node may go on. -/
theorem goes_startup {before later : List Startup} {call : Startup} {env : Environment}
    {coordinator : Coordinator} {next : Startup ⊕ Except Error Unit}
    (hcalls : node.startups = before ++ call :: later)
    (hstep : call.step (node.env, node.coordinator) = some ((env, coordinator), next)) :
    node.Goes { node with
      env := env, coordinator := coordinator
      startups := before ++ next.getLeft?.toList ++ later } :=
  ⟨⟨_, .startup node before call later env coordinator next hcalls hstep⟩, Startup.goes_step hstep⟩

/-- In every step of a node that does not change the surroundings, the mechanisms do only what they
are called for. -/
theorem Step.goes (hstep : Step node label after) :
    (∃ env, after = { node with env := env }) ∨ node.Goes after := by
  have htaken := hstep
  cases hstep with
  | surroundings env => exact .inl ⟨env, rfl⟩
  | query before errand later env intake next herrands hnext =>
      exact .inr ⟨⟨_, htaken⟩, Errand.goes_step hnext⟩
  | startup before call later env coordinator next hcalls hnext =>
      exact .inr (goes_startup hcalls hnext)
  | shutdown before call later env coordinator next hcalls hnext =>
      exact .inr ⟨⟨_, htaken⟩, Shutdown.goes_step hnext⟩
  | _ => exact .inr ⟨⟨_, htaken⟩, .of_mechanisms rfl fun _ h => h⟩

/-- A node of a valid configuration keeps time with every step. -/
theorem Goes.keeps_time (hgoes : node.Goes after) (hvalid : config.IsValid)
    (h : node.KeepsTime config) : after.KeepsTime config := by
  obtain ⟨⟨label, hstep⟩, henv⟩ := hgoes
  obtain ⟨hsweep, heviction, hstats⟩ := hvalid.intervals_ne_zero
  have hmembers : MembersKeepTime config (after.coordinator.members, after.env) := by
    rw [hstep.keeps_setup.2]
    exact h.members.goes henv hvalid
  -- A node that runs after a step ran before it, unless the step begins the loops.
  have hran : after.coordinator.runs = node.coordinator.runs →
      after.coordinator.scope = node.coordinator.scope → after.IsRunning → node.IsRunning := by
    intro hruns hscope hafter
    refine ⟨hruns ▸ hafter.1, Bool.eq_false_iff.2 fun hbefore => ?_⟩
    have hcancelled := henv.cancelled _ hbefore
    rw [← hscope, hafter.2] at hcancelled
    cases hcancelled
  cases hstep with
  | surroundings env hcancelled =>
      exact { h with
        loops := h.loops.of_eq rfl rfl rfl (hran rfl rfl)
        members := hmembers }
  | query before errand later env intake next herrands hnext =>
      have htimeouts := h.errands
      rw [herrands] at htimeouts
      refine { h with
        limits_eq := ?_
        loops := h.loops.of_eq rfl rfl rfl (hran rfl rfl)
        errands := fun left hleft => ?_
        members := hmembers }
      · rw [← h.limits_eq]
        rcases Errand.step_intake hnext with hsame | ⟨sighting, source, -, htaken⟩
        · rw [hsame]
        · rw [htaken, Intake.limits_accept]
      · rcases Seed.Scene.mem_replaced hleft with hheld | hleft
        · exact htimeouts left hheld
        · rw [Option.mem_def.1 hleft] at hnext
          exact (Errand.timeout_step hnext).trans (htimeouts errand (by simp))
  | sweep heedsStop sweeper begun next hsweeper hnext =>
      have hkept := h.loops.sweeper
      have hmoves := Sweeper.step_timer hnext
      rw [hsweeper, Option.map_some] at hkept
      rw [h.schedule_eq] at hmoves
      refine { h with
        loops := { h.loops with sweeper := hkept.step hmoves hsweep And.right }
        errands := fun errand herrand => ?_ }
      rcases List.mem_append.1 herrand with hheld | hbegun
      · exact h.errands errand hheld
      · obtain ⟨_, hsame, hcases⟩ := sweeper_step_cases hnext
        rw [List.append_cancel_left hsame] at hbegun
        rcases hcases with hnone | ⟨hall, -⟩
        · rw [hnone] at hbegun
          cases hbegun
        · rw [hall] at hbegun
          obtain ⟨member, -, rfl⟩ := List.mem_map.1 hbegun
          rw [h.schedule_eq]
          rfl
  | evictor heedsStop evictor store next hevictor hnext =>
      have hkept := h.loops.evictor
      have hmoves := Evictor.step_timer hnext
      have hlimits : node.store.state.limits = config.store.limits := h.limits_eq
      rw [hevictor, Option.map_some] at hkept
      rw [hlimits] at hmoves
      exact { h with
        limits_eq := (Evictor.limits_step hnext).trans h.limits_eq
        loops := { h.loops with evictor := hkept.step hmoves heviction And.right } }
  | reporter heedsStop reporter store next hreporter hnext =>
      have hkept := h.loops.reporter
      have hmoves := Reporter.step_timer hnext
      have hstore : store.state = node.intake.store := Reporter.step_state hnext
      rw [hreporter, Option.map_some] at hkept
      rw [h.schedule_eq] at hmoves
      exact { h with
        limits_eq := (congrArg PeerStore.limits hstore).trans h.limits_eq
        loops := { h.loops with reporter := hkept.step hmoves hstats And.right } }
  | dial before dial later noted next hdials hnext =>
      exact { h with limits_eq := (AutoConnect.limits_step hnext).trans h.limits_eq }
  | found sighting source =>
      exact { h with
        limits_eq := (node.intake.limits_accept _ sighting source).trans h.limits_eq }
  | status id status error =>
      exact { h with
        limits_eq := (PeerStore.limits_apply _ (.dialed _ id status error)).trans h.limits_eq }
  | evict => exact { h with limits_eq := h.limits_eq }
  | observe | subscriptions | start | stop => exact { h with limits_eq := h.limits_eq }
  | startup before call later env coordinator next hcalls hnext =>
      cases Startup.moves_of_step hnext with
      | again | refused | enters =>
          exact { h with loops := h.loops.of_eq rfl rfl rfl (hran rfl rfl) }
      | starts =>
          exact { h with loops := h.loops.of_eq rfl rfl rfl (hran rfl rfl), members := hmembers }
      | begins => exact { h with loops := .begin }
  | shutdown before call later env coordinator next hcalls hnext =>
      cases Shutdown.moves_of_step hnext with
      | cancels | stops =>
          exact { h with loops := h.loops.of_eq rfl rfl rfl (hran rfl rfl), members := hmembers }
      | enters =>
          exact { h with loops := .end_loops fun hafter => by cases hafter.1 }
      | returns => exact { h with loops := h.loops.of_eq rfl rfl rfl (hran rfl rfl) }

/-- The background work of the mechanisms of a node may go on. -/
theorem goes_advance (node : Node) : node.Goes { node with env := node.env.advance.1 } :=
  goes_of_env node.env.goes_advance

/-- The node of a valid configuration keeps time. -/
theorem of_config_keeps_time (hvalid : config.IsValid) (env : Environment) (hasRouting : Bool) :
    (ofConfig config env hasRouting).KeepsTime config where
  schedule_eq := rfl
  limits_eq := rfl
  loops := @KeepsLoops.end_loops config _ (ofConfig config env hasRouting).coordinator
    fun hrunning => by cases hrunning.1
  errands := by simp [ofConfig, Coordinator.ofConfig, create]
  members := (MembersKeepTime.of_config hvalid env hasRouting).goes (Environment.goes_root _) hvalid

/-- The mechanisms of a node. -/
def mechanisms (node : Node) : List Mechanism :=
  node.coordinator.members.filterMap fun member => node.env.mechanisms[member.place]?

/-- The periods that the timers of a node begin with. -/
def periods (node : Node) : List Clock.Span :=
  [node.coordinator.schedule.sweepInterval, node.intake.store.limits.evictionInterval,
    node.coordinator.schedule.statsInterval] ++ node.mechanisms.filterMap Mechanism.period?

/-- The timers of a node. -/
def tickers (node : Node) : List Ticker :=
  (node.coordinator.sweeper.bind (·.loop.ticker?)).toList ++
    (node.coordinator.evictor.bind Evictor.ticker?).toList ++
    (node.coordinator.reporter.bind (·.loop.ticker?)).toList ++
    node.mechanisms.flatMap Mechanism.tickers

/-- The spans from which a node computes the deadlines of queries and the first ticks of timers. -/
def spans (node : Node) : List Clock.Span :=
  [node.coordinator.schedule.queryTimeout, node.intake.store.limits.evictionInterval,
    node.coordinator.schedule.statsInterval] ++
    node.coordinator.errands.map (·.query.timeout) ++ node.mechanisms.filterMap Mechanism.span?

namespace KeepsTime

/-- The mechanisms of a node keep time. -/
theorem of_mem_mechanisms (h : node.KeepsTime config) {mechanism : Mechanism}
    (hmem : mechanism ∈ node.mechanisms) : mechanism.KeepsTime config node.env.tree := by
  obtain ⟨member, hmember, hplace⟩ := List.mem_filterMap.1 hmem
  obtain ⟨own, hown, hkeeps⟩ := h.members member hmember
  rw [hplace] at hown
  cases hown
  exact hkeeps

/-- No timer of a node of a valid configuration has the period zero. -/
theorem period_ne_zero (h : node.KeepsTime config) (hvalid : config.IsValid) :
    ∀ period ∈ node.periods, period ≠ 0 := by
  obtain ⟨hsweep, heviction, hstats⟩ := hvalid.intervals_ne_zero
  intro period hperiod
  rw [periods, h.schedule_eq, h.limits_eq] at hperiod
  simp only [List.cons_append, List.nil_append, List.mem_cons, List.mem_filterMap] at hperiod
  rcases hperiod with rfl | rfl | rfl | ⟨mechanism, hmem, hperiod⟩
  · exact hsweep
  · exact heviction
  · exact hstats
  · exact (h.of_mem_mechanisms hmem).period_ne_zero hvalid period hperiod

/-- All timers of a node have one of its periods. -/
theorem ticker_period (h : node.KeepsTime config) :
    ∀ ticker ∈ node.tickers, ticker.period ∈ node.periods := by
  intro ticker hticker
  simp only [tickers, List.mem_append, Option.mem_toList, List.mem_flatMap] at hticker
  rw [periods, h.schedule_eq, h.limits_eq]
  rcases hticker with ((hticker | hticker) | hticker) | ⟨mechanism, hmem, hticker⟩
  · rw [h.loops.sweeper.period_of_bind hticker]
    simp [CoordinatorSettings.schedule]
  · rw [h.loops.evictor.period_of_bind hticker]
    simp [StoreSettings.limits]
  · rw [h.loops.reporter.period_of_bind hticker]
    simp [CoordinatorSettings.schedule]
  · have hperiod := (h.of_mem_mechanisms hmem).ticker_period ticker hticker
    exact List.mem_append_right _ (List.mem_filterMap.2 ⟨mechanism, hmem, hperiod⟩)

/-- A node computes deadlines and first ticks from durations of its configuration. -/
theorem span_mem (h : node.KeepsTime config) : ∀ span ∈ node.spans, span ∈ config.spans := by
  intro span hspan
  rw [spans, h.schedule_eq, h.limits_eq] at hspan
  simp only [List.cons_append, List.nil_append, List.mem_cons, List.mem_append, List.mem_map,
    List.mem_filterMap] at hspan
  rcases hspan with rfl | rfl | rfl | ⟨errand, herrand, rfl⟩ | ⟨mechanism, hmem, hspan⟩
  · simp [Config.spans, Config.durations, CoordinatorSettings.schedule]
  · simp [Config.spans, Config.durations, StoreSettings.limits]
  · simp [Config.spans, Config.durations, CoordinatorSettings.schedule]
  · rw [h.errands errand herrand]
    simp [Config.spans, Config.durations]
  · exact (h.of_mem_mechanisms hmem).span_mem span hspan

/-- The loops of a node that runs are there. -/
theorem has_loops (h : node.KeepsTime config) (hrunning : node.IsRunning) :
    node.coordinator.sweeper.isSome = true ∧ node.coordinator.evictor.isSome = true ∧
      node.coordinator.reporter.isSome = true :=
  ⟨h.loops.sweeper.is_some_of_map hrunning, h.loops.evictor.is_some_of_map hrunning,
    h.loops.reporter.is_some_of_map hrunning⟩

/-- The wait of a dial has doubled with every try after the first one, up to the longest span. -/
theorem backoff_eq (h : node.KeepsTime config) {service : Seed.Service}
    (hmem : .seeds service ∈ node.mechanisms) {dial : Seed.Dial} (hdial : dial ∈ service.dials)
    {attempt : Nat} {backoff : Clock.Span}
    (hattempt : dial.point.attempt? = some (attempt, backoff)) :
    0 < attempt ∧ backoff =
      min (2 ^ (attempt - 1) * Clock.ofSeconds config.seeds.initialBackoff) Clock.longest := by
  cases h.of_mem_mechanisms hmem with
  | seeds _ henabled hservice hwatched =>
      obtain ⟨count, hcount⟩ := hservice.attempts dial hdial _ hattempt
      cases hcount
      exact ⟨Nat.succ_pos count, Clock.iterate_double (Clock.of_seconds_le_longest _) count⟩

end KeepsTime

/-- However a node of a valid configuration goes on, its timers have periods that are not zero, the
loops are there while it runs, and every mechanism that was not stopped has the background work that it
is to have. Deadlines and first ticks are computed from durations of the configuration, whose ends every
clock reaches that has a year left, and the wait of a dial doubles with every try, up to the longest
span. -/
theorem valid_configurations_keep_time {env : Environment} {hasRouting : Bool}
    (hvalid : config.validate = .ok ())
    (hgoes : Relation.ReflTransGen Goes (ofConfig config env hasRouting) node) :
    (∀ period ∈ node.periods, period ≠ 0) ∧
    (∀ ticker ∈ node.tickers, ticker.period ∈ node.periods) ∧
    (node.IsRunning → node.coordinator.sweeper.isSome = true ∧
      node.coordinator.evictor.isSome = true ∧ node.coordinator.reporter.isSome = true) ∧
    (∀ member ∈ node.coordinator.members, ∃ mechanism,
      node.env.mechanisms[member.place]? = some mechanism ∧ mechanism.IsStaffed node.env.tree) ∧
    (∀ span ∈ node.spans, span ∈ config.spans) ∧
    (∀ span ∈ config.spans, Clock.IsExact span) ∧
    ∀ service, .seeds service ∈ node.mechanisms → ∀ dial ∈ service.dials, ∀ attempt backoff,
      dial.point.attempt? = some (attempt, backoff) → 0 < attempt ∧ backoff =
        min (2 ^ (attempt - 1) * Clock.ofSeconds config.seeds.initialBackoff) Clock.longest := by
  rw [Config.validate_eq_ok_iff] at hvalid
  have hkeeps : node.KeepsTime config := by
    induction hgoes with
    | refl => exact of_config_keeps_time hvalid env hasRouting
    | tail _ hstep ih => exact hstep.keeps_time hvalid ih
  refine ⟨hkeeps.period_ne_zero hvalid, hkeeps.ticker_period, hkeeps.has_loops, ?_, hkeeps.span_mem,
    fun span => hvalid.is_exact, ?_⟩
  · intro member hmember
    obtain ⟨mechanism, hplace, hmechanism⟩ := hkeeps.members member hmember
    exact ⟨mechanism, hplace, hmechanism.is_staffed⟩
  · intro service hmem dial hdial attempt backoff hattempt
    exact hkeeps.backoff_eq hmem hdial hattempt

/-- A configuration that lets a node advertise itself. -/
def advertising : Config where
  localNet := { enabled := false }
  rendezvous := { enabled := true }

/-- A node of that configuration that was started waits for the ticks of its sweeper and of its
publisher. -/
theorem valid_configurations_keep_time_advertising :
    ∃ node, advertising.validate = .ok () ∧
      Relation.ReflTransGen Goes (ofConfig advertising { transport := { localId := ownId } } true)
        node ∧
      node.IsRunning ∧ node.tickers.map Ticker.period = [30000, 60000] ∧
      ∀ ticker ∈ node.tickers, ticker.period ≠ 0 := by
  have hvalid : advertising.validate = .ok () := by decide
  have hcalled : (ofConfig advertising { transport := { localId := ownId } } true).Goes _ :=
    ⟨⟨_, .start _⟩, .of_mechanisms rfl fun _ h => h⟩
  have hentered := (Relation.ReflTransGen.single hcalled).tail
    (@goes_startup _ [] [] .entering _ _ _ rfl rfl)
  have hstarted := hentered.tail (@goes_startup _ [] [] (.starting [⟨0, "dht"⟩] []) _ _ _ rfl rfl)
  have hbegun := hstarted.tail (@goes_startup _ [] [] (.starting [] [⟨0, "dht"⟩]) _ _ _ rfl rfl)
  have hswept := hbegun.tail (⟨⟨_, .sweep _ true _ [] _ rfl rfl⟩, .of_mechanisms rfl fun _ h => h⟩)
  have hadvanced := hswept.tail (goes_advance _)
  obtain ⟨hperiods, htickers, -⟩ := valid_configurations_keep_time hvalid hadvanced
  refine ⟨_, hvalid, hadvanced, ⟨rfl, rfl⟩, rfl, fun ticker hticker => ?_⟩
  exact hperiods _ (htickers ticker hticker)

end Node

end Coordinator

end PeerFinder
