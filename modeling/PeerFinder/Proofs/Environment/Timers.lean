import PeerFinder.Mechanism.Assembly
import PeerFinder.Proofs.Config.Durations
import PeerFinder.Proofs.Environment.Steps
import PeerFinder.Proofs.Seed.Shutdown

/-!
# The timers of mechanisms

The supervisors of seeds and the publisher of the routing table have periodic timers. With a period of
zero they would never begin; with the intervals of a valid configuration they begin, and end only
after a stop. `Mechanism.KeepsTime` says what timers, tasks and waits are like for the mechanisms of a
valid configuration, and that it stays so while an environment goes on (`Environment.Goes.keeps_time`).
-/

namespace PeerFinder

namespace Ticker

/-- A timer that is fired keeps its period. -/
theorem period_fire {ticker fired : Ticker} {now : Clock.Instant}
    (hfired : ticker.fire? now = some fired) : fired.period = ticker.period := by
  unfold fire? at hfired
  split_ifs at hfired
  cases hfired
  rfl

/-- What one step of a task with a periodic timer can do, given its interval and whether it was told
to stop. A task that has not begun has no timer yet; what is left of it has none or one, or nothing is
left of it. -/
inductive Moves (interval : Clock.Span) (stopping : Bool) :
    Option Ticker → Option (Option Ticker) → Prop where
  /-- Its interval is zero and it does not begin. -/
  | unfit (hinterval : interval = 0) : Moves interval stopping none none
  | begun (ticker : Ticker) (hperiod : ticker.period = interval) :
      Moves interval stopping none (some (some ticker))
  | kept (ticker left : Ticker) (hperiod : left.period = ticker.period) :
      Moves interval stopping (some ticker) (some (some left))
  | stopped (ticker : Ticker) (hstopping : stopping = true) :
      Moves interval stopping (some ticker) none

namespace Moves

variable {σ α : Type} {timer : α → Option Ticker} {interval : Clock.Span} {state begun after : σ}
  {next : Option α}

/-- A task begins with a timer of its interval, unless that is zero. -/
theorem of_begin {stopping : Bool} {task : α} {ticker : Ticker} (htimer : timer task = some ticker)
    (hperiod : ticker.period = interval)
    (hstep : (if interval = 0 then some (state, none) else some (begun, some task)) =
      some (after, next)) : Moves interval stopping none (next.map timer) := by
  split_ifs at hstep with hzero <;> cases hstep
  · exact .unfit hzero
  · rw [Option.map_some, htimer]
    exact .begun ticker hperiod

/-- A task that waits for its timer goes on when that is fired, or ends by the stop. -/
theorem of_tick {moment : Moment} {ticker : Ticker} {resume : Ticker → σ × Option α}
    (hresume : ∀ fired, (resume fired).2.map timer = some (some fired))
    (hstep : (if moment.stops (ticker.fire? moment.now).isSome = true then some (state, none)
      else (ticker.fire? moment.now).map resume) = some (after, next)) :
    Moves interval moment.stopping (some ticker) (next.map timer) := by
  split_ifs at hstep with hstops
  · cases hstep
    exact .stopped ticker (Bool.and_eq_true_iff.1 hstops).1
  · obtain ⟨fired, hfired, heq⟩ := Option.map_eq_some_iff.1 hstep
    have hnext := hresume fired
    rw [heq] at hnext
    rw [hnext]
    exact .kept ticker fired (period_fire hfired)

end Moves

/-- What the timer of a task is like, if there is such a task, and that there is one as long as it is
wanted. -/
structure IsKept (interval : Clock.Span) (wanted : Prop) (task : Option (Option Ticker)) : Prop where
  period_eq : ∀ timer ∈ task, ∀ ticker ∈ timer, ticker.period = interval
  is_some : wanted → task.isSome = true

namespace IsKept

variable {interval : Clock.Span} {wanted needed : Prop} {stopping : Bool} {before : Option Ticker}
  {task after : Option (Option Ticker)}

/-- A task that is about to begin has no timer yet. -/
theorem ready : IsKept interval wanted (some none) :=
  ⟨by simp, fun _ => rfl⟩

/-- There need not be a task that is not wanted. -/
theorem none (hunwanted : ¬ wanted) : IsKept interval wanted Option.none :=
  ⟨by simp, fun h => absurd h hunwanted⟩

/-- A task is kept that is wanted less. -/
theorem mono (h : IsKept interval wanted task) (hneeded : needed → wanted) :
    IsKept interval needed task :=
  ⟨h.period_eq, fun hwanted => h.is_some (hneeded hwanted)⟩

/-- A task is there that is wanted. -/
theorem is_some_of_map {α : Type} {timer : α → Option Ticker} {held : Option α}
    (h : IsKept interval wanted (held.map timer)) (hwanted : wanted) : held.isSome = true := by
  rw [← Option.isSome_map]
  exact h.is_some hwanted

/-- The timer of a task that is there has the interval of the task for its period. -/
theorem period_of_bind {α : Type} {timer : α → Option Ticker} {held : Option α}
    (h : IsKept interval wanted (held.map timer)) {ticker : Ticker}
    (hticker : ticker ∈ held.bind timer) : ticker.period = interval := by
  obtain ⟨own, hown, htimer⟩ := Option.bind_eq_some_iff.1 hticker
  exact h.period_eq (timer own) (by rw [hown]; rfl) ticker htimer

/-- A task that is not stopped while it is wanted is kept by its steps, unless its interval is zero. -/
theorem step (h : IsKept interval wanted (some before)) (hmoves : Moves interval stopping before after)
    (hinterval : interval ≠ 0) (hrunning : wanted → stopping = false) :
    IsKept interval wanted after := by
  have hperiod := h.period_eq before rfl
  cases hmoves with
  | unfit hzero => exact absurd hzero hinterval
  | begun ticker hbegun => exact ⟨by simpa using hbegun, fun _ => rfl⟩
  | kept ticker left hkept =>
      have hsame := hperiod ticker rfl
      exact ⟨by simpa [hkept] using hsame, fun _ => rfl⟩
  | stopped ticker hstopping =>
      exact none fun hwanted => by simp [hrunning hwanted] at hstopping

end IsKept

end Ticker

namespace Seed

/-- The timer of a supervisor. -/
def Supervisor.Point.ticker? : Point → Option Ticker
  | .waiting ticker | .looked ticker _ | .claimed ticker | .redialing ticker _
  | .redialed ticker _ => some ticker
  | .ready | .ending => none

/-- The number of the present try of a dial, and the wait that follows it. -/
def Dial.Point.attempt? : Point → Option (Nat × Clock.Span)
  | .ready attempt backoff | .trying attempt backoff _ | .resting attempt backoff _ =>
      some (attempt, backoff)
  | .ending _ => none

variable {policy : Policy} {moment : Moment} {board after : Noted Board}

/-- A supervisor begins with a timer of the interval and keeps the period of its timer. -/
theorem Supervisor.step_ticker {supervisor left : Supervisor}
    (hstep : supervisor.step policy moment board = some (after, some left)) {ticker : Ticker}
    (hticker : ticker ∈ left.point.ticker?) :
    ticker.period = policy.superviseInterval ∨
      ∃ old ∈ supervisor.point.ticker?, ticker.period = old.period := by
  obtain ⟨seed, point⟩ := supervisor
  cases point with
  | ready =>
      simp only [step, goTo] at hstep
      split_ifs at hstep <;> cases hstep
      cases hticker
      exact .inl rfl
  | waiting old =>
      refine .inr ⟨old, rfl, ?_⟩
      simp only [step, goTo] at hstep
      split_ifs at hstep
      · cases hstep
        cases hticker
      · obtain ⟨fired, hfired, heq⟩ := Option.map_eq_some_iff.1 hstep
        cases heq
        cases hticker
        exact Ticker.period_fire hfired
  | looked old connected =>
      refine .inr ⟨old, rfl, ?_⟩
      have hresult := (look_result ⟨seed, .looked old connected⟩ old connected moment.now board).2 left
        (by rw [Option.some.inj hstep]; rfl)
      rcases hresult with hpoint | hpoint <;> rw [hpoint] at hticker <;> cases hticker <;> rfl
  | claimed old =>
      refine .inr ⟨old, rfl, ?_⟩
      simp only [step, goTo] at hstep
      split_ifs at hstep <;> cases hstep <;> cases hticker <;> rfl
  | redialing old call =>
      refine .inr ⟨old, rfl, ?_⟩
      obtain ⟨_, -, heq⟩ := Option.map_eq_some_iff.1 hstep
      cases heq
      cases hticker
      rfl
  | redialed old outcome =>
      refine .inr ⟨old, rfl, ?_⟩
      have hresult := (settle_result ⟨seed, .redialed old outcome⟩ old outcome moment.now board).2 left
        (by rw [Option.some.inj hstep]; rfl)
      rw [hresult] at hticker
      cases hticker
      rfl
  | ending => cases hstep

/-- A dial stays at its try, or begins the next one and doubles the wait. -/
theorem Dial.step_attempt {dial left : Dial}
    (hstep : dial.step policy moment board = some (after, some left)) {attempt : Nat × Clock.Span}
    (hattempt : attempt ∈ left.point.attempt?) :
    attempt ∈ dial.point.attempt? ∨
      ∃ old ∈ dial.point.attempt?, attempt = (old.1 + 1, Clock.double old.2) := by
  obtain ⟨seed, point⟩ := dial
  cases point with
  | ready number backoff =>
      simp only [step, goTo, conclude, afterTry] at hstep
      split_ifs at hstep <;> cases hstep <;> first | exact .inl hattempt | cases hattempt
  | trying number backoff call =>
      obtain ⟨⟨outcome, transport⟩, -, heq⟩ := Option.map_eq_some_iff.1 hstep
      cases heq
      cases outcome with
      | ok => cases hattempt
      | error error =>
          simp only [afterTry] at hattempt
          split_ifs at hattempt
          · cases hattempt
          · exact .inl hattempt
          · cases hattempt
  | resting number backoff resume =>
      simp only [step, goTo] at hstep
      split_ifs at hstep <;> cases hstep <;> cases hattempt
      exact .inr ⟨(number, backoff), rfl, rfl⟩
  | ending connected => cases hstep

/-- What timers of supervisors and waits of dials are like under a policy. -/
structure Service.KeepsTime (policy : Policy) (service : Service) : Prop where
  policy_eq : service.policy = policy
  tickers : ∀ supervisor ∈ service.supervisors, ∀ ticker ∈ supervisor.point.ticker?,
    ticker.period = policy.superviseInterval
  /-- Tries are counted from one, and the wait after the first one has doubled with every other. -/
  attempts : ∀ dial ∈ service.dials, ∀ attempt ∈ dial.point.attempt?,
    ∃ count, attempt = (count + 1, Clock.double^[count] policy.initialBackoff)

namespace Scene

variable {scene after : Scene} {label : Label} {labels : List Label}

/-- A step keeps timers and waits to the policy. -/
theorem Step.keeps_time (hstep : Step scene label after) (h : scene.service.KeepsTime policy) :
    after.service.KeepsTime policy := by
  have hpolicy := hstep.policy_eq.trans h.policy_eq
  have htickers := h.tickers
  have hattempts := h.attempts
  cases hstep with
  | surroundings | stop | begin | abandon => exact h
  | add seed =>
      unfold Service.addSeed
      split_ifs <;> exact ⟨h.policy_eq, htickers, hattempts⟩
  | sweep before sweep later service next hsweeps hnext =>
      cases Sweep.step_moves hnext with
      | read | finished | passed => exact h
      | dialed seed rest hfree =>
          refine ⟨h.policy_eq, htickers, fun dial hdial attempt hattempt => ?_⟩
          rcases List.mem_append.1 hdial with hheld | hbegun
          · exact hattempts dial hheld attempt hattempt
          · rw [List.mem_singleton.1 hbegun] at hattempt
            cases hattempt
            exact ⟨0, by rw [h.policy_eq]; rfl⟩
  | dial moment before dial later watching recruits board next _ _ hdials hsupervisors hnext =>
      rw [hdials] at hattempts
      rw [hsupervisors] at htickers
      refine ⟨hpolicy, fun supervisor hsupervisor ticker hticker => ?_,
        fun left hleft attempt hattempt => ?_⟩
      · obtain ⟨called, hrecruits, hcalled⟩ := (Dial.step_moves hnext).recruits_eq
        simp only [withWork, hrecruits, ← List.append_assoc] at hsupervisor
        rcases List.mem_append.1 hsupervisor with hheld | hnew
        · exact htickers supervisor hheld ticker hticker
        · rw [hcalled supervisor hnew] at hticker
          cases hticker
      · rcases mem_replaced hleft with hheld | hleft
        · exact hattempts left hheld attempt hattempt
        · rw [Option.mem_def.1 hleft] at hnext
          have hown := hattempts dial (by simp)
          rcases Dial.step_attempt hnext hattempt with hkept | ⟨old, hold, rfl⟩
          · exact hown attempt hkept
          · obtain ⟨count, rfl⟩ := hown old hold
            exact ⟨count + 1, by rw [Function.iterate_succ_apply']⟩
  | supervisor moment before supervisor later recruits board next _ _ hsupervisors hnext =>
      rw [hsupervisors] at htickers
      refine ⟨hpolicy, fun left hleft ticker hticker => ?_, hattempts⟩
      rcases mem_replaced hleft with hheld | hleft
      · exact htickers left hheld ticker hticker
      · rw [Option.mem_def.1 hleft] at hnext
        rcases Supervisor.step_ticker hnext hticker with hbegun | ⟨old, hold, hkept⟩
        · rw [hbegun, h.policy_eq]
        · rw [hkept, htickers supervisor (by simp) old hold]

/-- Steps keep timers and waits to the policy. -/
theorem Path.keeps_time (hpath : Path scene labels after) (h : scene.service.KeepsTime policy) :
    after.service.KeepsTime policy := by
  induction hpath with
  | refl => exact h
  | step labels middle label after _ hstep ih => exact hstep.keeps_time ih

/-- Steps keep the token of the mechanism. -/
theorem Path.shutdown_eq (hpath : Path scene labels after) :
    after.service.shutdown = scene.service.shutdown := by
  induction hpath with
  | refl => rfl
  | step labels middle label after _ hstep ih =>
      rw [← ih]
      cases hstep with
      | surroundings | stop | begin | abandon | dial | supervisor => rfl
      | add seed =>
          unfold Service.addSeed
          split_ifs <;> rfl
      | sweep before sweep later service next hsweeps hnext =>
          cases Sweep.step_moves hnext <;> rfl

/-- A mechanism that was not stopped along a path keeps every connected seed watched. -/
theorem Path.keeps_watch (hpath : Path scene labels after)
    (hinterval : scene.service.policy.superviseInterval ≠ 0) (hstopping : after.stopping = false)
    (h : AreWatched scene.service.flags scene.service.supervisors) :
    after.service.policy = scene.service.policy ∧
      AreWatched after.service.flags after.service.supervisors := by
  induction hpath with
  | refl => exact ⟨rfl, h⟩
  | step labels middle label after _ hstep ih =>
      have hrunning := hstep.stopping_of_stopping hstopping
      obtain ⟨hpolicy, hwatched⟩ := ih hrunning
      exact ⟨hstep.policy_eq.trans hpolicy,
        hstep.are_watched (hpolicy ▸ hinterval) hrunning hwatched⟩

end Scene

end Seed

namespace Rendezvous

/-- The timer of a publisher. -/
def Publisher.ticker? : Publisher → Option Ticker
  | .waiting ticker | .providing ticker _ => some ticker
  | .ready => none

/-- The steps of a publisher do to its timer what `Ticker.Moves` lists. -/
theorem Publisher.step_timer {κ : Type} [DecidableEq κ] {advertisement : Advertisement}
    {moment : Moment} {routing after : Noted (Routing κ)} {publisher : Publisher}
    {next : Option Publisher}
    (hstep : publisher.step advertisement moment routing = some (after, next)) :
    Ticker.Moves advertisement.interval moment.stopping publisher.ticker? (next.map ticker?) := by
  cases publisher with
  | ready => exact .of_begin rfl rfl hstep
  | waiting ticker => exact .of_tick (fun _ => rfl) hstep
  | providing ticker call =>
      simp only [step] at hstep
      split_ifs at hstep
      · cases hstep
        exact .kept ticker ticker rfl
      · obtain ⟨_, -, heq⟩ := Option.map_eq_some_iff.1 hstep
        cases heq
        exact .kept ticker ticker rfl

/-- What the timer of a publisher is like, and that there is one as long as the mechanism publishes. -/
structure Service.KeepsTime (interval queryTimeout : Clock.Span) (cancelled : Bool)
    (service : Service) : Prop where
  interval_eq : service.advertisement.interval = interval
  timeout_eq : service.queryTimeout = queryTimeout
  publisher : Ticker.IsKept interval (cancelled = false ∧ service.publishes = true)
    (service.publisher.map Publisher.ticker?)

end Rendezvous

/-- What the timers, tasks and waits of a mechanism are like under a configuration, given what was
cancelled. -/
inductive Mechanism.KeepsTime (config : Config) (tree : ScopeTree) : Mechanism → Prop where
  | localNet (service : LocalNet.Service)
      (htimeout : service.queryTimeout = Clock.ofSeconds config.localNet.queryTimeout) :
      KeepsTime config tree (.localNet service)
  | seeds (service : Seed.Service) (henabled : config.seeds.enabled = true)
      (hservice : service.KeepsTime config.seeds.policy)
      (hwatched : tree.isCancelled service.shutdown = false →
        Seed.AreWatched service.flags service.supervisors) :
      KeepsTime config tree (.seeds service)
  | rendezvous (service : Rendezvous.Service) (henabled : config.rendezvous.enabled = true)
      (hservice : service.KeepsTime (Clock.ofSeconds config.rendezvous.advertiseInterval)
        (Clock.ofSeconds config.rendezvous.queryTimeout) (tree.isCancelled service.shutdown)) :
      KeepsTime config tree (.rendezvous service)

variable {config : Config} {tree grown : ScopeTree} {mechanism next : Mechanism}

/-- A mechanism keeps time when tokens are cancelled. -/
theorem Mechanism.KeepsTime.mono (h : mechanism.KeepsTime config tree)
    (hcancelled : ∀ token, tree.isCancelled token = true → grown.isCancelled token = true) :
    mechanism.KeepsTime config grown := by
  have hrunning : ∀ token, grown.isCancelled token = false → tree.isCancelled token = false :=
    fun token hgrown => Bool.eq_false_iff.2 fun h => by simp [hcancelled token h] at hgrown
  cases h with
  | localNet service htimeout => exact .localNet service htimeout
  | seeds service henabled hservice hwatched =>
      exact .seeds service henabled hservice fun hgrown => hwatched (hrunning _ hgrown)
  | rendezvous service henabled hservice =>
      exact .rendezvous service henabled { hservice with
        publisher := hservice.publisher.mono fun hgrown => ⟨hrunning _ hgrown.1, hgrown.2⟩ }

/-- A mechanism of a valid configuration keeps time with every step. -/
theorem Mechanism.Step.keeps_time (hstep : Step tree mechanism next) (hvalid : config.IsValid)
    (h : mechanism.KeepsTime config tree) : next.KeepsTime config tree := by
  cases hstep with
  | localNet service queue listeners bound =>
      cases h with
      | localNet _ htimeout => exact .localNet _ htimeout
  | seeds before labels after hpath hstopping =>
      cases h with
      | seeds _ henabled hservice hwatched =>
          have hinterval : before.service.policy.superviseInterval ≠ 0 := by
            rw [hservice.policy_eq]
            exact Clock.of_seconds_ne_zero.2 (hvalid.seeds henabled).2
          refine .seeds _ henabled (hpath.keeps_time hservice) fun hrunning => ?_
          rw [hpath.shutdown_eq] at hrunning
          exact (hpath.keeps_watch hinterval (hstopping.trans hrunning) (hwatched hrunning)).2
  | publish service now =>
      cases h with
      | rendezvous _ henabled hservice =>
          refine .rendezvous _ henabled ?_
          unfold Rendezvous.Service.publish
          split_ifs
          · exact hservice
          · exact { hservice with publisher := .ready }
  | publisher service publisher moment routing after left hpublisher hstopping hnext =>
      cases h with
      | rendezvous _ henabled hservice =>
          have hkept := hservice.publisher
          have hmoves := Rendezvous.Publisher.step_timer hnext
          rw [hpublisher, Option.map_some] at hkept
          rw [hservice.interval_eq] at hmoves
          exact .rendezvous _ henabled { hservice with
            publisher := hkept.step hmoves (Clock.of_seconds_ne_zero.2 (hvalid.rendezvous henabled).1)
              fun hwanted => hstopping.trans hwanted.1 }
  | close service routing =>
      cases h with
      | rendezvous _ henabled hservice =>
          exact .rendezvous _ henabled { hservice with
            publisher := .none fun hwanted => by cases hwanted.2 }
  | scripted => cases h

/-- The mechanism of a place keeps time while its environment goes on. -/
theorem Environment.Goes.keeps_time {env after : Environment} {place : Nat}
    (hgoes : env.Goes after) (hvalid : config.IsValid)
    (hplace : ∃ mechanism, env.mechanisms[place]? = some mechanism ∧
      mechanism.KeepsTime config env.tree) :
    ∃ mechanism, after.mechanisms[place]? = some mechanism ∧
      mechanism.KeepsTime config after.tree := by
  induction hgoes with
  | refl => exact hplace
  | tail _ hstep ih =>
      obtain ⟨mechanism, hmechanism, hkeeps⟩ := ih
      cases hstep with
      | around _ hmechanisms hcancelled =>
          obtain ⟨hlt, hheld⟩ := List.getElem?_eq_some_iff.1 hmechanism
          refine ⟨mechanism, ?_, hkeeps.mono hcancelled⟩
          rw [List.prefix_iff_getElem?.1 hmechanisms place hlt, hheld]
      | mechanism other before next hbefore hnext =>
          by_cases hsame : other = place
          · subst hsame
            rw [hmechanism] at hbefore
            cases hbefore
            have hlt := (List.getElem?_eq_some_iff.1 hmechanism).1
            exact ⟨next, List.getElem?_set_self hlt, hnext.keeps_time hvalid hkeeps⟩
          · exact ⟨mechanism, (List.getElem?_set_ne hsame).trans hmechanism, hkeeps⟩

/-- The period of the timers of a mechanism. -/
def Mechanism.period? : Mechanism → Option Clock.Span
  | .seeds service => some service.policy.superviseInterval
  | .rendezvous service => some service.advertisement.interval
  | .localNet _ | .scripted _ => none

/-- The timers of a mechanism. -/
def Mechanism.tickers : Mechanism → List Ticker
  | .seeds service => service.supervisors.filterMap (·.point.ticker?)
  | .rendezvous service => (service.publisher.bind Rendezvous.Publisher.ticker?).toList
  | .localNet _ | .scripted _ => []

/-- The span from which a mechanism computes the deadlines of queries or the first ticks of timers. -/
def Mechanism.span? : Mechanism → Option Clock.Span
  | .localNet service => some service.queryTimeout
  | .seeds service => some service.policy.superviseInterval
  | .rendezvous service => some service.queryTimeout
  | .scripted _ => none

/-- Whether a mechanism that was not stopped has the background work that it is to have: a supervisor
for every seed under supervision, and a publisher if it publishes. -/
def Mechanism.IsStaffed (tree : ScopeTree) : Mechanism → Prop
  | .seeds service => tree.isCancelled service.shutdown = false →
      Seed.AreWatched service.flags service.supervisors
  | .rendezvous service => tree.isCancelled service.shutdown = false → service.publishes = true →
      service.publisher.isSome = true
  | .localNet _ | .scripted _ => True

namespace Mechanism.KeepsTime

/-- The timers of a mechanism of a valid configuration have a period that is not zero. -/
theorem period_ne_zero (h : mechanism.KeepsTime config tree) (hvalid : config.IsValid) :
    ∀ period ∈ mechanism.period?, period ≠ 0 := by
  cases h with
  | localNet => simp [period?]
  | seeds service henabled hservice hwatched =>
      simp only [period?, Option.mem_some, forall_eq', hservice.policy_eq]
      exact Clock.of_seconds_ne_zero.2 (hvalid.seeds henabled).2
  | rendezvous service henabled hservice =>
      simp only [period?, Option.mem_some, forall_eq', hservice.interval_eq]
      exact Clock.of_seconds_ne_zero.2 (hvalid.rendezvous henabled).1

/-- All timers of a mechanism have its period. -/
theorem ticker_period (h : mechanism.KeepsTime config tree) :
    ∀ ticker ∈ mechanism.tickers, ticker.period ∈ mechanism.period? := by
  intro ticker hticker
  cases h with
  | localNet => cases hticker
  | seeds service henabled hservice hwatched =>
      obtain ⟨supervisor, hmem, hpoint⟩ := List.mem_filterMap.1 hticker
      rw [period?, hservice.policy_eq, hservice.tickers supervisor hmem ticker hpoint]
      rfl
  | rendezvous service henabled hservice =>
      rw [tickers, Option.mem_toList] at hticker
      rw [period?, hservice.interval_eq, hservice.publisher.period_of_bind hticker]
      rfl

/-- A mechanism computes deadlines and first ticks from durations of the configuration. -/
theorem span_mem (h : mechanism.KeepsTime config tree) :
    ∀ span ∈ mechanism.span?, span ∈ config.spans := by
  intro span hspan
  cases h with
  | localNet service htimeout =>
      cases hspan
      rw [htimeout]
      simp [Config.spans, Config.durations]
  | seeds service henabled hservice hwatched =>
      cases hspan
      rw [hservice.policy_eq]
      simp [Config.spans, Config.durations, SeedSettings.policy]
  | rendezvous service henabled hservice =>
      cases hspan
      rw [hservice.timeout_eq]
      simp [Config.spans, Config.durations]

/-- A mechanism that keeps time has the background work that it is to have. -/
theorem is_staffed (h : mechanism.KeepsTime config tree) : mechanism.IsStaffed tree := by
  cases h with
  | localNet => trivial
  | seeds service henabled hservice hwatched => exact hwatched
  | rendezvous service henabled hservice =>
      exact fun hrunning hpublishes => hservice.publisher.is_some_of_map ⟨hrunning, hpublishes⟩

end Mechanism.KeepsTime

namespace Environment

/-- Whether an environment comes to be another one with a mechanism at a place that keeps time. -/
structure Gets (config : Config) (env : Environment) (added : Nat × Environment) : Prop where
  goes : env.Goes added.2
  mechanism : ∃ mechanism, added.2.mechanisms[added.1]? = some mechanism ∧
    mechanism.KeepsTime config added.2.tree

/-- A mechanism is added. -/
theorem Gets.add {env middle : Environment} (hgoes : env.Goes middle)
    (h : mechanism.KeepsTime config middle.tree) : Gets config env (middle.addMechanism mechanism) where
  goes := hgoes.trans (.single (.around _ _ (List.prefix_append _ _) fun _ h => h))
  mechanism := ⟨mechanism, List.getElem?_concat_length, h⟩

/-- A token is given out. -/
theorem goes_root (env : Environment) : env.Goes env.root.2 :=
  .of_mechanisms rfl fun _ h => h

variable (config) (env : Environment)

/-- The mechanism of the local network is added. -/
theorem gets_local_net :
    Gets config env (env.addLocalNet config.localNet.tag config.localNet.services
      (Clock.ofSeconds config.localNet.queryTimeout) false) :=
  .add env.goes_root (.localNet _ rfl)

/-- The mechanism of the routing table is added. -/
theorem gets_rendezvous (henabled : config.rendezvous.enabled = true) :
    Gets config env (env.addRendezvous config.rendezvous.label
      (Clock.ofSeconds config.rendezvous.advertiseInterval)
      (Clock.ofSeconds config.rendezvous.queryTimeout)) :=
  .add env.goes_root (.rendezvous _ henabled ⟨rfl, rfl, .none fun hwanted => by cases hwanted.2⟩)

/-- The mechanism of the seeds is added. -/
theorem gets_seeds (henabled : config.seeds.enabled = true) :
    Gets config env (env.addSeedTexts config.seeds.addresses config.seeds.policy) := by
  have hnoted (errors : List Error) :
      env.Goes (errors.foldl (fun env error => env.note (.seedIgnored error)) env) := by
    induction errors generalizing env with
    | nil => exact .of_mechanisms rfl fun _ h => h
    | cons error rest ih =>
        have hnote : env.Goes (env.note (.seedIgnored error)) := .of_mechanisms rfl fun _ h => h
        exact hnote.trans (ih _)
  refine .add ((hnoted _).trans (goes_root _)) (.seeds _ henabled ⟨rfl, ?_, ?_⟩ fun _ => ?_)
  · simp [Seed.Service.ofSeeds]
  · simp [Seed.Service.ofSeeds]
  · constructor <;> simp [Seed.Service.ofSeeds]

end Environment

end PeerFinder
