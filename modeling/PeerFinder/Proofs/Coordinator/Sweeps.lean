import Mathlib.Data.List.Count
import PeerFinder.Proofs.Coordinator.Calls
import PeerFinder.Proofs.Ticks

/-!
# The schedule of sweeps

A coordinator that was started queries the mechanisms that started, at once and then periodically,
and what a mechanism does with its queries changes nothing about that. `Schedule.sweepTime` says when
the sweeps are due and `Schedule.sweepQuery` what they ask. `Node.Stage` says how far a coordinator
has got after some calls, and every step in time takes it from one stage to the next or leaves it at
one (`Node.Turn.on_schedule`). `Node.sweeps_keep_schedule` reads off the queries that mechanisms
receive.
-/

namespace PeerFinder.Coordinator

namespace Schedule

variable (schedule : Schedule) (begun : Clock.Instant)

/-- When the sweeps of a coordinator are due that was started at an instant. -/
def sweepTime : Nat → Clock.Instant
  | 0 => begun
  | count + 1 => Clock.after (sweepTime count) schedule.sweepInterval

/-- What a sweep at an instant asks of every mechanism. -/
def sweepQuery (time : Clock.Instant) : ReceivedQuery :=
  ⟨time, schedule.queryLimit, Clock.after? time schedule.queryTimeout⟩

/-- The queries of the first sweeps to mechanisms. -/
def sweeps (members : List Member) : Nat → List (Member × ReceivedQuery)
  | 0 => []
  | count + 1 => sweeps members count ++
      members.map fun member => (member, schedule.sweepQuery (schedule.sweepTime begun count))

/-- Sweeps are due one interval after another. -/
theorem sweep_time_eq_tick_time (count : Nat) :
    schedule.sweepTime begun count = Clock.tickTime begun schedule.sweepInterval count := by
  induction count with
  | zero => rfl
  | succ count ih => rw [sweepTime, ih, Clock.tickTime]

/-- While the clock reaches them, sweeps are due at multiples of the interval. -/
theorem sweep_time_eq (count : Nat)
    (hreached : begun + count * schedule.sweepInterval < Clock.horizon) :
    schedule.sweepTime begun count = begun + count * schedule.sweepInterval := by
  rw [sweep_time_eq_tick_time, Clock.tick_time_eq begun _ count hreached]

variable {schedule}

/-- Sweeps are due one after another. -/
theorem sweep_time_strict_mono (hinterval : 0 < schedule.sweepInterval) :
    StrictMono (schedule.sweepTime begun) := by
  rw [funext (schedule.sweep_time_eq_tick_time begun)]
  exact Clock.tick_time_strict_mono begun hinterval

/-- Among the first sweeps each one asks every mechanism, as often as it is listed. -/
theorem count_sweeps (hinterval : 0 < schedule.sweepInterval) (members : List Member)
    (member : Member) (index count : Nat) :
    (schedule.sweeps begun members count).count
        (member, schedule.sweepQuery (schedule.sweepTime begun index)) =
      if index < count then members.count member else 0 := by
  have hinjective := (sweep_time_strict_mono begun hinterval).injective
  have hpair (query : ReceivedQuery) :
      Function.Injective fun member : Member => (member, query) :=
    fun _ _ heq => congrArg Prod.fst heq
  induction count with
  | zero => rfl
  | succ count ih =>
      rw [sweeps, List.count_append, ih]
      by_cases hsame : index = count
      · subst hsame
        rw [if_neg (Nat.lt_irrefl index), if_pos (Nat.lt_succ_self index), Nat.zero_add]
        exact List.count_map_of_injective members _ (hpair _) member
      · have hother : (member, schedule.sweepQuery (schedule.sweepTime begun index)) ∉
            members.map fun member =>
              (member, schedule.sweepQuery (schedule.sweepTime begun count)) := by
          intro hmem
          obtain ⟨_, -, heq⟩ := List.mem_map.1 hmem
          exact hsame (hinjective (congrArg (fun query => query.2.time) heq)).symm
        rw [List.count_eq_zero_of_not_mem hother, Nat.add_zero]
        have hiff : index < count + 1 ↔ index < count := by omega
        simp only [hiff]

/-- The queries of the first sweeps are due before the next one. -/
theorem mem_sweeps {members : List Member} {member : Member} {query : ReceivedQuery} {count : Nat}
    (h : (member, query) ∈ schedule.sweeps begun members count) :
    member ∈ members ∧
      ∃ index < count, query = schedule.sweepQuery (schedule.sweepTime begun index) := by
  induction count with
  | zero => cases h
  | succ count ih =>
      rw [sweeps, List.mem_append] at h
      rcases h with hbefore | hlast
      · obtain ⟨hmember, index, hlt, hquery⟩ := ih hbefore
        exact ⟨hmember, index, Nat.lt_succ_of_lt hlt, hquery⟩
      · obtain ⟨_, hmember, heq⟩ := List.mem_map.1 hlast
        cases heq
        exact ⟨hmember, count, Nat.lt_succ_self count, rfl⟩

end Schedule

section Sweeper

variable {schedule : Schedule} {moment : Moment} {errands after : List Errand} {sweeper : Sweeper}
  {next : Option Sweeper}

/-- A sweeper begins with a tick that is due at once. -/
theorem Sweeper.step_of_ready (hloop : sweeper.loop = .ready)
    (hinterval : 0 < schedule.sweepInterval) :
    Sweeper.step schedule moment errands sweeper = some (errands, some { sweeper with
      loop := .waiting (Ticker.immediate moment.now schedule.sweepInterval .skip) }) := by
  simp only [step, hloop, if_neg hinterval.ne']

/-- Unless it was stopped, a sweeper goes on only with a tick, and sends a query to everyone. -/
theorem Sweeper.step_of_waiting {ticker : Ticker} (hloop : sweeper.loop = .waiting ticker)
    (hrunning : moment.stopping = false)
    (hstep : Sweeper.step schedule moment errands sweeper = some (after, next)) :
    ticker.due ≤ moment.now ∧
      after = errands ++ sweeper.members.map (Errand.ofMember schedule) ∧
      next = some { sweeper with
        loop := .waiting { ticker with due := ticker.next moment.now } } := by
  simp only [step, hloop, Moment.stops, hrunning, Bool.false_and, Bool.false_eq_true, if_false]
    at hstep
  obtain ⟨fired, hfired, heq⟩ := Option.map_eq_some_iff.1 hstep
  unfold Ticker.fire? at hfired
  split_ifs at hfired with hdue
  cases hfired
  cases heq
  exact ⟨hdue, rfl, rfl⟩

end Sweeper

/-- The queries of a sweep that are still to be sent. -/
theorem pending_of_members (schedule : Schedule) (now : Clock.Instant) (members : List Member) :
    (members.map (Errand.ofMember schedule)).filterMap (Errand.pending? now) =
      members.map fun member => (member, schedule.sweepQuery now) := by
  rw [List.filterMap_map, ← List.filterMap_eq_map]
  exact List.filterMap_congr fun member _ => rfl

/-- What a start does when it has the lock, unless the coordinator was stopped: it is over if there
was one before, and otherwise begins. -/
theorem Startup.step_entering {env after : Environment} {coordinator moved : Coordinator}
    {next : Startup ⊕ Except Error Unit}
    (hrunning : env.tree.isCancelled coordinator.scope = false)
    (hstep : Startup.entering.step (env, coordinator) = some ((after, moved), next)) :
    coordinator.starting = false ∧ after = env ∧
      (coordinator.runs = true ∧ moved = coordinator ∧ next = .inr (.ok ()) ∨
        coordinator.runs = false ∧ moved = { coordinator with starting := true } ∧
          next = .inl (.starting coordinator.members [])) := by
  unfold Startup.step at hstep
  dsimp only at hstep
  split at hstep
  · cases hstep
  · rename_i hstarting
    refine ⟨Bool.eq_false_iff.2 hstarting, ?_⟩
    split at hstep
    · rename_i hruns
      cases hstep
      exact ⟨rfl, .inl ⟨hruns, rfl, rfl⟩⟩
    · rename_i hruns
      rw [hrunning] at hstep
      cases hstep
      exact ⟨rfl, .inr ⟨Bool.eq_false_iff.2 hruns, rfl, rfl⟩⟩

namespace Node

/-- What decides how far a coordinator has got with its start and its sweeps. -/
structure Progress where
  now : Clock.Instant
  startups : List Startup
  schedule : Schedule
  members : List Member
  starting : Bool
  runs : Bool
  sweeper : Option Sweeper
  errands : List Errand

/-- The starts among others that do not wait for the lock. -/
def underway (startups : List Startup) : List Startup :=
  startups.filter (· ≠ .entering)

/-- The starts under way among some and others. -/
theorem underway_append (startups others : List Startup) :
    underway (startups ++ others) = underway startups ++ underway others :=
  List.filter_append ..

/-- A start that waits for the lock is not under way. -/
theorem underway_entering (startups : List Startup) :
    underway (.entering :: startups) = underway startups :=
  rfl

/-- A start that starts the mechanisms is under way. -/
theorem underway_starting (rest made : List Member) (startups : List Startup) :
    underway (.starting rest made :: startups) = .starting rest made :: underway startups :=
  rfl

/-- How far a coordinator has got with its start and its sweeps. -/
def progress (node : Node) : Progress where
  now := node.env.now
  startups := node.startups
  schedule := node.coordinator.schedule
  members := node.coordinator.members
  starting := node.coordinator.starting
  runs := node.coordinator.runs
  sweeper := node.coordinator.sweeper
  errands := node.coordinator.errands

/-- The stages of a coordinator that was started at an instant, after some calls of mechanisms. -/
inductive Stage (begun : Clock.Instant) (calls : List MechanismCall) (progress : Progress) :
    Prop where
  /-- A start was called. -/
  | called (hnow : progress.now = begun) (hcalls : calls = []) (hwaiting : progress.startups ≠ [])
      (hunderway : underway progress.startups = []) (hstarting : progress.starting = false)
      (hruns : progress.runs = false) (hsweeper : progress.sweeper = none)
      (herrands : progress.errands = [])
  /-- The start has entered; these mechanisms are still to be started. -/
  | starting (rest : List Member) (hnow : progress.now = begun) (hqueries : queries calls = [])
      (hunderway : underway progress.startups = [.starting rest (started calls)])
      (hmembers : (starts calls).map Prod.fst ++ rest = progress.members)
      (hstarting : progress.starting = true) (hsweeper : progress.sweeper = none)
      (herrands : progress.errands = [])
  /-- All mechanisms were started; the sweeper has not begun. -/
  | ready (hnow : progress.now = begun) (hqueries : queries calls = [])
      (hunderway : underway progress.startups = [])
      (hmembers : (starts calls).map Prod.fst = progress.members)
      (hstarting : progress.starting = false) (hruns : progress.runs = true)
      (hsweeper : progress.sweeper = some ⟨started calls, .ready⟩) (herrands : progress.errands = [])
  /-- So many sweeps were made; their queries were sent or are still to be sent. -/
  | sweeping (count : Nat) (hnow : progress.now ≤ progress.schedule.sweepTime begun count)
      (hpast : ∀ index < count, progress.schedule.sweepTime begun index ≤ progress.now)
      (hunderway : underway progress.startups = [])
      (hmembers : (starts calls).map Prod.fst = progress.members)
      (hstarting : progress.starting = false) (hruns : progress.runs = true)
      (hsweeper : progress.sweeper = some ⟨started calls, .waiting
        ⟨progress.schedule.sweepTime begun count, progress.schedule.sweepInterval, .skip⟩⟩)
      (hqueries : (queries calls ++
        progress.errands.filterMap (Errand.pending? progress.now)).Perm
          (progress.schedule.sweeps begun (started calls) count))

namespace Stage

variable {begun : Clock.Instant} {calls : List MechanismCall} {progress : Progress}

/-- A step of the sweeper of a coordinator that was not stopped. -/
theorem sweep (h : Stage begun calls progress) (hinterval : 0 < progress.schedule.sweepInterval)
    {moment : Moment} (hmoment : moment.now = progress.now) (hrunning : moment.stopping = false)
    {sweeper : Sweeper} (hsweeper : progress.sweeper = some sweeper) {errands : List Errand}
    {next : Option Sweeper}
    (hstep : sweeper.step progress.schedule moment progress.errands = some (errands, next)) :
    Stage begun calls { progress with errands := errands, sweeper := next } := by
  cases h with
  | called _ _ _ _ _ _ hnone | starting _ _ _ _ _ _ hnone =>
      rw [hnone] at hsweeper
      cases hsweeper
  | ready hnow hqueries hunderway hmembers hstarting hruns hready herrands =>
      rw [hready] at hsweeper
      cases hsweeper
      rw [Sweeper.step_of_ready rfl hinterval, hmoment, hnow, herrands] at hstep
      cases hstep
      refine .sweeping 0 hnow.le nofun hunderway hmembers hstarting hruns rfl ?_
      rw [hqueries]
      exact .refl _
  | sweeping count hnow hpast hunderway hmembers hstarting hruns hwaiting hqueries =>
      rw [hwaiting] at hsweeper
      cases hsweeper
      obtain ⟨hdue, rfl, rfl⟩ := Sweeper.step_of_waiting rfl hrunning hstep
      have hmono := Schedule.sweep_time_strict_mono begun hinterval
      have htick : progress.now = progress.schedule.sweepTime begun count :=
        Nat.le_antisymm hnow (hmoment ▸ hdue)
      refine .sweeping (count + 1) ?_ ?_ hunderway hmembers hstarting hruns ?_ ?_
      · exact hnow.trans (hmono (Nat.lt_succ_self count)).le
      · intro index hindex
        exact (hmono.monotone (Nat.le_of_lt_succ hindex)).trans htick.ge
      · rw [hmoment, htick, Ticker.next_of_due]
        rfl
      · rw [List.filterMap_append, pending_of_members, ← List.append_assoc, Schedule.sweeps, ← htick]
        exact hqueries.append_right _

/-- A step of an errand of a coordinator that was not stopped. -/
theorem query (h : Stage begun calls progress) {before later : List Errand} {errand : Errand}
    {next : Option Errand} (herrands : progress.errands = before ++ errand :: later)
    (hpending : (errand.sent? progress.now next).toList ++
        next.toList.filterMap (Errand.pending? progress.now) =
      (errand.pending? progress.now).toList) :
    Stage begun
      (calls ++ (errand.sent? progress.now next).toList.map fun query => .find query.1 query.2)
      { progress with errands := before ++ next.toList ++ later } := by
  cases h with
  | called _ _ _ _ _ _ _ hnone | starting _ _ _ _ _ _ _ hnone | ready _ _ _ _ _ _ _ hnone =>
      rw [hnone] at herrands
      exact absurd herrands.symm (List.append_ne_nil_of_right_ne_nil _ (List.cons_ne_nil _ _))
  | sweeping count hnow hpast hunderway hmembers hstarting hruns hwaiting hqueries =>
      have hstarts := starts_append calls
        ((errand.sent? progress.now next).toList.map fun query => .find query.1 query.2)
      rw [starts_map_find, List.append_nil] at hstarts
      have hstarted : started (calls ++ (errand.sent? progress.now next).toList.map fun query =>
          .find query.1 query.2) = started calls := by rw [started, hstarts, started]
      refine .sweeping count hnow hpast hunderway ?_ hstarting hruns ?_ ?_
      · rwa [hstarts]
      · rwa [hstarted]
      · rw [hstarted, queries_append, queries_map_find]
        -- What the errand sends moves from the queries that are still to be sent to the others.
        have hsplit : progress.errands.filterMap (Errand.pending? progress.now) =
            before.filterMap (Errand.pending? progress.now) ++
              ((errand.sent? progress.now next).toList ++
                (next.toList.filterMap (Errand.pending? progress.now) ++
                  later.filterMap (Errand.pending? progress.now))) := by
          rw [herrands, List.filterMap_append, List.filterMap_cons,
            ← List.append_assoc (errand.sent? progress.now next).toList, hpending]
          cases errand.pending? progress.now <;> rfl
        rw [hsplit] at hqueries
        refine List.Perm.trans ?_ hqueries
        rw [List.append_assoc, List.filterMap_append, List.filterMap_append, List.append_assoc]
        exact (List.perm_append_comm_assoc _ _ _).append_left _

/-- Starts that wait or are over change nothing. -/
theorem with_startups (h : Stage begun calls progress) {startups : List Startup}
    (hunderway : underway startups = underway progress.startups)
    (hwaiting : progress.runs = false → startups ≠ []) :
    Stage begun calls { progress with startups := startups } := by
  cases h with
  | called hnow hcalls _ hnone hstarting hruns hsweeper herrands =>
      exact .called hnow hcalls (hwaiting hruns) (hunderway.trans hnone) hstarting hruns hsweeper
        herrands
  | starting rest hnow hqueries hone hmembers hstarting hsweeper herrands =>
      exact .starting rest hnow hqueries (hunderway.trans hone) hmembers hstarting hsweeper herrands
  | ready hnow hqueries hnone hmembers hstarting hruns hsweeper herrands =>
      exact .ready hnow hqueries (hunderway.trans hnone) hmembers hstarting hruns hsweeper herrands
  | sweeping count hnow hpast hnone hmembers hstarting hruns hsweeper hqueries =>
      exact .sweeping count hnow hpast (hunderway.trans hnone) hmembers hstarting hruns hsweeper
        hqueries

variable {node : Node} {before later : List Startup}

/-- A step of a start that waits for the lock, of a coordinator that was not stopped. -/
theorem enter (h : Stage begun calls node.progress) (hrunning : ¬ node.IsCancelled)
    (hcalls : node.startups = before ++ .entering :: later) {env : Environment}
    {coordinator : Coordinator} {next : Startup ⊕ Except Error Unit}
    (hstep : Startup.entering.step (node.env, node.coordinator) =
      some ((env, coordinator), next)) :
    Stage begun calls (Node.progress { node with
      env := env, coordinator := coordinator
      startups := before ++ next.getLeft?.toList ++ later }) := by
  have hunderway : underway node.startups = underway before ++ underway later := by
    rw [hcalls, underway_append, underway_entering]
  obtain ⟨hstarting, rfl, hcases⟩ := Startup.step_entering (Bool.eq_false_iff.2 hrunning) hstep
  rcases hcases with ⟨hruns, rfl, rfl⟩ | ⟨hruns, rfl, rfl⟩
  · refine h.with_startups ?_ ?_
    · rw [Sum.getLeft?_inr, Option.toList_none, List.append_nil, underway_append]
      exact hunderway.symm
    · intro hnone
      rw [Node.progress, hruns] at hnone
      cases hnone
  · cases h with
    | called hnow hnil hwaiting hnone _ _ hsweeper herrands =>
        subst hnil
        obtain ⟨hbefore, hlater⟩ := List.append_eq_nil_iff.1 (hunderway.symm.trans hnone)
        refine .starting node.coordinator.members hnow rfl ?_ rfl rfl hsweeper herrands
        simp only [Node.progress, Sum.getLeft?_inl, Option.toList_some, underway_append,
          underway_starting, hbefore, hlater]
        rfl
    | starting _ _ _ _ _ htrue =>
        rw [Node.progress, hstarting] at htrue
        cases htrue
    | ready _ _ _ _ _ htrue | sweeping _ _ _ _ _ _ htrue =>
        rw [Node.progress, hruns] at htrue
        cases htrue

/-- A step of a start that starts the mechanisms. -/
theorem start_next (h : Stage begun calls node.progress) {rest made : List Member}
    (hcalls : node.startups = before ++ .starting rest made :: later) {env : Environment}
    {coordinator : Coordinator} {next : Startup ⊕ Except Error Unit}
    (hstep : (Startup.starting rest made).step (node.env, node.coordinator) =
      some ((env, coordinator), next)) :
    Stage begun
      (calls ++ ((Startup.starting rest made).call? node.env node.coordinator.scope).toList)
      (Node.progress { node with
        env := env, coordinator := coordinator
        startups := before ++ next.getLeft?.toList ++ later }) := by
  have hunderway : underway node.startups =
      underway before ++ .starting rest made :: underway later := by
    rw [hcalls, underway_append, underway_starting]
  cases h with
  | called _ _ _ hnone | ready _ _ hnone | sweeping _ _ _ hnone =>
      exact absurd (hunderway.symm.trans hnone)
        (List.append_ne_nil_of_right_ne_nil _ (List.cons_ne_nil _ _))
  | starting pending hnow hqueries hone hmembers hstarting hsweeper herrands =>
      have hsplit := List.append_eq_singleton_iff.1 (hunderway.symm.trans hone)
      obtain ⟨hbefore, hcall⟩ | ⟨-, hnil⟩ := hsplit
      · rw [List.cons.injEq, Startup.starting.injEq] at hcall
        obtain ⟨⟨rfl, rfl⟩, hlater⟩ := hcall
        cases rest with
        | nil =>
            cases hstep
            have hnone : ((Startup.starting [] (started calls)).call? node.env
                node.coordinator.scope).toList = [] := rfl
            rw [List.append_nil] at hmembers
            rw [hnone, List.append_nil]
            refine .ready hnow hqueries ?_ hmembers rfl rfl rfl herrands
            simp only [Node.progress, Sum.getLeft?_inr, Option.toList_none, List.append_nil,
              underway_append, hbefore, hlater]
        | cons member rest =>
            cases hstep
            have hone : ((Startup.starting (member :: rest) (started calls)).call? node.env
                node.coordinator.scope).toList = [.start member
                  (node.env.start member.place node.coordinator.scope).1.isOk] := rfl
            rw [hone]
            refine .starting rest ?_ ?_ ?_ ?_ hstarting hsweeper herrands
            · exact (node.env.allows_start member.place _).now.trans hnow
            · rw [queries_append, hqueries]
              rfl
            · rw [started_append_start]
              simp only [Node.progress, Sum.getLeft?_inl, Option.toList_some, underway_append,
                underway_starting, hbefore, hlater]
              rfl
            · rw [starts_append, List.map_append, List.append_assoc]
              exact hmembers
      · cases hnil

/-- Time passes only between sweeps, and when all queries were sent. -/
theorem pass (h : Stage begun calls node.progress) {later : Clock.Instant}
    (hlater : node.env.now ≤ later) (hpass : node.MayPass later) :
    Stage begun calls (node.atTime later).progress := by
  have hsent (time : Clock.Instant) :
      node.coordinator.errands.filterMap (Errand.pending? time) = [] := by
    rw [List.filterMap_eq_nil_iff]
    intro errand herrand
    refine Errand.pending_eq_none ?_ time
    intro hready
    exact Errand.step_of_pending hready (hpass.errands errand herrand)
  cases h with
  | called hnow hnil hwaiting hnone hstarting hruns hsweeper herrands =>
      -- The start can go on.
      obtain ⟨call, hcall⟩ := List.exists_mem_of_ne_nil _ hwaiting
      have hentering : call = .entering :=
        Decidable.of_not_not fun hne =>
          List.filter_eq_nil_iff.1 hnone call hcall (decide_eq_true hne)
      have hwaits := hpass.startups call hcall
      rw [hentering, Startup.step] at hwaits
      have hstarting : node.coordinator.starting = false := hstarting
      have hruns : node.coordinator.runs = false := hruns
      simp only [hstarting, hruns, Bool.false_eq_true, if_false] at hwaits
      split at hwaits <;> cases hwaits
  | starting rest hnow hqueries hone =>
      have hcall : .starting rest (started calls) ∈ underway node.progress.startups := by
        rw [hone]
        exact List.mem_singleton_self _
      have hwaits := hpass.startups _ (List.mem_of_mem_filter hcall)
      cases rest <;> cases hwaits
  | ready hnow hqueries hnone hmembers hstarting hruns hsweeper herrands =>
      obtain ⟨ticker, hloop, -⟩ := hpass.sweeper _ hsweeper
      cases hloop
  | sweeping count hnow hpast hnone hmembers hstarting hruns hsweeper hqueries =>
      obtain ⟨ticker, hloop, hdue⟩ := hpass.sweeper _ hsweeper
      cases hloop
      refine .sweeping count hdue ?_ hnone hmembers hstarting hruns hsweeper ?_
      · intro index hindex
        exact (hpast index hindex).trans hlater
      · have hbefore : node.progress.errands.filterMap (Errand.pending? node.progress.now) = [] :=
          hsent _
        have hafter : (node.atTime later).progress.errands.filterMap
            (Errand.pending? (node.atTime later).progress.now) = [] := hsent _
        rw [hbefore] at hqueries
        rw [hafter]
        exact hqueries

end Stage

/-- Whether a coordinator that was not stopped is at a stage of its schedule, and no stop is under
way. -/
def OnSchedule (begun : Clock.Instant) (calls : List MechanismCall) (node : Node) : Prop :=
  ¬ node.IsCancelled →
    (∀ call ∈ node.shutdowns, call = .cancelling) ∧ Stage begun calls node.progress

/-- A start that goes on is not where it was. -/
theorem startup_step_ne {call next : Startup} {state after : Environment × Coordinator}
    (hstep : call.step state = some (after, .inl next)) : next ≠ call := by
  unfold Startup.step at hstep
  cases call with
  | entering =>
      dsimp only at hstep
      split at hstep
      · cases hstep
      · split at hstep
        · cases hstep
        · split at hstep <;> cases hstep
          nofun
  | starting rest made =>
      cases rest with
      | nil => cases hstep
      | cons member rest =>
          cases hstep
          intro hsame
          exact List.cons_ne_self member rest (Startup.starting.inj hsame).1.symm

variable {begun : Clock.Instant} {calls more : List MechanismCall} {node after : Node}

/-- Anything that happens at one instant keeps a coordinator on its schedule, as long as no query and
no start goes on. -/
theorem Step.on_schedule {label : Label} (hstep : Step node label after)
    (hlabel : ∀ taking, label ≠ .query taking)
    (hstartups : after.startups = node.startups ∨ after.startups = .entering :: node.startups)
    (hnow : after.env.now = node.env.now) (hinterval : 0 < node.coordinator.schedule.sweepInterval)
    (h : node.OnSchedule begun calls) : after.OnSchedule begun calls := by
  intro hrunning
  have hbefore : ¬ node.IsCancelled := fun hcancelled => hrunning (hstep.is_cancelled hcancelled)
  obtain ⟨hshutdowns, hstage⟩ := h hbefore
  cases hstep with
  | surroundings env =>
      have hnow : env.now = node.env.now := hnow
      have hsame : Node.progress { node with env := env } = node.progress := by
        simp only [Node.progress, hnow]
      exact ⟨hshutdowns, hsame ▸ hstage⟩
  | query before errand later env intake next => exact absurd rfl (hlabel _)
  | sweep heedsStop sweeper begun next hsweeper hnext =>
      have hstopping : (node.moment heedsStop).stopping = false := Bool.eq_false_iff.2 hbefore
      exact ⟨hshutdowns, hstage.sweep hinterval rfl hstopping hsweeper hnext⟩
  | startup before call later env coordinator next hcalls hnext =>
      -- The start would have to stay where it was.
      have hlength := congrArg List.length hcalls
      rw [List.length_append, List.length_cons] at hlength
      rcases hstartups with hsame | hmore
      · cases next with
        | inl moved =>
            rw [hcalls, List.append_assoc] at hsame
            have hmoved := List.append_cancel_left hsame
            exact absurd (List.cons.inj hmoved).1 (startup_step_ne hnext)
        | inr result =>
            have hshorter := congrArg List.length hsame
            simp at hshorter
            omega
      · have hlonger := congrArg List.length hmore
        cases next <;> simp at hlonger <;> omega
  | start =>
      refine ⟨hshutdowns, hstage.with_startups ?_ ?_⟩
      · exact underway_entering node.startups
      · exact fun _ => List.cons_ne_nil _ _
  | stop => exact ⟨List.forall_mem_cons.2 ⟨rfl, hshutdowns⟩, hstage⟩
  | shutdown before call later env coordinator next hcalls hnext =>
      -- The stop would cancel the coordinator.
      have hcall := hshutdowns call (by rw [hcalls]; simp)
      subst hcall
      exact absurd (shutdown_cancels hnext) hrunning
  | evictor | reporter | dial | found | status | evict | observe | subscriptions =>
      exact ⟨hshutdowns, hstage⟩

/-- A step in time keeps a coordinator on its schedule. -/
theorem Turn.on_schedule (hturn : Turn node more after)
    (hinterval : 0 < node.coordinator.schedule.sweepInterval) (h : node.OnSchedule begun calls) :
    after.OnSchedule begun (calls ++ more) := by
  intro hrunning
  have hbefore : ¬ node.IsCancelled := fun hcancelled => hrunning (hturn.is_cancelled hcancelled)
  obtain ⟨hshutdowns, hstage⟩ := h hbefore
  cases hturn with
  | query before errand later env intake next herrands hstep =>
      have hsends := Errand.step_sends hstep
      have hquery := hstage.query herrands (hsends.pending (Bool.eq_false_iff.2 hbefore))
      refine ⟨hshutdowns, ?_⟩
      rw [Node.progress, hsends.now]
      exact hquery
  | startup before call later env coordinator next hcalls hstep =>
      refine ⟨hshutdowns, ?_⟩
      cases call with
      | entering =>
          have hnone : (Startup.entering.call? node.env node.coordinator.scope).toList = [] := rfl
          rw [hnone, List.append_nil]
          exact hstage.enter hbefore hcalls hstep
      | starting rest made => exact hstage.start_next hcalls hstep
  | other label after hstep hlabel hstartups hnow =>
      rw [List.append_nil]
      exact hstep.on_schedule hlabel hstartups hnow hinterval h hrunning
  | pass later hlater hpass =>
      rw [List.append_nil]
      exact ⟨hshutdowns, hstage.pass hlater hpass⟩

/-- A node whose coordinator was called to start for the first time. -/
structure IsCalled (node : Node) : Prop where
  startups : node.startups = [.entering]
  shutdowns : node.shutdowns = []
  starting : node.coordinator.starting = false
  runs : node.coordinator.runs = false
  sweeper : node.coordinator.sweeper = none
  errands : node.coordinator.errands = []

/-- A run keeps a coordinator on its schedule that was called to start. -/
theorem Run.on_schedule (hcalled : node.IsCalled)
    (hinterval : 0 < node.coordinator.schedule.sweepInterval) (hrun : Run node calls after) :
    after.OnSchedule node.env.now calls := by
  induction hrun with
  | refl =>
      intro _
      refine ⟨by simp [hcalled.shutdowns], .called rfl rfl ?_ ?_ hcalled.starting hcalled.runs
        hcalled.sweeper hcalled.errands⟩
      · rw [Node.progress, hcalled.startups]
        exact List.cons_ne_nil _ _
      · rw [Node.progress, hcalled.startups]
        rfl
  | turn calls middle more after hrun hturn ih =>
      have hkept := hrun.keeps_setup.1
      exact hturn.on_schedule (hkept ▸ hinterval) ih

/-- Whether the queries among calls are those of the sweeps up to an instant, one to every mechanism
that was started. Those that are due at that very instant may still be to be sent. -/
structure IsOnTime (schedule : Schedule) (begun now : Clock.Instant) (calls : List MechanismCall) :
    Prop where
  due : ∀ member index, schedule.sweepTime begun index < now →
    (queries calls).count (member, schedule.sweepQuery (schedule.sweepTime begun index)) =
      (started calls).count member
  at_most : ∀ member index,
    (queries calls).count (member, schedule.sweepQuery (schedule.sweepTime begun index)) ≤
      (started calls).count member
  only : ∀ member query, (member, query) ∈ queries calls →
    ∃ index, query = schedule.sweepQuery (schedule.sweepTime begun index) ∧
      schedule.sweepTime begun index ≤ now

/-- As long as no sweep was made, no query is late. -/
theorem is_on_time_of_nil {schedule : Schedule} (hinterval : 0 < schedule.sweepInterval)
    (hqueries : queries calls = []) : IsOnTime schedule begun begun calls where
  due member index hbefore := by
    have hmono := (Schedule.sweep_time_strict_mono begun hinterval).monotone (Nat.zero_le index)
    exact absurd hbefore (Nat.not_lt.2 hmono)
  at_most member index := by
    rw [hqueries]
    exact Nat.zero_le _
  only member query hmem := by
    rw [hqueries] at hmem
    cases hmem

/-- At every stage the queries that were sent are on time. -/
theorem Stage.is_on_time {progress : Progress} (h : Stage begun calls progress)
    (hinterval : 0 < progress.schedule.sweepInterval) :
    IsOnTime progress.schedule begun progress.now calls := by
  cases h with
  | called hnow hcalls =>
      rw [hnow]
      exact is_on_time_of_nil hinterval (by rw [hcalls]; rfl)
  | starting _ hnow hqueries | ready hnow hqueries =>
      rw [hnow]
      exact is_on_time_of_nil hinterval hqueries
  | sweeping count hnow hpast _ _ _ _ _ hqueries =>
      have hmono := Schedule.sweep_time_strict_mono begun hinterval
      have hcount (member : Member) (index : Nat) := hqueries.count_eq
        (member, progress.schedule.sweepQuery (progress.schedule.sweepTime begun index))
      simp only [List.count_append, Schedule.count_sweeps begun hinterval] at hcount
      refine ⟨fun member index hbefore => ?_, fun member index => ?_, fun member query hmem => ?_⟩
      · -- What is still to be sent is due at this instant, and not before.
        have hunsent : (member, progress.schedule.sweepQuery
            (progress.schedule.sweepTime begun index)) ∉
              progress.errands.filterMap (Errand.pending? progress.now) := by
          intro hmem
          obtain ⟨errand, -, hpending⟩ := List.mem_filterMap.1 hmem
          unfold Errand.pending? at hpending
          split_ifs at hpending
          have htime := congrArg (fun query => query.2.time) (Option.some.inj hpending)
          exact hbefore.ne htime.symm
        have hindex : index < count := hmono.lt_iff_lt.1 (Nat.lt_of_lt_of_le hbefore hnow)
        have htotal := hcount member index
        rw [List.count_eq_zero_of_not_mem hunsent, if_pos hindex] at htotal
        exact htotal
      · have htotal := hcount member index
        split_ifs at htotal <;> omega
      · have hsent := hqueries.subset (List.mem_append_left _ hmem)
        obtain ⟨-, index, hindex, hquery⟩ := Schedule.mem_sweeps begun hsent
        exact ⟨index, hquery, hpast index hindex⟩

/-- Once time has passed, all mechanisms were called to start, each one once and in order. -/
theorem Stage.starts_eq {progress : Progress} (h : Stage begun calls progress)
    (hpassed : begun < progress.now) : (starts calls).map Prod.fst = progress.members := by
  cases h with
  | called hnow | starting _ hnow | ready hnow => exact absurd hnow.symm hpassed.ne
  | sweeping _ _ _ _ hmembers => exact hmembers

/-- As long as its coordinator is not stopped, the queries of a run are on time. -/
theorem Run.is_on_time (hrun : Run node calls after) (hcalled : node.IsCalled)
    (hinterval : 0 < node.coordinator.schedule.sweepInterval) (hrunning : ¬ after.IsCancelled) :
    IsOnTime node.coordinator.schedule node.env.now after.env.now calls := by
  have hkept : after.progress.schedule = node.coordinator.schedule := hrun.keeps_setup.1
  have hstage := (hrun.on_schedule hcalled hinterval hrunning).2
  rw [← hkept]
  exact hstage.is_on_time (hkept ▸ hinterval)

/-- Two lists of calls that are on time hold the same queries to a mechanism that was started as often
in both, up to the earlier of their instants. -/
theorem IsOnTime.count_eq {schedule : Schedule} {now now' : Clock.Instant}
    {others : List MechanismCall} (h : IsOnTime schedule begun now calls)
    (hothers : IsOnTime schedule begun now' others) {member : Member}
    (hstarted : (started calls).count member = (started others).count member)
    {query : ReceivedQuery} (hnow : query.time < now) (hnow' : query.time < now') :
    (queries calls).count (member, query) = (queries others).count (member, query) := by
  by_cases hdue : ∃ index, query = schedule.sweepQuery (schedule.sweepTime begun index)
  · obtain ⟨index, rfl⟩ := hdue
    rw [h.due member index hnow, hothers.due member index hnow', hstarted]
  · have hnone {calls : List MechanismCall} {now : Clock.Instant}
        (h : IsOnTime schedule begun now calls) : (member, query) ∉ queries calls := by
      intro hmem
      obtain ⟨index, hquery, -⟩ := h.only member query hmem
      exact hdue ⟨index, hquery⟩
    rw [List.count_eq_zero_of_not_mem (hnone h), List.count_eq_zero_of_not_mem (hnone hothers)]

/-- Sweeps keep their schedule. From the call of its start on, a coordinator with an interval above
zero starts its mechanisms at once, each one once and in order, and sends one query to each of those
that started at every multiple of the interval, with the limit and the deadline of the schedule, up
to the step that cancels it and not from there on; mechanisms remember exactly these queries. So in
two runs with the same schedule a mechanism that started in both is asked the same at the same times,
whatever the other ones do. -/
theorem sweeps_keep_schedule (hcalled : node.IsCalled)
    (hinterval : 0 < node.coordinator.schedule.sweepInterval) (hrun : Run node calls after)
    (hrunning : ¬ after.IsCancelled) :
    (∀ place, after.env.received? place =
      (node.env.received? place).map (· ++ receivedAt place (queries calls))) ∧
    (node.env.now < after.env.now → (starts calls).map Prod.fst = node.coordinator.members) ∧
    IsOnTime node.coordinator.schedule node.env.now after.env.now calls ∧
    (∀ index, node.env.now + index * node.coordinator.schedule.sweepInterval < Clock.horizon →
      node.coordinator.schedule.sweepTime node.env.now index =
        node.env.now + index * node.coordinator.schedule.sweepInterval) ∧
    (∀ more stopped, Turn after more stopped → stopped.IsCancelled →
      stopped.env.now = after.env.now ∧ queries more = [] ∧
      ∀ later next, Run stopped later next → queries later = []) ∧
    ∀ other others result, other.IsCalled → other.env.now = node.env.now →
      other.coordinator.schedule = node.coordinator.schedule → Run other others result →
      ¬ result.IsCancelled → ∀ member query,
      (started calls).count member = (started others).count member →
      query.time < after.env.now → query.time < result.env.now →
      (queries calls).count (member, query) = (queries others).count (member, query) := by
  have hon_time := hrun.is_on_time hcalled hinterval hrunning
  refine ⟨hrun.receives, fun hpassed => ?_, hon_time, ?_, fun more stopped hturn hcancelled => ?_, ?_⟩
  · have hstage := (hrun.on_schedule hcalled hinterval hrunning).2
    exact (hstage.starts_eq hpassed).trans hrun.keeps_setup.2
  · exact Schedule.sweep_time_eq node.coordinator.schedule node.env.now
  · obtain ⟨hnow, hqueries⟩ := hturn.of_cancels hrunning hcancelled
    exact ⟨hnow, hqueries, fun later next hlater => hlater.queries_after_cancel hcancelled⟩
  · intro other others result hother hbegun hschedule hothers hresult member query hstarted hnow
      hnow'
    have hsecond := hothers.is_on_time hother (hschedule ▸ hinterval) hresult
    rw [hbegun, hschedule] at hsecond
    exact hon_time.count_eq hsecond hstarted hnow hnow'

section Started

/-- A mechanism whose queries hang. -/
def hanging : Member :=
  ⟨0, "hanging"⟩

/-- A mechanism that does not start. -/
def broken : Member :=
  ⟨1, "broken"⟩

/-- A node that was called to start with these two mechanisms. -/
def called : Node where
  env :=
    { tree := ⟨[], 1⟩
      transport := { localId := ownId }
      mechanisms := [.scripted { name := "hanging", answers := [{ delay := 3600000 }] },
        .scripted { name := "broken", failsStart := true }] }
  intake := { localId := ownId }
  coordinator := { members := [hanging, broken], scope := [0] }
  startups := [.entering]

/-- The node goes on past its second sweep. -/
theorem exists_run_past_sweep :
    ∃ calls after, Run called calls after ∧ ¬ after.IsCancelled ∧ after.env.now = 30001 ∧
      started calls = [hanging] := by
  -- The start.
  have hentered := Run.turn _ _ _ _ _ (.refl called) (.startup _ [] .entering [] _ _ _ rfl rfl)
  have hstarted := Run.turn _ _ _ _ _ hentered (.startup _ [] _ [] _ _ _ rfl rfl)
  have hfailed := Run.turn _ _ _ _ _ hstarted (.startup _ [] _ [] _ _ _ rfl rfl)
  have hbegun := Run.turn _ _ _ _ _ hfailed (.startup _ [] _ [] _ _ _ rfl rfl)
  -- The first sweep, whose query hangs.
  have hready := Run.turn _ _ _ _ _ hbegun (.other _ _ _ (.sweep _ true _ [] _ rfl rfl) nofun
    (.inl rfl) rfl (.of_mechanisms rfl))
  have hswept := Run.turn _ _ _ _ _ hready (.other _ _ _ (.sweep _ true _ _ _ rfl rfl) nofun
    (.inl rfl) rfl (.of_mechanisms rfl))
  have hasked := Run.turn _ _ _ _ _ hswept (.query _ [] _ [] _ _ _ rfl rfl)
  have hpassed := Run.turn _ _ _ _ _ hasked (.pass _ 30000 (by decide)
    ⟨nofun, List.forall_mem_singleton.2 rfl, fun _ h => by cases h; exact ⟨_, rfl, by decide⟩⟩)
  -- The second sweep, whose query hangs as well, and the end of the first query.
  have hagain := Run.turn _ _ _ _ _ hpassed (.other _ _ _ (.sweep _ true _ _ _ rfl rfl) nofun
    (.inl rfl) rfl (.of_mechanisms rfl))
  have hended := Run.turn _ _ _ _ _ hagain (.query _ [] _ [_] _ _ _ rfl rfl)
  have hpending := Run.turn _ _ _ _ _ hended (.query _ [] _ [] _ _ _ rfl rfl)
  have hlater := Run.turn _ _ _ _ _ hpending (.pass _ 30001 (by decide)
    ⟨nofun, List.forall_mem_singleton.2 rfl, fun _ h => by cases h; exact ⟨_, rfl, by decide⟩⟩)
  exact ⟨_, _, hlater, nofun, rfl, rfl⟩

/-- Past its second sweep, that node has sent one query at its time to the mechanism that hangs, and
none to the one that did not start. -/
theorem sweeps_keep_schedule_hanging :
    called.IsCalled ∧ 0 < called.coordinator.schedule.sweepInterval ∧
      ∃ calls after, Run called calls after ∧ ¬ after.IsCancelled ∧
        (queries calls).count (hanging, ⟨30000, 10, some 40000⟩) = 1 ∧
        (queries calls).count (broken, ⟨30000, 10, some 40000⟩) = 0 := by
  have hcalled : called.IsCalled := ⟨rfl, rfl, rfl, rfl, rfl, rfl⟩
  obtain ⟨calls, after, hrun, hrunning, hnow, hstarted⟩ := exists_run_past_sweep
  obtain ⟨-, -, hon_time, htime, -⟩ :=
    sweeps_keep_schedule hcalled (by decide) hrun hrunning
  have hsecond : called.coordinator.schedule.sweepTime called.env.now 1 = 30000 :=
    htime 1 (by decide)
  have hdue (member : Member) := hon_time.due member 1 (by rw [hsecond, hnow]; decide)
  rw [hsecond, hstarted] at hdue
  exact ⟨hcalled, by decide, calls, after, hrun, hrunning, hdue hanging, hdue broken⟩

end Started

end Node

end PeerFinder.Coordinator
