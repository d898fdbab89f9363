import Mathlib.Data.List.Induction
import PeerFinder.Proofs.Coordinator.Calls
import PeerFinder.Proofs.Environment.Turns

/-!
# What a sweep has collected is passed on

The search of a query heeds a deadline of its own, which comes no later than the bound that the
coordinator puts on the query. A search that has found something has its turn, so it ends by that
deadline with all that it has found, and the query passes it on. `Survey` is a coordinator's queries
among those of other callers at the same mechanisms, and `Survey.Path.collected_is_passed` says that
nothing that was collected is lost while the scope of the coordinator is not cancelled. There is one
exception: a bound that the clock does not reach adds no deadline, and then the query itself is
given up in a far future (`Survey.not_always_passed`).
-/

namespace PeerFinder

/-- The instant a span after another is the one that the clock reaches, or in a far future. -/
theorem Clock.after_cases (now : Instant) (span : Span) :
    after? now span = some (after now span) ∨
      after? now span = none ∧ after now span = now + farFuture := by
  unfold after
  cases after? now span with
  | none => exact .inr ⟨rfl, rfl⟩
  | some instant => exact .inl rfl

namespace Coordinator

/-- The sightings that a query is still to pass on, once it has its answer. -/
def Query.Point.rest? : Query.Point → Option (List Sighting)
  | .ingesting rest _ _ => some rest
  | .accepting sighting rest _ _ => some (sighting :: rest)
  | .ready | .asking _ => none

/-- How many steps a query takes at most until it has passed on all that it is still to pass on. -/
def Query.Point.stepsLeft : Query.Point → Nat
  | .ingesting rest _ _ => 2 * rest.length + 1
  | .accepting _ rest _ _ => 2 * rest.length + 2
  | .ready | .asking _ => 0

namespace Errand

/-- The intake once an errand has taken in what it was about to take in. -/
def takes (errand : Errand) (now : Clock.Instant) (intake : Intake) : Intake :=
  (errand.taking?.map fun taking => (intake.accept now taking.1 taking.2).2).getD intake

/-- What a step does to an errand whose search is under way. -/
inductive Asks (errand : Errand) (search : Search) (expires : Clock.Instant) (env : Environment) :
    Environment → Option Errand → Prop where
  /-- The search goes on. -/
  | goes (after : Environment) (moved : Search)
      (hmoves : search.step env = some (after, .inl moved)) :
      Asks errand search expires env after (some { errand with search := some moved })
  | answered (after freed : Environment) (peers : List Sighting)
      (hanswers : search.step env = some (freed, .inr (.ok peers)))
      (hfrees : env.Frees after search.line?) :
      Asks errand search expires env after (some { errand with
        query := { errand.query with point := .ingesting peers peers.length 0 }, search := none })
  | failed (after freed : Environment) (error : Error)
      (hfails : search.step env = some (freed, .inr (.error error)))
      (hfrees : env.Frees after search.line?) : Asks errand search expires env after none
  /-- The search waits beyond the bound of the query and is given up. -/
  | gaveUp (after : Environment) (hwaits : search.step env = none) (hexpired : expires ≤ env.now)
      (hfrees : env.Frees after search.line?) : Asks errand search expires env after none

/-- What a step does to an errand that is still to pass sightings on. -/
inductive Passes (errand : Errand) (rest : List Sighting) (env : Environment) (intake : Intake) :
    Environment → Intake → Option Errand → Prop where
  /-- All were passed on. -/
  | done (journal : Journal) (hrest : rest = []) (htaking : errand.taking? = none) :
      Passes errand rest env intake { env with journal := journal } intake none
  | passed (next : Errand) (left : List Sighting) (hsearch : next.search = none)
      (htimeout : next.query.timeout = errand.query.timeout)
      (hpoint : next.query.point.rest? = some left)
      (hrest : (errand.taking?.map Prod.fst).toList ++ left = rest)
      (hless : next.query.point.stepsLeft < errand.query.point.stepsLeft) :
      Passes errand rest env intake env (errand.takes env.now intake) (some next)

variable {errand : Errand} {token : Token} {env after : Environment} {intake taken : Intake}
  {next : Option Errand} {search : Search} {expires : Clock.Instant}

/-- The first step of an errand begins its search. -/
theorem step_of_ready (hpoint : errand.query.point = .ready) (hsearch : errand.search = none)
    (hrunning : env.tree.isCancelled token = false) :
    errand.step token (env, intake) = some (((errand.beginSearch token env).2, intake),
      some { errand with
        query := { errand.query with
          point := .asking (Clock.after env.now errand.query.timeout) }
        search := some (errand.beginSearch token env).1 }) := by
  have hmoment : (env.moment token).stopping = false := hrunning
  simp only [step, hsearch, stepQuery, Query.step_of_ready hpoint hmoment]
  rfl

/-- A search that is given up with a notice leaves its line, and nothing else that matters to
queries. -/
theorem frees_abandon_noted (search : Search) (env : Environment) (journal : Journal) :
    env.Frees (search.abandon { env with journal := journal }) search.line? := by
  have hnoted : env.Allows { env with journal := journal } := ⟨rfl, fun _ h => h, fun _ => rfl⟩
  exact hnoted.trans_frees (search.frees_abandon _)

/-- A step of an errand whose search is under way does what `Asks` lists, and takes nothing in. -/
theorem step_of_asking (hpoint : errand.query.point = .asking expires)
    (hsearch : errand.search = some search) (hrunning : env.tree.isCancelled token = false)
    (hstep : errand.step token (env, intake) = some ((after, taken), next)) :
    taken = intake ∧ errand.Asks search expires env after next := by
  have hmoment : (env.moment token).stopping = false := hrunning
  simp only [step, hsearch, hrunning, Bool.false_eq_true, if_false] at hstep
  split at hstep
  · rename_i hwaits
    simp only [stepQuery, Query.step, hpoint, hsearch, hmoment, Bool.false_eq_true, if_false]
      at hstep
    split_ifs at hstep with hexpired
    · cases hstep
      exact ⟨rfl, .gaveUp _ hwaits hexpired (frees_abandon_noted search env _)⟩
    · cases hstep
  · rename_i moved hmoves
    cases hstep
    exact ⟨rfl, .goes _ _ hmoves⟩
  · rename_i freed answer hanswers
    -- The search has left its line with its answer, and is let go of once more.
    have hleft : ∀ journal, env.Frees (search.abandon { freed with journal := journal })
        search.line? :=
      fun journal => (Search.step_answer hanswers).trans (frees_abandon_noted search freed journal)
    have htree := (receives_search hanswers).2
    have hstill : (freed.moment token).stopping = false := by
      rw [Environment.moment, htree]
      exact hrunning
    cases answer with
    | ok peers =>
        simp only [stepQuery, Query.step, hpoint, hsearch, hstill, Bool.false_eq_true, if_false]
          at hstep
        cases hstep
        exact ⟨rfl, .answered _ freed peers hanswers (hleft _)⟩
    | error error =>
        simp only [stepQuery, Query.step, hpoint, hsearch, hstill, Bool.false_eq_true, if_false]
          at hstep
        cases hstep
        exact ⟨rfl, .failed _ freed error hanswers (hleft _)⟩

/-- An errand that is still to pass sightings on goes on with every step, and does what `Passes`
lists. -/
theorem step_of_passing {rest : List Sighting} (hpoint : errand.query.point.rest? = some rest)
    (hsearch : errand.search = none) (hrunning : env.tree.isCancelled token = false) :
    ∃ after taken next, errand.step token (env, intake) = some ((after, taken), next) ∧
      errand.Passes rest env intake after taken next := by
  have hmoment : (env.moment token).stopping = false := hrunning
  simp only [step, hsearch, stepQuery, Query.step]
  cases hquery : errand.query.point with
  | ready | asking =>
      rw [hquery] at hpoint
      cases hpoint
  | ingesting sightings found new =>
      rw [hquery] at hpoint
      cases hpoint
      cases rest with
      | nil =>
          have htaking : errand.taking? = none := by simp [taking?, hquery]
          refine ⟨_, _, _, rfl, ?_⟩
          by_cases hfound : 0 < found
          · simp only [hfound, if_true]
            exact .done _ rfl htaking
          · simp only [hfound, if_false]
            exact .done _ rfl htaking
      | cons sighting rest =>
          have htaking : errand.taking? = none := by simp [taking?, hquery]
          have htakes : errand.takes env.now intake = intake := by simp [takes, htaking]
          have hless : (Query.Point.accepting sighting rest found new).stepsLeft <
              errand.query.point.stepsLeft := by
            simp only [hquery, Query.Point.stepsLeft, List.length_cons]
            omega
          refine ⟨env, errand.takes env.now intake, _, ?_,
            .passed { errand with
              query := { errand.query with point := .accepting sighting rest found new }
              search := none } (sighting :: rest) rfl rfl rfl (by rw [htaking]; rfl) hless⟩
          simp only [hmoment, Bool.false_eq_true, if_false, htakes]
          rfl
  | accepting sighting rest found new =>
      rw [hquery] at hpoint
      cases hpoint
      have htaking : errand.taking? = some (sighting, errand.query.mechanism) := by
        simp [taking?, hquery]
      have htakes : errand.takes env.now intake =
          (intake.accept env.now sighting errand.query.mechanism).2 := by simp [takes, htaking]
      let fresh := if (intake.accept env.now sighting errand.query.mechanism).1 = .inserted then
        new + 1 else new
      have hless : (Query.Point.ingesting rest found fresh).stepsLeft <
          errand.query.point.stepsLeft := by
        simp only [hquery, Query.Point.stepsLeft]
        omega
      refine ⟨env, errand.takes env.now intake, _, ?_,
        .passed { errand with
          query := { errand.query with point := .ingesting rest found fresh }
          search := none } rest rfl rfl rfl (by rw [htaking]; rfl) hless⟩
      rw [htakes]
      rfl

end Errand

/-- A query of a sweep, and what was seen of it. -/
structure Outing where
  errand : Errand
  /-- When its mechanism was asked. -/
  begun : Option Clock.Instant := none
  /-- The search as it was last seen. -/
  last : Option Search := none
  /-- The sightings that were passed on to the intake, in order. -/
  passed : List Sighting := []

namespace Outing

/-- What the search had collected when it was last seen, if it searched for itself. -/
def collected? (outing : Outing) : Option (List Sighting) :=
  outing.last.bind Search.collected?

/-- What is seen of a query with a step, given what is left of its errand. -/
def follow (outing : Outing) (now : Clock.Instant) (next : Option Errand) : Outing where
  errand := next.getD outing.errand
  begun := outing.begun.or ((next.bind Errand.search).map fun _ => now)
  last := (next.bind Errand.search).or outing.last
  passed := outing.passed ++ (outing.errand.taking?.map Prod.fst).toList

/-- What is known of a query that is under way, by where it stands. -/
inductive Stage (outing : Outing) : Prop where
  | ready (hpoint : outing.errand.query.point = .ready) (hsearch : outing.errand.search = none)
      (hbegun : outing.begun = none) (hlast : outing.last = none) (hpassed : outing.passed = [])
  /-- Its mechanism searches, under a scope that ends no later than the bound of the query if the clock
  reaches that. -/
  | asking (begun : Clock.Instant) (search : Search)
      (hpoint : outing.errand.query.point =
        .asking (Clock.after begun outing.errand.query.timeout))
      (hsearch : outing.errand.search = some search) (hbegun : outing.begun = some begun)
      (hlast : outing.last = some search) (hpassed : outing.passed = [])
      (hscope : ∀ scope ∈ search.scope?,
        ∀ due ∈ Clock.after? begun outing.errand.query.timeout,
          ∃ deadline ∈ scope.deadline, deadline ≤ due)
  /-- It passes on what its mechanism has collected. -/
  | passing (rest : List Sighting) (hpoint : outing.errand.query.point.rest? = some rest)
      (hsearch : outing.errand.search = none)
      (hcollected : ∀ found ∈ outing.collected?, found = outing.passed ++ rest)

/-- Whether a query that ended at an instant has passed on all that was collected, or else has a
bound that the clock does not reach and was given up in a far future. -/
def IsPassedOn (outing : Outing) (ended : Clock.Instant) : Prop :=
  ∀ found ∈ outing.collected?, outing.passed = found ∨
    outing.passed = [] ∧ ∃ begun ∈ outing.begun,
      Clock.after? begun outing.errand.query.timeout = none ∧ begun + Clock.farFuture ≤ ended

end Outing

/-- The queries of a coordinator's sweeps among those that others have at the same mechanisms. -/
structure Survey where
  env : Environment
  intake : Intake
  outings : List Outing := []
  /-- The queries that have ended, the latest first, with the instant of their last step. -/
  ended : List (Clock.Instant × Outing) := []
  others : List Search := []

namespace Survey

/-- All searches in flight. -/
def searches (survey : Survey) : List Search :=
  survey.outings.filterMap (·.errand.search) ++ survey.others

/-- The single steps of queries under the scope of a coordinator, and of what goes on around them.
-/
inductive Step (token : Token) : Survey → Survey → Prop where
  /-- A sweep sends a query to a mechanism. -/
  | send (survey : Survey) (schedule : Schedule) (member : Member) :
      Step token survey
        { survey with outings := survey.outings ++ [{ errand := .ofMember schedule member }] }
  | go (survey : Survey) (before : List Outing) (outing : Outing) (later : List Outing)
      (env : Environment) (intake : Intake) (next : Errand)
      (houtings : survey.outings = before ++ outing :: later)
      (hstep : outing.errand.step token (survey.env, survey.intake) =
        some ((env, intake), some next)) :
      Step token survey
        { survey with
          env := env, intake := intake
          outings := before ++ outing.follow survey.env.now (some next) :: later }
  /-- A query ends. -/
  | finish (survey : Survey) (before : List Outing) (outing : Outing) (later : List Outing)
      (env : Environment) (intake : Intake)
      (houtings : survey.outings = before ++ outing :: later)
      (hstep : outing.errand.step token (survey.env, survey.intake) = some ((env, intake), none)) :
      Step token survey
        { survey with
          env := env, intake := intake, outings := before ++ later
          ended := (survey.env.now, outing.follow survey.env.now none) :: survey.ended }
  /-- Somebody else begins a query at a mechanism. -/
  | call (survey : Survey) (place : Nat) (scope : Scope) (limit : Nat) (search : Search)
      (env : Environment) (hfind : survey.env.find place scope limit = (search, env)) :
      Step token survey { survey with env := env, others := search :: survey.others }
  | seek (survey : Survey) (before : List Search) (search : Search) (later : List Search)
      (env : Environment) (next : Search) (hothers : survey.others = before ++ search :: later)
      (hstep : search.step survey.env = some (env, .inl next)) :
      Step token survey { survey with env := env, others := before ++ next :: later }
  | answer (survey : Survey) (before : List Search) (search : Search) (later : List Search)
      (env : Environment) (result : Except Error (List Sighting))
      (hothers : survey.others = before ++ search :: later)
      (hstep : search.step survey.env = some (env, .inr result)) :
      Step token survey { survey with env := env, others := before ++ later }
  | abandon (survey : Survey) (before : List Search) (search : Search) (later : List Search)
      (hothers : survey.others = before ++ search :: later) :
      Step token survey
        { survey with env := search.abandon survey.env, others := before ++ later }
  /-- Mechanisms are started and stopped, do their background work, or tokens are cancelled. -/
  | surroundings (survey : Survey) (env : Environment) (hallows : survey.env.Allows env) :
      Step token survey { survey with env := env }
  | pass (survey : Survey) (later : Clock.Instant) (hlater : survey.env.now ≤ later) :
      Step token survey { survey with env := { survey.env with now := later } }
  /-- Something else happens to the intake. -/
  | intake (survey : Survey) (intake : Intake) : Step token survey { survey with intake := intake }

/-- Steps one after another. -/
inductive Path (token : Token) : Survey → Survey → Prop where
  | refl (survey : Survey) : Path token survey survey
  | step (survey middle after : Survey) (hpath : Path token survey middle)
      (hstep : Step token middle after) : Path token survey after

/-- What holds of queries and of all searches in flight together. -/
structure IsSound (survey : Survey) : Prop where
  queued : Queued survey.env survey.searches
  stages : ∀ outing ∈ survey.outings, outing.Stage
  ended : ∀ entry ∈ survey.ended, entry.2.IsPassedOn entry.1

end Survey

namespace Outing

variable {outing : Outing} {token : Token} {env after : Environment} {intake taken : Intake}
  {searches : List Search}

/-- The scope of a search ends no later than the bound of its query if the clock reaches that. -/
theorem deadline_of_begin_search (errand : Errand) (token : Token) (env : Environment) :
    ∀ scope ∈ (errand.beginSearch token env).1.scope?,
      ∀ due ∈ Clock.after? env.now errand.query.timeout, ∃ deadline ∈ scope.deadline,
        deadline ≤ due := by
  intro scope hscope due hdue
  obtain ⟨bound, hdeadline⟩ := Environment.scope_of_find rfl scope hscope
  have hbound : Clock.earlier none (Clock.after? env.now errand.query.timeout) = some due := hdue
  simp only [Scope.ofToken, hbound] at hdeadline
  cases bound with
  | none => exact ⟨due, hdeadline, Nat.le_refl due⟩
  | some bound => exact ⟨min due bound, hdeadline, Nat.min_le_left due bound⟩

/-- A search that begins stands behind all others. -/
theorem queued_begin_search (h : Queued env searches) (errand : Errand) (token : Token) :
    Queued (errand.beginSearch token env).2
      ((errand.beginSearch token env).1 :: searches) := by
  have hbounded : Queued { env with tree :=
      ((Scope.ofToken token).withTimeout env.now errand.query.timeout env.tree).2 } searches :=
    h.of_turns fun _ => rfl
  exact hbounded.enter (Environment.find_enters rfl) (Environment.collected_of_find rfl)

/-- A search whose query is given up beyond its bound has found nothing, unless the clock does not
reach the bound. -/
theorem is_passed_on_of_waits {begun : Clock.Instant} {search : Search}
    (h : Queued env (search :: searches)) (hbegun : outing.begun = some begun)
    (hlast : outing.last = some search) (hpassed : outing.passed = [])
    (hscope : ∀ scope ∈ search.scope?, ∀ due ∈ Clock.after? begun outing.errand.query.timeout,
      ∃ deadline ∈ scope.deadline, deadline ≤ due)
    (hwaits : search.step env = none)
    (hexpired : Clock.after begun outing.errand.query.timeout ≤ env.now) :
    outing.IsPassedOn env.now := by
  intro found hfound
  rw [collected?, hlast, Option.bind_some] at hfound
  by_cases hempty : found = []
  · exact .inl (hpassed.trans hempty.symm)
  · have hturn := h.turn search (.head _) found hfound hempty
    have hsearches : search.scope? ≠ none := by
      rw [Ne, ← search.scope_of_collected, Option.mem_def.1 hfound]
      nofun
    obtain ⟨scope, hown⟩ := Option.ne_none_iff_exists'.1 hsearches
    obtain ⟨hrunning, -⟩ := Search.not_done_of_step hturn hwaits hown
    rcases Clock.after_cases begun outing.errand.query.timeout with hreached | ⟨hnone, hfar⟩
    · -- The scope would be done at the latest when the bound of the query comes.
      obtain ⟨deadline, hdeadline, hdue⟩ := hscope scope hown _ hreached
      have hpast : scope.deadline.any (· ≤ env.now) = true := by
        rw [Option.mem_def.1 hdeadline]
        exact decide_eq_true (Nat.le_trans hdue hexpired)
      rw [Scope.isDone, hpast, Bool.or_true] at hrunning
      cases hrunning
    · exact .inr ⟨hpassed, begun, hbegun, hnone, hfar ▸ hexpired⟩

/-- What is known of a query that is under way after one of its steps, and of the searches in flight
besides its own. -/
structure Leads (outing : Outing) (searches : List Search) (after : Environment)
    (next : Option Errand) (now : Clock.Instant) : Prop where
  queued : Queued after ((next.bind Errand.search).toList ++ searches)
  stage : next.isSome = true → (outing.follow now next).Stage
  ended : next = none → (outing.follow now next).IsPassedOn now

/-- A query that is under way remains what `Stage` lists with each of its steps, or ends with all
passed on that was collected. -/
theorem Stage.leads {next : Option Errand} (hstage : outing.Stage)
    (h : Queued env (outing.errand.search.toList ++ searches))
    (hrunning : env.tree.isCancelled token = false)
    (hstep : outing.errand.step token (env, intake) = some ((after, taken), next)) :
    outing.Leads searches after next env.now ∧ taken = outing.errand.takes env.now intake := by
  cases hstage with
  | ready hpoint hsearch hbegun hlast hpassed =>
      have htaking : outing.errand.taking? = none := by simp [Errand.taking?, hpoint]
      rw [Errand.step_of_ready hpoint hsearch hrunning] at hstep
      cases hstep
      rw [hsearch] at h
      refine ⟨⟨queued_begin_search h outing.errand token, fun _ => ?_, fun hnext => (by cases hnext)⟩,
        by simp [Errand.takes, htaking]⟩
      refine .asking env.now _ rfl rfl ?_ ?_ ?_ (deadline_of_begin_search _ token env)
      · simp [follow, hbegun]
      · simp [follow]
      · simp [follow, hpassed, htaking]
  | asking begun search hpoint hsearch hbegun hlast hpassed hscope =>
      have htaking : outing.errand.taking? = none := by simp [Errand.taking?, hpoint]
      obtain ⟨rfl, hasks⟩ := Errand.step_of_asking hpoint hsearch hrunning hstep
      rw [hsearch] at h
      refine ⟨?_, by simp [Errand.takes, htaking]⟩
      cases hasks with
      | goes moved hmoves =>
          refine ⟨h.go hmoves, fun _ => ?_, fun hnext => (by cases hnext)⟩
          have hsame := (Search.step_go hmoves).2.2
          refine .asking begun moved hpoint rfl ?_ rfl ?_ fun scope hown => ?_
          · simp [follow, hbegun]
          · simp [follow, hpassed, htaking]
          · exact hscope scope (hsame ▸ hown)
      | answered freed peers hanswers hfrees =>
          refine ⟨h.free hfrees, fun _ => ?_, fun hnext => (by cases hnext)⟩
          refine .passing peers rfl rfl fun found hfound => ?_
          have hkept : found ∈ search.collected? := by simpa [collected?, follow, hlast] using hfound
          have hanswer := Search.answer_of_step hanswers hkept
          cases hanswer
          simp [follow, hpassed, htaking]
      | failed freed error hfails hfrees =>
          refine ⟨h.free hfrees, fun hnext => (by cases hnext), fun _ found hfound => ?_⟩
          have hkept : found ∈ search.collected? := by simpa [collected?, follow, hlast] using hfound
          cases Search.answer_of_step hfails hkept
      | gaveUp hwaits hexpired hfrees =>
          refine ⟨h.free hfrees, fun hnext => (by cases hnext), fun _ => ?_⟩
          have hleft := is_passed_on_of_waits h hbegun hlast hpassed hscope hwaits hexpired
          simpa [follow, htaking, IsPassedOn, collected?] using hleft
  | passing rest hpoint hsearch hcollected =>
      obtain ⟨_, _, _, hgoes, hpasses⟩ :=
        @Errand.step_of_passing outing.errand token env intake rest hpoint hsearch hrunning
      rw [hgoes] at hstep
      cases hstep
      rw [hsearch] at h
      cases hpasses with
      | done journal hrest htaking =>
          refine ⟨⟨h.of_turns fun _ => rfl, fun hnext => (by cases hnext), fun _ found hfound => .inl ?_⟩,
            by simp [Errand.takes, htaking]⟩
          have hall := hcollected found (by simpa [collected?, follow] using hfound)
          simpa [follow, htaking, hrest] using hall.symm
      | passed next left hnone htimeout hleft hrest hless =>
          refine ⟨⟨?_, fun _ => ?_, fun hnext => (by cases hnext)⟩, rfl⟩
          · simpa [hnone] using h
          · refine .passing left hleft hnone fun found hfound => ?_
            have hall := hcollected found (by simpa [collected?, follow, hnone] using hfound)
            simpa [follow, hrest] using hall

end Outing

namespace Survey

variable {survey after : Survey} {token : Token}

/-- The search of one query among the others. -/
theorem searches_perm (before later : List Outing) (outing : Outing) (others : List Search) :
    ((before ++ outing :: later).filterMap (·.errand.search) ++ others).Perm
      (outing.errand.search.toList ++
        ((before ++ later).filterMap (·.errand.search) ++ others)) := by
  rw [List.filterMap_append, List.filterMap_append, List.filterMap_cons]
  cases outing.errand.search with
  | none => exact .refl _
  | some search =>
      rw [← List.append_assoc]
      exact List.perm_middle.append_right others

/-- A search of somebody else among all. -/
theorem others_perm (own before later : List Search) (search : Search) :
    (own ++ (before ++ search :: later)).Perm (search :: (own ++ (before ++ later))) := by
  rw [← List.append_assoc, ← List.append_assoc]
  exact List.perm_middle

/-- No step takes the cancel of a token back. -/
theorem Step.is_cancelled (hstep : Step token survey after)
    (hcancelled : survey.env.tree.isCancelled token = true) :
    after.env.tree.isCancelled token = true := by
  have hkept : ∀ {env : Environment}, env.tree.cancelled = survey.env.tree.cancelled →
      env.tree.isCancelled token = true := by
    intro env hsame
    rw [ScopeTree.isCancelled, hsame]
    exact hcancelled
  cases hstep with
  | send | pass | intake => exact hcancelled
  | go before outing later env intake next houtings hstep =>
      exact hkept (Errand.step_sends hstep).cancelled
  | finish before outing later env intake houtings hstep =>
      exact hkept (Errand.step_sends hstep).cancelled
  | call place scope limit search env hfind =>
      have hsame := (find_keeps survey.env place scope limit).2
      rw [hfind] at hsame
      exact hkept hsame
  | seek before search later env next hothers hstep =>
      exact (Search.step_go hstep).1.cancelled token hcancelled
  | answer before search later env result hothers hstep =>
      exact (Search.step_answer hstep).cancelled token hcancelled
  | abandon before search later hothers =>
      exact (search.frees_abandon survey.env).cancelled token hcancelled
  | surroundings env hallows => exact hallows.cancelled token hcancelled

/-- Every step keeps what is known of queries and searches, while the scope of the coordinator is
not cancelled. -/
theorem Step.is_sound (hstep : Step token survey after)
    (hrunning : survey.env.tree.isCancelled token = false) (h : survey.IsSound) : after.IsSound := by
  cases hstep with
  | send schedule member =>
      refine ⟨?_, fun outing hmem => ?_, h.ended⟩
      · simpa [searches, Errand.ofMember] using h.queued
      · rcases List.mem_append.1 hmem with hmem | hmem
        · exact h.stages outing hmem
        · rw [List.mem_singleton.1 hmem]
          exact .ready rfl rfl rfl rfl rfl
  | go before outing later env intake next houtings hstep =>
      obtain ⟨hqueued, hstages, hended⟩ := h
      rw [searches, houtings] at hqueued
      rw [houtings] at hstages
      obtain ⟨hleads, -⟩ := (hstages outing (by simp)).leads
        (hqueued.perm (searches_perm before later outing survey.others)) hrunning hstep
      have hperm := searches_perm before later (outing.follow survey.env.now (some next))
        survey.others
      refine ⟨hleads.queued.perm hperm.symm, fun other hmem => ?_, hended⟩
      rcases List.mem_append.1 hmem with hmem | hmem
      · exact hstages other (List.mem_append_left _ hmem)
      · rcases List.mem_cons.1 hmem with rfl | hmem
        · exact hleads.stage rfl
        · exact hstages other (List.mem_append_right _ (.tail _ hmem))
  | finish before outing later env intake houtings hstep =>
      obtain ⟨hqueued, hstages, hended⟩ := h
      rw [searches, houtings] at hqueued
      rw [houtings] at hstages
      obtain ⟨hleads, -⟩ := (hstages outing (by simp)).leads
        (hqueued.perm (searches_perm before later outing survey.others)) hrunning hstep
      refine ⟨hleads.queued, fun other hmem => hstages other ?_, fun entry hmem => ?_⟩
      · exact List.mem_append.2 ((List.mem_append.1 hmem).imp_right (List.mem_cons_of_mem _))
      · rcases List.mem_cons.1 hmem with rfl | hmem
        · exact hleads.ended rfl
        · exact hended entry hmem
  | call place scope limit search env hfind =>
      refine ⟨?_, h.stages, h.ended⟩
      have hentered := h.queued.enter (Environment.find_enters hfind)
        (Environment.collected_of_find hfind)
      exact hentered.perm (others_perm _ [] survey.others search).symm
  | seek before search later env next hothers hstep =>
      refine ⟨?_, h.stages, h.ended⟩
      have hqueued := h.queued
      rw [searches, hothers] at hqueued
      exact ((hqueued.perm (others_perm _ before later search)).go hstep).perm
        (others_perm _ before later next).symm
  | answer before search later env result hothers hstep =>
      refine ⟨?_, h.stages, h.ended⟩
      have hqueued := h.queued
      rw [searches, hothers] at hqueued
      exact (hqueued.perm (others_perm _ before later search)).free (Search.step_answer hstep)
  | abandon before search later hothers =>
      refine ⟨?_, h.stages, h.ended⟩
      have hqueued := h.queued
      rw [searches, hothers] at hqueued
      exact (hqueued.perm (others_perm _ before later search)).free
        (search.frees_abandon survey.env)
  | surroundings env hallows => exact ⟨h.queued.of_turns hallows.turns, h.stages, h.ended⟩
  | pass later hlater => exact ⟨h.queued.of_turns fun _ => rfl, h.stages, h.ended⟩
  | intake intake => exact ⟨h.queued, h.stages, h.ended⟩

/-- Whether there was no query yet. -/
structure IsIdle (survey : Survey) : Prop where
  outings : survey.outings = []
  ended : survey.ended = []
  others : survey.others = []

/-- Queries and searches are sound along every path from where there were none, while the scope of
the coordinator is not cancelled. -/
theorem Path.is_sound (hpath : Path token survey after) (hidle : survey.IsIdle)
    (hrunning : after.env.tree.isCancelled token = false) : after.IsSound := by
  induction hpath with
  | refl =>
      have hnone : survey.searches = [] := by
        rw [searches, hidle.outings, hidle.others]
        rfl
      refine ⟨?_, by simp [hidle.outings], by simp [hidle.ended]⟩
      rw [hnone]
      constructor <;> simp
  | step middle after hpath hstep ih =>
      have hbefore : middle.env.tree.isCancelled token = false := by
        by_contra hcancelled
        rw [hstep.is_cancelled (Bool.not_eq_false _ ▸ hcancelled)] at hrunning
        cases hrunning
      exact hstep.is_sound hbefore (ih hbefore)

/-- A sweep sends its queries in single steps. -/
theorem exists_path_sends (survey : Survey) (token : Token) (schedule : Schedule)
    (members : List Member) :
    ∃ after, Path token survey after ∧ after.env = survey.env ∧ after.intake = survey.intake ∧
      after.outings.map (·.errand) =
        survey.outings.map (·.errand) ++ members.map (Errand.ofMember schedule) := by
  induction members using List.reverseRecOn with
  | nil => exact ⟨survey, .refl survey, rfl, rfl, (List.append_nil _).symm⟩
  | append_singleton members member ih =>
      obtain ⟨after, hpath, henv, hintake, herrands⟩ := ih
      refine ⟨_, .step _ _ _ hpath (.send after schedule member), henv, hintake, ?_⟩
      rw [List.map_append, herrands, List.append_assoc, List.map_append]
      rfl

/-- A coordinator takes its queries on in single steps. -/
theorem exists_path_advance (survey : Survey) (coordinator : Coordinator)
    (herrands : survey.outings.map (·.errand) = coordinator.errands) :
    ∃ after, Path coordinator.scope survey after ∧
      after.outings.map (·.errand) =
        (coordinator.advanceErrands survey.env survey.intake).1.errands ∧
      after.env = (coordinator.advanceErrands survey.env survey.intake).2.1 ∧
      after.intake = (coordinator.advanceErrands survey.env survey.intake).2.2.1 := by
  refine Activity.run_all_keeps
    (motive := fun state errands => ∃ after, Path coordinator.scope survey after ∧
      after.outings.map (·.errand) = errands ∧ after.env = state.1 ∧ after.intake = state.2)
    ?_ (survey.env, survey.intake) [] coordinator.errands
    ⟨survey, .refl survey, herrands, rfl, rfl⟩
  rintro state before errand later ⟨env, intake⟩ next ⟨middle, hpath, hmiddle, henv, hintake⟩ hstep
  obtain ⟨first, rest, houtings, rfl, hrest⟩ := List.map_eq_append_iff.1 hmiddle
  obtain ⟨outing, last, rfl, rfl, rfl⟩ := List.map_eq_cons_iff.1 hrest
  have hstate : state = (middle.env, middle.intake) := Prod.ext henv.symm hintake.symm
  rw [hstate] at hstep
  cases next with
  | none =>
      exact ⟨_, .step _ _ _ hpath (.finish middle first outing last env intake houtings hstep),
        by simp, rfl, rfl⟩
  | some next =>
      exact ⟨_, .step _ _ _ hpath (.go middle first outing last env intake next houtings hstep),
        by simp [Outing.follow], rfl, rfl⟩

/-- However queries of a coordinator's sweeps overlap with each other and with those of others, and
whatever the mechanisms hear and when: while the scope of the coordinator is not cancelled, a query
that has ended has passed on all that its mechanism had collected when the search stopped, in the
same order; only if the clock does not reach the bound of the query, it may have been given up with
all of it, not before a far future. A query whose search has stopped has passed on a first part of
what was collected; it goes on with each of its steps, of which only so many are left, and to pass a
sighting on is to take it in. -/
theorem Path.collected_is_passed (hpath : Path token survey after) (hidle : survey.IsIdle)
    (hrunning : after.env.tree.isCancelled token = false) :
    (∀ entry ∈ after.ended, ∀ found ∈ entry.2.collected?, entry.2.passed = found ∨
      entry.2.passed = [] ∧ ∃ begun ∈ entry.2.begun,
        Clock.after? begun entry.2.errand.query.timeout = none ∧
          begun + Clock.farFuture ≤ entry.1) ∧
    (∀ outing ∈ after.outings, outing.errand.search = none → ∀ found ∈ outing.collected?,
      ∃ rest, outing.errand.query.point.rest? = some rest ∧ found = outing.passed ++ rest ∧
        ∃ reached taken next,
          outing.errand.step token (after.env, after.intake) = some ((reached, taken), next) ∧
          ∀ left ∈ next, left.query.point.stepsLeft < outing.errand.query.point.stepsLeft) ∧
    ∀ outing ∈ after.outings, ∀ reached taken next,
      outing.errand.step token (after.env, after.intake) = some ((reached, taken), next) →
        taken = outing.errand.takes after.env.now after.intake := by
  have hsound := hpath.is_sound hidle hrunning
  refine ⟨hsound.ended, fun outing hmem hsearch found hfound => ?_,
    fun outing hmem reached taken next hstep => ?_⟩
  · cases hsound.stages outing hmem with
    | ready hpoint hsearch hbegun hlast hpassed =>
        rw [Outing.collected?, hlast] at hfound
        cases hfound
    | asking begun search hpoint hasked =>
        rw [hsearch] at hasked
        cases hasked
    | passing rest hpoint hstopped hcollected =>
        obtain ⟨reached, taken, next, hstep, hpasses⟩ :=
          @Errand.step_of_passing outing.errand token after.env after.intake rest hpoint hstopped
            hrunning
        refine ⟨rest, hpoint, hcollected found hfound, reached, taken, next, hstep, ?_⟩
        intro left hleft
        cases hpasses with
        | done => cases hleft
        | passed next _ _ _ _ _ hless =>
            cases hleft
            exact hless
  · obtain ⟨before, later, houtings⟩ := List.append_of_mem hmem
    have hqueued := hsound.queued
    rw [searches, houtings] at hqueued
    exact ((hsound.stages outing hmem).leads
      (hqueued.perm (searches_perm before later outing after.others)) hrunning hstep).2

/-- The identity of a node. -/
def nodeId : PeerId :=
  ⟨16 :: List.replicate 31 0, rfl, by decide +kernel⟩

/-- A sighting of another node. -/
def neighbor : Sighting :=
  .ofInfo ⟨⟨18 :: List.replicate 31 0, rfl, by decide +kernel⟩, ∅⟩

/-- An environment with one mechanism, of the local network, that has heard of the other node and
bounds its queries by a span. -/
def heard (timeout : Clock.Span) : Environment where
  transport := { localId := nodeId }
  mechanisms :=
    [.localNet { info := ⟨nodeId, ∅⟩, queryTimeout := timeout, bound := true,
                 queue := { localId := nodeId, heard := [neighbor] }, shutdown := [0] }]

/-- That mechanism. -/
def listener : Member :=
  ⟨0, "mdns"⟩

/-- The schedule of sweeps whose queries are bounded by a span. -/
def schedule (timeout : Clock.Span) : Schedule :=
  { queryTimeout := timeout }

/-- A coordinator that has sent that mechanism one query. -/
def asking (timeout : Clock.Span) : Survey where
  env := heard timeout
  intake := { localId := nodeId }

/-- It has not asked for anything yet. -/
theorem is_idle_asking (timeout : Clock.Span) : (asking timeout).IsIdle :=
  ⟨rfl, rfl, rfl⟩

/-- A query whose bound comes after three milliseconds takes the other node from the queue and waits
for more until then. -/
theorem exists_ended_in_time : ∃ after, Path [1] (asking 3) after ∧
    after.env.tree.isCancelled [1] = false ∧ ∃ entry ∈ after.ended,
      entry.2.collected? = some [neighbor] ∧ entry.2.begun = some 0 ∧
        entry.2.errand.query.timeout = 3 := by
  have hsent : Path [1] (asking 3) _ := .step _ _ _ (.refl _) (.send _ (schedule 3) listener)
  have hasked := Path.step _ _ _ hsent (.go _ [] _ [] _ _ _ rfl rfl)
  have htaken := Path.step _ _ _ hasked (.go _ [] _ [] _ _ _ rfl rfl)
  have hwaited := Path.step _ _ _ htaken (.pass _ 3 (Nat.zero_le _))
  have hanswered := Path.step _ _ _ hwaited (.go _ [] _ [] _ _ _ rfl rfl)
  have hpicked := Path.step _ _ _ hanswered (.go _ [] _ [] _ _ _ rfl rfl)
  have hgiven := Path.step _ _ _ hpicked (.go _ [] _ [] _ _ _ rfl rfl)
  have hended := Path.step _ _ _ hgiven (.finish _ [] _ [] _ _ rfl rfl)
  exact ⟨_, hended, rfl, _, .head _, rfl, rfl, rfl⟩

/-- That query passes the other node on. -/
theorem Path.collected_is_passed_in_time : (asking 3).IsIdle ∧ ∃ after, Path [1] (asking 3) after ∧
    after.env.tree.isCancelled [1] = false ∧ ∃ entry ∈ after.ended,
      entry.2.collected? = some [neighbor] ∧ entry.2.passed = [neighbor] := by
  obtain ⟨after, hpath, hrunning, entry, hmem, hcollected, hbegun, htimeout⟩ := exists_ended_in_time
  refine ⟨is_idle_asking 3, after, hpath, hrunning, entry, hmem, hcollected, ?_⟩
  obtain ⟨hall, -⟩ := hpath.collected_is_passed (is_idle_asking 3) hrunning
  rcases hall entry hmem [neighbor] hcollected with hpassed | ⟨-, begun, hasked, hnone, -⟩
  · exact hpassed
  · rw [hbegun] at hasked
    cases hasked
    rw [htimeout] at hnone
    exact absurd hnone (by decide)

/-- A query whose bound the clock does not reach takes the other node from the queue, waits for
more, and is given up thirty years later. -/
theorem exists_given_up : ∃ after, Path [1] (asking Clock.longest) after ∧
    after.env.tree.isCancelled [1] = false ∧ ∃ entry ∈ after.ended,
      entry.2.collected? = some [neighbor] ∧ entry.2.passed = [] := by
  have hsent : Path [1] (asking Clock.longest) _ :=
    .step _ _ _ (.refl _) (.send _ (schedule Clock.longest) listener)
  have hasked := Path.step _ _ _ hsent (.go _ [] _ [] _ _ _ rfl rfl)
  have htaken := Path.step _ _ _ hasked (.go _ [] _ [] _ _ _ rfl rfl)
  have hpassed := Path.step _ _ _ htaken (.pass _ Clock.farFuture (Nat.zero_le _))
  have hended := Path.step _ _ _ hpassed (.finish _ [] _ [] _ _ rfl rfl)
  exact ⟨_, hended, rfl, _, .head _, rfl, rfl⟩

/-- It is not so that every query that ended while the scope of the coordinator was not cancelled
has passed on all that its mechanism had collected. -/
theorem not_always_passed :
    ¬ ∀ token survey after, IsIdle survey → Path token survey after →
      after.env.tree.isCancelled token = false →
        ∀ entry ∈ after.ended, ∀ found ∈ entry.2.collected?, entry.2.passed = found := by
  intro hall
  obtain ⟨after, hpath, hrunning, entry, hmem, hcollected, hnone⟩ := exists_given_up
  have hpassed := hall [1] _ after (is_idle_asking Clock.longest) hpath hrunning entry hmem
    [neighbor] hcollected
  rw [hnone] at hpassed
  cases hpassed

end Survey

end Coordinator

end PeerFinder
