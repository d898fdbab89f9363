import PeerFinder.Coordinator.Query
import PeerFinder.Coordinator.Schedule
import PeerFinder.Environment
import PeerFinder.Ticker

/-!
# The loops of a coordinator

The sweeper sends one query to every active mechanism, at once and then periodically, and does not
wait for the answers. The reporter notes how many peers there are, periodically.
-/

namespace PeerFinder.Coordinator

/-- A mechanism of a coordinator: its place in the environment, and its name. -/
structure Member where
  place : Nat
  name : String
deriving DecidableEq, Repr

/-- A query on its way: whom it asks, for how many peers, the query itself, and the search at the
mechanism once that has begun. -/
structure Errand where
  member : Member
  limit : Nat
  query : Query
  search : Option Search := none

namespace Errand

/-- The errand of a sweep to a mechanism. -/
def ofMember (schedule : Schedule) (member : Member) : Errand where
  member := member
  limit := schedule.queryLimit
  query := { mechanism := member.name, timeout := schedule.queryTimeout }

/-- Begin the search, under a scope that ends with the bound of the query. -/
def beginSearch (errand : Errand) (token : Token) (env : Environment) : Search × Environment :=
  let (scope, tree) :=
    (Scope.ofToken token).withTimeout env.now errand.query.timeout env.tree
  { env with tree := tree }.find errand.member.place scope errand.limit

/-- Take the query itself on by a step, and the search with it: it begins when the mechanism is to
be asked, and is given up when that is over. -/
def stepQuery (token : Token) (answer? : Option (Except Error (List Sighting)))
    (state : Environment × Intake) (errand : Errand) :
    Option ((Environment × Intake) × Option Errand) :=
  let (env, intake) := state
  (errand.query.step (env.moment token) answer? ⟨intake, env.journal⟩).map fun (noted, query?) =>
    let env := { env with journal := noted.journal }
    match query? with
    | some { point := .asking expires, .. } =>
        let (search, env) := errand.beginSearch token env
        ((env, noted.state),
          some { errand with
            query := { errand.query with point := .asking expires }, search := some search })
    | _ =>
        let env := (errand.search.map fun search => search.abandon env).getD env
        ((env, noted.state),
          query?.map fun query => { errand with query := query, search := none })

/-- A step of an errand, under the token of its coordinator. -/
def step (token : Token) : Activity.Step (Environment × Intake) Errand :=
  fun (env, intake) errand =>
    match errand.search with
    | none => errand.stepQuery token none (env, intake)
    | some search =>
        if env.tree.isCancelled token then errand.stepQuery token none (env, intake)
        else
          match search.step env with
          | none => errand.stepQuery token none (env, intake)
          | some (env, .inl search) =>
              some ((env, intake), some { errand with search := some search })
          | some (env, .inr answer) => errand.stepQuery token (some answer) (env, intake)

/-- When an errand may go on by itself. -/
def wake (errand : Errand) (env : Environment) : Option Clock.Instant :=
  Clock.earlier errand.query.wake (errand.search.bind fun search => search.wake env)

end Errand

/-- The points of a loop with a tick. -/
inductive Loop where
  /-- It has not begun. -/
  | ready
  /-- It waits for the next tick. -/
  | waiting (ticker : Ticker)
deriving DecidableEq, Repr

/-- When a loop that waits may go on by itself. -/
def Loop.wake : Loop → Option Clock.Instant
  | .ready => none
  | .waiting ticker => some ticker.due

/-- The loop that queries the mechanisms that started. -/
structure Sweeper where
  members : List Member
  loop : Loop := .ready
deriving DecidableEq, Repr

/-- A step of the sweeper, which adds to the errands. A sweeper whose interval is zero never
begins. -/
def Sweeper.step (schedule : Schedule) (moment : Moment) :
    Activity.Step (List Errand) Sweeper :=
  fun errands sweeper =>
    match sweeper.loop with
    | .ready =>
        if schedule.sweepInterval = 0 then some (errands, none)
        else
          let ticker := Ticker.immediate moment.now schedule.sweepInterval .skip
          some (errands, some { sweeper with loop := .waiting ticker })
    | .waiting ticker =>
        let tick? := ticker.fire? moment.now
        if moment.stops tick?.isSome then some (errands, none)
        else tick?.map fun ticker =>
          (errands ++ sweeper.members.map (Errand.ofMember schedule),
            some { sweeper with loop := .waiting ticker })

/-- The loop that notes how many peers there are. -/
structure Reporter where
  loop : Loop := .ready
deriving DecidableEq, Repr

/-- A step of the reporter. A reporter whose interval is zero never begins. -/
def Reporter.step (schedule : Schedule) (moment : Moment) :
    Activity.Step (Noted PeerStore) Reporter :=
  fun store reporter =>
    match reporter.loop with
    | .ready =>
        if schedule.statsInterval = 0 then some (store, none)
        else
          let ticker := Ticker.deferred moment.now schedule.statsInterval .skip
          some (store, some ⟨.waiting ticker⟩)
    | .waiting ticker =>
        let tick? := ticker.fire? moment.now
        if moment.stops tick?.isSome then some (store, none)
        else tick?.map fun ticker =>
          (store.note moment.now
              (.population store.state.size store.state.connectable.length),
            some ⟨.waiting ticker⟩)

end PeerFinder.Coordinator
