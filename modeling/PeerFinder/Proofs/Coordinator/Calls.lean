import PeerFinder.Proofs.Coordinator.Announcements
import PeerFinder.Proofs.Coordinator.Cancellation
import PeerFinder.Proofs.Environment.Queries

/-!
# What mechanisms are called for

A coordinator calls its mechanisms in two places: a start starts them, and a query that begins asks
one of them for peers. `Node.Turn` is one step of a coordinator in time with the calls that it makes,
and `Node.Run` strings such steps together. Time passes in a run only when no start and no query can
go on, and not beyond a tick of the sweeper that is due. `Node.Run.receives` says that mechanisms
remember exactly the queries of a run, and `Node.Run.queries_after_cancel` that there are none once
the scope of the coordinator is cancelled.
-/

namespace PeerFinder

/-- What a mechanism remembers of the queries that it received. -/
def Mechanism.queries? : Mechanism → Option (List ReceivedQuery)
  | .scripted mechanism => some mechanism.queries
  | .localNet _ | .seeds _ | .rendezvous _ => none

/-- What the mechanism of a place remembers of the queries that it received. -/
def Environment.received? (env : Environment) (place : Nat) : Option (List ReceivedQuery) :=
  env.mechanisms[place]?.bind Mechanism.queries?

namespace Coordinator

/-- A call of a mechanism: a start, and whether it succeeded, or a query. -/
inductive MechanismCall where
  | start (member : Member) (succeeded : Bool)
  | find (member : Member) (query : ReceivedQuery)
deriving DecidableEq

namespace MechanismCall

/-- The mechanism that a call starts, and whether it started. -/
def start? : MechanismCall → Option (Member × Bool)
  | .start member succeeded => some (member, succeeded)
  | .find .. => none

/-- The mechanism that a call asks, and the query. -/
def find? : MechanismCall → Option (Member × ReceivedQuery)
  | .start .. => none
  | .find member query => some (member, query)

end MechanismCall

/-- The starts among calls, with whether they succeeded. -/
def starts (calls : List MechanismCall) : List (Member × Bool) :=
  calls.filterMap MechanismCall.start?

/-- The mechanisms that calls started. -/
def started (calls : List MechanismCall) : List Member :=
  ((starts calls).filter Prod.snd).map Prod.fst

/-- The queries among calls. -/
def queries (calls : List MechanismCall) : List (Member × ReceivedQuery) :=
  calls.filterMap MechanismCall.find?

/-- The starts among calls and later ones. -/
theorem starts_append (calls more : List MechanismCall) :
    starts (calls ++ more) = starts calls ++ starts more :=
  List.filterMap_append

/-- The mechanisms that calls and later ones started. -/
theorem started_append (calls more : List MechanismCall) :
    started (calls ++ more) = started calls ++ started more := by
  rw [started, starts_append, List.filter_append, List.map_append]
  rfl

/-- The mechanisms that calls and one more start started. -/
theorem started_append_start (calls : List MechanismCall) (member : Member) (succeeded : Bool) :
    started (calls ++ [.start member succeeded]) =
      if succeeded then started calls ++ [member] else started calls := by
  rw [started_append]
  cases succeeded with
  | false => exact List.append_nil _
  | true => rfl

/-- The queries among calls and later ones. -/
theorem queries_append (calls more : List MechanismCall) :
    queries (calls ++ more) = queries calls ++ queries more :=
  List.filterMap_append

/-- Calls that are queries start nothing. -/
theorem starts_map_find (asked : List (Member × ReceivedQuery)) :
    starts (asked.map fun query => .find query.1 query.2) = [] := by
  rw [starts, List.filterMap_map, List.filterMap_eq_nil_iff]
  intro query _
  rfl

/-- Calls that are queries are all queries. -/
theorem queries_map_find (asked : List (Member × ReceivedQuery)) :
    queries (asked.map fun query => .find query.1 query.2) = asked := by
  rw [queries, List.filterMap_map]
  exact List.filterMap_some

/-- The queries among those to the mechanism of a place. -/
def receivedAt (place : Nat) (asked : List (Member × ReceivedQuery)) : List ReceivedQuery :=
  (asked.filter fun query => query.1.place = place).map Prod.snd

/-- Whether mechanisms received these queries from one environment to another. -/
def Receives (before after : Environment) (asked : List (Member × ReceivedQuery)) : Prop :=
  ∀ place, after.received? place = (before.received? place).map (· ++ receivedAt place asked)

namespace Receives

variable {env middle after : Environment}

/-- Mechanisms that remember what they remembered received nothing. -/
theorem of_eq (h : ∀ place, after.received? place = env.received? place) :
    Receives env after [] := by
  intro place
  rw [h place]
  cases env.received? place <;> simp [receivedAt]

/-- Mechanisms that are the same received nothing. -/
theorem of_mechanisms (h : after.mechanisms = env.mechanisms) : Receives env after [] :=
  of_eq fun place => by rw [Environment.received?, h]; rfl

/-- Mechanisms receive queries one after another. -/
theorem trans {asked more : List (Member × ReceivedQuery)} (h : Receives env middle asked)
    (hnext : Receives middle after more) : Receives env after (asked ++ more) := by
  intro place
  rw [hnext place, h place, Option.map_map]
  refine Option.map_congr fun received _ => ?_
  simp [receivedAt]

/-- A mechanism that changes received what it remembers since. -/
theorem of_set_append {asked : List (Member × ReceivedQuery)} {place : Nat}
    {old mechanism : Mechanism} (hplace : env.mechanisms[place]? = some old)
    (hmechanisms : after.mechanisms = env.mechanisms.set place mechanism)
    (hqueries : mechanism.queries? = old.queries?.map (· ++ receivedAt place asked))
    (hothers : ∀ query ∈ asked, query.1.place = place) : Receives env after asked := by
  intro other
  have hlt := (List.getElem?_eq_some_iff.1 hplace).1
  unfold Environment.received?
  rw [hmechanisms]
  by_cases hsame : place = other
  · subst hsame
    rw [List.getElem?_set_self hlt, hplace]
    exact hqueries
  · have hnone : receivedAt other asked = [] := by
      rw [receivedAt, List.map_eq_nil_iff, List.filter_eq_nil_iff]
      intro query hmem hplaced
      exact hsame ((hothers query hmem).symm.trans (of_decide_eq_true hplaced))
    rw [List.getElem?_set_ne hsame, hnone]
    cases env.mechanisms[other]?.bind Mechanism.queries? <;> simp

/-- A mechanism that changes and remembers what it remembered received nothing. -/
theorem of_set {place : Nat} {old mechanism : Mechanism}
    (hplace : env.mechanisms[place]? = some old)
    (hmechanisms : after.mechanisms = env.mechanisms.set place mechanism)
    (hqueries : mechanism.queries? = old.queries?) : Receives env after [] := by
  refine of_set_append hplace hmechanisms ?_ nofun
  rw [hqueries]
  cases old.queries? <;> simp [receivedAt]

end Receives

section Environment

variable (env : Environment)

/-- The start of a mechanism is no query. -/
theorem receives_start (place : Nat) (token : Token) :
    Receives env (env.start place token).2 [] := by
  unfold Environment.start
  split
  · exact .of_mechanisms rfl
  · rename_i service hplace
    split
    · exact .of_mechanisms rfl
    · exact .of_set hplace rfl rfl
  · rename_i service hplace
    exact .of_set hplace rfl rfl
  · rename_i service hplace
    exact .of_set hplace rfl rfl
  · rename_i mechanism hplace
    exact .of_set hplace rfl rfl

/-- The stop of a mechanism is no query. -/
theorem receives_stop (place : Nat) : Receives env (env.stop place).2 [] := by
  unfold Environment.stop
  split
  · exact .of_mechanisms rfl
  · rename_i service hplace
    exact .of_set hplace rfl rfl
  · exact .of_mechanisms rfl
  · rename_i service hplace
    exact .of_set hplace rfl rfl
  · rename_i mechanism hplace
    exact .of_set hplace rfl rfl

/-- The background work of a mechanism is no query. -/
theorem receives_advance_mechanism (place : Nat) :
    Receives env (env.advanceMechanism place).1 [] := by
  unfold Environment.advanceMechanism
  split
  · rename_i service hplace
    exact .of_set hplace rfl rfl
  · rename_i service hplace
    exact .of_set hplace rfl rfl
  · rename_i service hplace
    exact .of_set hplace rfl rfl
  · exact .of_mechanisms rfl
  · exact .of_mechanisms rfl

/-- The background work of several mechanisms is no query. -/
theorem receives_advance_places (places : List Nat) :
    Receives env (env.advancePlaces places).1 [] := by
  induction places generalizing env with
  | nil => exact .of_mechanisms rfl
  | cons place rest ih =>
      exact (receives_advance_mechanism env place).trans (ih (env.advanceMechanism place).1)

/-- All background work is no query. -/
theorem receives_advance : Receives env env.advance.1 [] :=
  receives_advance_places _ _

/-- Giving a search up is no query. -/
theorem receives_abandon (search : Search) : Receives env (search.abandon env) [] := by
  unfold Search.abandon
  split
  · exact .of_mechanisms rfl
  · exact .of_mechanisms rfl
  · exact .of_mechanisms rfl
  · split
    · exact .of_mechanisms rfl
    · rename_i place call service hservice
      exact .of_set (Environment.mechanism_of_local_net hservice) rfl rfl

/-- A query begins at the mechanism that it asks. -/
theorem receives_find (member : Member) (scope : Scope) (limit : Nat) :
    Receives env (env.find member.place scope limit).2
      [(member, ⟨env.now, limit, scope.deadline⟩)] := by
  have hat : receivedAt member.place [(member, ⟨env.now, limit, scope.deadline⟩)] =
      [⟨env.now, limit, scope.deadline⟩] := by simp [receivedAt]
  have hmember : ∀ query ∈ [(member, (⟨env.now, limit, scope.deadline⟩ : ReceivedQuery))],
      query.1.place = member.place := by simp
  unfold Environment.find
  split
  · rename_i hvacant
    intro place
    by_cases hsame : member.place = place
    · rw [Environment.received?, ← hsame, hvacant]
      rfl
    · cases env.received? place <;> simp [receivedAt, hsame]
  · rename_i service hplace
    exact .of_set_append hplace rfl rfl hmember
  · rename_i service hplace
    exact .of_set_append hplace rfl rfl hmember
  · rename_i service hplace
    obtain ⟨hlt, hservice⟩ := List.getElem?_eq_some_iff.1 hplace
    have hkept := List.set_getElem_self hlt
    rw [hservice] at hkept
    exact .of_set_append hplace hkept.symm rfl hmember
  · rename_i mechanism hplace
    exact .of_set_append hplace rfl (by rw [hat]; rfl) hmember

/-- The beginning of a query takes no time and cancels nothing. -/
theorem find_keeps (place : Nat) (scope : Scope) (limit : Nat) :
    (env.find place scope limit).2.now = env.now ∧
      (env.find place scope limit).2.tree.cancelled = env.tree.cancelled := by
  unfold Environment.find
  split <;> exact ⟨rfl, rfl⟩

end Environment

/-- A step of a search is no query and cancels nothing. -/
theorem receives_search {search : Search} {env after : Environment}
    {next : Search ⊕ Except Error (List Sighting)} (hstep : search.step env = some (after, next)) :
    Receives env after [] ∧ after.tree = env.tree := by
  unfold Search.step at hstep
  cases search with
  | answered result =>
      cases hstep
      exact ⟨.of_mechanisms rfl, rfl⟩
  | scripted due result =>
      dsimp only at hstep
      split at hstep <;> cases hstep
      exact ⟨.of_mechanisms rfl, rfl⟩
  | drain place call =>
      dsimp only at hstep
      split at hstep
      · cases hstep
        exact ⟨.of_mechanisms rfl, rfl⟩
      · rename_i service hservice
        obtain ⟨_, -, heq⟩ := Option.map_eq_some_iff.1 hstep
        cases heq
        exact ⟨.of_set (Environment.mechanism_of_local_net hservice) rfl rfl, rfl⟩
  | lookup call =>
      obtain ⟨_, -, heq⟩ := Option.map_eq_some_iff.1 hstep
      cases heq
      exact ⟨.of_mechanisms rfl, rfl⟩

/-- A query begins with its first step, and no other step takes it to its mechanism. -/
theorem Query.step_points {query next : Query} {moment : Moment}
    {answer? : Option (Except Error (List Sighting))} {intake after : Noted Intake}
    (hstep : query.step moment answer? intake = some (after, some next)) :
    next.point ≠ .ready ∧
      (query.point = .ready ↔ ∃ expires, next.point = .asking expires) := by
  unfold step at hstep
  cases hpoint : query.point with
  | ready =>
      simp only [hpoint] at hstep
      split at hstep <;> cases hstep
      exact ⟨nofun, iff_of_true rfl ⟨_, rfl⟩⟩
  | asking expires =>
      simp only [hpoint] at hstep
      split at hstep
      · cases hstep
      · split at hstep
        · cases hstep
          exact ⟨nofun, iff_of_false nofun nofun⟩
        · cases hstep
        · split at hstep <;> cases hstep
  | ingesting rest found new =>
      cases rest with
      | nil =>
          simp only [hpoint] at hstep
          cases hstep
      | cons sighting rest =>
          simp only [hpoint] at hstep
          split at hstep <;> cases hstep
          exact ⟨nofun, iff_of_false nofun nofun⟩
  | accepting sighting rest found new =>
      simp only [hpoint] at hstep
      cases hstep
      exact ⟨nofun, iff_of_false nofun nofun⟩

/-- A query that was not begun begins with its first step, unless it was stopped. -/
theorem Query.step_of_ready {query : Query} {moment : Moment}
    {answer? : Option (Except Error (List Sighting))} {intake : Noted Intake}
    (hready : query.point = .ready) (hrunning : moment.stopping = false) :
    query.step moment answer? intake =
      some (intake, query.goTo (.asking (Clock.after moment.now query.timeout))) := by
  simp only [step, hready, hrunning]
  rfl

namespace Errand

/-- The query that an errand is still to send, as it would at an instant. -/
def pending? (now : Clock.Instant) (errand : Errand) : Option (Member × ReceivedQuery) :=
  if errand.query.point = .ready then
    some (errand.member, ⟨now, errand.limit, Clock.after? now errand.query.timeout⟩)
  else none

/-- The query that an errand sends at an instant with the step that begins it. -/
def sent? (now : Clock.Instant) (errand : Errand) (next : Option Errand) :
    Option (Member × ReceivedQuery) :=
  if ∃ moved ∈ next, moved.query.point ≠ .ready then errand.pending? now else none

variable {errand : Errand} {token : Token} {env after : Environment} {intake taken : Intake}
  {next : Option Errand}

/-- What a step of an errand means for the query that it sends. -/
structure Sends (errand : Errand) (token : Token) (env after : Environment)
    (next : Option Errand) : Prop where
  now : after.now = env.now
  cancelled : after.tree.cancelled = env.tree.cancelled
  receives : Receives env after (errand.sent? env.now next).toList
  /-- Unless it was stopped, its query is sent or remains to be sent. -/
  pending : env.tree.isCancelled token = false →
    (errand.sent? env.now next).toList ++ next.toList.filterMap (pending? env.now) =
      (errand.pending? env.now).toList

/-- An errand whose query was begun has none to send. -/
theorem pending_eq_none (hpoint : errand.query.point ≠ .ready) (now : Clock.Instant) :
    errand.pending? now = none :=
  if_neg hpoint

/-- An errand that does not begin its query sends none. -/
theorem sent_of_point (hpoint : errand.query.point ≠ .ready) (now : Clock.Instant)
    (next : Option Errand) : errand.sent? now next = none := by
  rw [sent?, pending_eq_none hpoint, ite_self]

/-- The beginning of a search takes no time, cancels nothing and sends the query. -/
theorem begin_search_sends (errand : Errand) (token : Token) (env : Environment) :
    (errand.beginSearch token env).2.now = env.now ∧
      (errand.beginSearch token env).2.tree.cancelled = env.tree.cancelled ∧
      Receives env (errand.beginSearch token env).2
        [(errand.member, ⟨env.now, errand.limit, Clock.after? env.now errand.query.timeout⟩)] := by
  let bounded := (Scope.ofToken token).withTimeout env.now errand.query.timeout env.tree
  obtain ⟨hnow, hcancelled⟩ :=
    find_keeps { env with tree := bounded.2 } errand.member.place bounded.1 errand.limit
  have hfind := receives_find { env with tree := bounded.2 } errand.member bounded.1 errand.limit
  exact ⟨hnow, hcancelled, hfind⟩

/-- Giving the search of an errand up takes no time, cancels nothing and is no query. -/
theorem give_up_sends (errand : Errand) (env : Environment) :
    ((errand.search.map fun search => search.abandon env).getD env).now = env.now ∧
      ((errand.search.map fun search => search.abandon env).getD env).tree.cancelled =
        env.tree.cancelled ∧
      Receives env ((errand.search.map fun search => search.abandon env).getD env) [] := by
  cases errand.search with
  | none => exact ⟨rfl, rfl, .of_mechanisms rfl⟩
  | some search =>
      exact ⟨(search.frees_abandon env).now, congrArg ScopeTree.cancelled (abandon_tree search env),
        receives_abandon env search⟩

/-- What a step of its query means for the query that an errand sends. -/
theorem step_query_sends {answer? : Option (Except Error (List Sighting))}
    (hstep : errand.stepQuery token answer? (env, intake) = some ((after, taken), next)) :
    errand.Sends token env after next := by
  obtain ⟨⟨noted, query?⟩, hquery, heq⟩ := Option.map_eq_some_iff.1 hstep
  dsimp only at heq
  split at heq
  · -- The search begins, so the query does.
    rename_i mechanism timeout expires
    cases heq
    have hready : errand.query.point = .ready := (Query.step_points hquery).2.2 ⟨expires, rfl⟩
    obtain ⟨hnow, hcancelled, hreceives⟩ :=
      errand.begin_search_sends token { env with journal := noted.journal }
    have hsent : errand.sent? env.now (some { errand with
        query := { errand.query with point := .asking expires }
        search := some (errand.beginSearch token { env with journal := noted.journal }).1 }) =
          errand.pending? env.now :=
      if_pos ⟨_, rfl, nofun⟩
    refine ⟨hnow, hcancelled, ?_, fun _ => ?_⟩
    · rw [hsent, pending?, if_pos hready]
      exact hreceives
    · rw [hsent]
      exact List.append_nil _
  · rename_i hasking
    cases heq
    obtain ⟨hnow, hcancelled, hreceives⟩ := errand.give_up_sends { env with journal := noted.journal }
    cases query? with
    | none =>
        have hunsent : errand.sent? env.now none = none := if_neg (by simp)
        refine ⟨hnow, hcancelled, ?_, fun hrunning => ?_⟩
        · rw [Option.map_none, hunsent]
          exact hreceives
        · have hpoint : errand.query.point ≠ .ready := by
            intro hready
            rw [Query.step_of_ready hready hrunning] at hquery
            cases hquery
          rw [Option.map_none, hunsent, pending_eq_none hpoint]
          rfl
    | some query =>
        obtain ⟨hbegun, hbegins⟩ := Query.step_points hquery
        have hpoint : errand.query.point ≠ .ready := by
          intro hready
          obtain ⟨expires, hexpires⟩ := hbegins.1 hready
          exact hasking query.mechanism query.timeout expires (by rw [← hexpires])
        refine ⟨hnow, hcancelled, ?_, fun _ => ?_⟩
        · rw [sent_of_point hpoint]
          exact hreceives
        · rw [sent_of_point hpoint, pending_eq_none hpoint]
          exact List.filterMap_cons_none (pending_eq_none hbegun _)

/-- What a step of an errand means for the query that it sends. -/
theorem step_sends (hstep : errand.step token (env, intake) = some ((after, taken), next)) :
    errand.Sends token env after next := by
  unfold step at hstep
  cases hsearch : errand.search with
  | none =>
      simp only [hsearch] at hstep
      exact step_query_sends hstep
  | some search =>
      simp only [hsearch] at hstep
      split at hstep
      · exact step_query_sends hstep
      · split at hstep
        · exact step_query_sends hstep
        · -- The search goes on, and the query stays where it is.
          rename_i moved search hmoves
          cases hstep
          have hnow := Search.step_now hmoves
          obtain ⟨hreceives, htree⟩ := receives_search hmoves
          have hunsent :
              errand.sent? env.now (some { errand with search := some search }) = none := by
            by_cases hready : errand.query.point = .ready
            · exact if_neg (by simp [hready])
            · exact sent_of_point hready _ _
          refine ⟨hnow, congrArg ScopeTree.cancelled htree, by rw [hunsent]; exact hreceives,
            fun _ => ?_⟩
          rw [hunsent]
          unfold pending?
          split_ifs with hready <;> simp [hready]
        · -- The answer is there, and the query goes on with it.
          rename_i moved answer hmoves
          have hnow := Search.step_now hmoves
          obtain ⟨hreceives, htree⟩ := receives_search hmoves
          have hsends := step_query_sends hstep
          refine ⟨hsends.now.trans hnow, ?_, ?_, fun hrunning => ?_⟩
          · rw [← htree]
            exact hsends.cancelled
          · rw [← hnow]
            exact hreceives.trans hsends.receives
          · rw [← hnow]
            exact hsends.pending (htree ▸ hrunning)

/-- An errand that was not begun can go on. -/
theorem step_of_pending (hready : errand.query.point = .ready) :
    errand.step token (env, intake) ≠ none := by
  -- Whether or not there is an answer, a query that was not begun goes on.
  have hquery : ∀ env answer?, errand.stepQuery token answer? (env, intake) ≠ none := by
    intro env answer?
    unfold stepQuery Query.step
    simp only [hready]
    split <;> nofun
  cases hsearch : errand.search with
  | none =>
      simp only [step, hsearch]
      exact hquery env none
  | some search =>
      simp only [step, hsearch]
      split
      · exact hquery env none
      · split
        · exact hquery env none
        · nofun
        · exact hquery _ _

end Errand

/-- The mechanism that a start starts with a step, and whether that succeeds. -/
def Startup.call? (env : Environment) (scope : Token) : Startup → Option MechanismCall
  | .starting (member :: _) _ => some (.start member (env.start member.place scope).1.isOk)
  | .entering | .starting [] _ => none

section Calls

variable {env after : Environment} {coordinator moved : Coordinator}

/-- A step of a start takes no time, is no query, and keeps the schedule and the mechanisms. -/
theorem startup_step_receives {call : Startup} {next : Startup ⊕ Except Error Unit}
    (hstep : call.step (env, coordinator) = some ((after, moved), next)) :
    after.now = env.now ∧ Receives env after [] ∧ moved.schedule = coordinator.schedule ∧
      moved.members = coordinator.members := by
  unfold Startup.step at hstep
  cases call with
  | entering =>
      dsimp only at hstep
      split at hstep
      · cases hstep
      · split at hstep
        · cases hstep
          exact ⟨rfl, .of_mechanisms rfl, rfl, rfl⟩
        · split at hstep <;> cases hstep <;> exact ⟨rfl, .of_mechanisms rfl, rfl, rfl⟩
  | starting rest started =>
      cases rest with
      | nil =>
          cases hstep
          exact ⟨rfl, .of_mechanisms rfl, rfl, rfl⟩
      | cons member rest =>
          cases hstep
          exact ⟨(env.allows_start member.place _).now, receives_start env member.place _, rfl, rfl⟩

/-- A step of a stop takes no time, is no query, and keeps the schedule and the mechanisms. -/
theorem shutdown_step_receives {call : Shutdown} {next : Shutdown ⊕ Except Error Unit}
    (hstep : call.step (env, coordinator) = some ((after, moved), next)) :
    after.now = env.now ∧ Receives env after [] ∧ moved.schedule = coordinator.schedule ∧
      moved.members = coordinator.members := by
  unfold Shutdown.step at hstep
  cases call with
  | cancelling =>
      cases hstep
      exact ⟨rfl, .of_mechanisms rfl, rfl, rfl⟩
  | entering =>
      dsimp only at hstep
      split at hstep <;> cases hstep
      exact ⟨rfl, .of_mechanisms rfl, rfl, rfl⟩
  | stopping rest errors =>
      cases rest with
      | nil =>
          cases hstep
          exact ⟨rfl, .of_mechanisms rfl, rfl, rfl⟩
      | cons member rest =>
          cases hstep
          exact ⟨(env.allows_stop member.place).now, receives_stop env member.place, rfl, rfl⟩

end Calls

namespace Node

/-- Whether time may pass up to an instant: no start and no query can go on, and the sweeper waits
for a tick that is not due before. -/
structure MayPass (node : Node) (later : Clock.Instant) : Prop where
  startups : ∀ call ∈ node.startups, call.step (node.env, node.coordinator) = none
  errands : ∀ errand ∈ node.coordinator.errands,
    errand.step node.coordinator.scope (node.env, node.intake) = none
  sweeper : ∀ sweeper, node.coordinator.sweeper = some sweeper →
    ∃ ticker, sweeper.loop = .waiting ticker ∧ later ≤ ticker.due

/-- The single steps of a node in time, with the calls of mechanisms that they make. -/
inductive Turn : Node → List MechanismCall → Node → Prop where
  | query (node : Node) (before : List Errand) (errand : Errand) (later : List Errand)
      (env : Environment) (intake : Intake) (next : Option Errand)
      (herrands : node.coordinator.errands = before ++ errand :: later)
      (hstep : errand.step node.coordinator.scope (node.env, node.intake) =
        some ((env, intake), next)) :
      Turn node ((errand.sent? node.env.now next).toList.map fun query => .find query.1 query.2)
        { node.withErrands (before ++ next.toList ++ later) with env := env, intake := intake }
  | startup (node : Node) (before : List Startup) (call : Startup) (later : List Startup)
      (env : Environment) (coordinator : Coordinator) (next : Startup ⊕ Except Error Unit)
      (hcalls : node.startups = before ++ call :: later)
      (hstep : call.step (node.env, node.coordinator) = some ((env, coordinator), next)) :
      Turn node (call.call? node.env node.coordinator.scope).toList
        { node with
          env := env, coordinator := coordinator
          startups := before ++ next.getLeft?.toList ++ later }
  /-- Anything else happens at the same instant; a start may be called. -/
  | other (node : Node) (label : Label) (after : Node) (hstep : Step node label after)
      (hlabel : ∀ taking, label ≠ .query taking)
      (hstartups : after.startups = node.startups ∨ after.startups = .entering :: node.startups)
      (hnow : after.env.now = node.env.now) (hreceives : Receives node.env after.env []) :
      Turn node [] after
  | pass (node : Node) (later : Clock.Instant) (hlater : node.env.now ≤ later)
      (hpass : node.MayPass later) : Turn node [] (node.atTime later)

/-- Steps in time one after another, with the calls of mechanisms that they make. -/
inductive Run : Node → List MechanismCall → Node → Prop where
  | refl (node : Node) : Run node [] node
  | turn (node : Node) (calls : List MechanismCall) (middle : Node) (more : List MechanismCall)
      (after : Node) (hrun : Run node calls middle) (hturn : Turn middle more after) :
      Run node (calls ++ more) after

variable {node middle after : Node} {label : Label} {calls more : List MechanismCall}

/-- A step in time is a step. -/
theorem Turn.step (hturn : Turn node calls after) : ∃ label, Step node label after := by
  cases hturn with
  | query before errand later env intake next herrands hstep =>
      exact ⟨_, .query node before errand later env intake next herrands hstep⟩
  | startup before call later env coordinator next hcalls hstep =>
      exact ⟨_, .startup node before call later env coordinator next hcalls hstep⟩
  | other label after hstep => exact ⟨label, hstep⟩
  | pass later => exact ⟨_, node.step_at_time later⟩

/-- Every step is one in time, unless it changes the surroundings. -/
theorem Step.exists_turn (hstep : Step node label after) :
    (∃ env, after = { node with env := env }) ∨ ∃ calls, Turn node calls after := by
  have htaken := hstep
  cases hstep with
  | surroundings env hcancelled => exact .inl ⟨env, rfl⟩
  | query before errand later env intake next herrands hnext =>
      exact .inr ⟨_, .query node before errand later env intake next herrands hnext⟩
  | startup before call later env coordinator next hcalls hnext =>
      exact .inr ⟨_, .startup node before call later env coordinator next hcalls hnext⟩
  | shutdown before call later env coordinator next hcalls hnext =>
      obtain ⟨hnow, hreceives, -⟩ := shutdown_step_receives hnext
      exact .inr ⟨[], .other _ _ _ htaken (fun _ => Label.noConfusion) (.inl rfl) hnow hreceives⟩
  | start =>
      exact .inr ⟨[], .other _ _ _ htaken (fun _ => Label.noConfusion) (.inr rfl) rfl
        (.of_mechanisms rfl)⟩
  | sweep | evictor | reporter | dial | found | status | evict | observe | subscriptions | stop =>
      exact .inr ⟨[], .other _ _ _ htaken (fun _ => Label.noConfusion) (.inl rfl) rfl
        (.of_mechanisms rfl)⟩

/-- The background work of the mechanisms is a step in time. -/
theorem turn_advance (node : Node) : Turn node [] { node with env := node.env.advance.1 } :=
  .other _ _ _ (.surroundings node _ node.env.allows_advance.cancelled) nofun (.inl rfl)
    node.env.allows_advance.now (receives_advance node.env)

/-- The call that a start makes is no query. -/
theorem queries_of_startup (call : Startup) (env : Environment) (scope : Token) :
    queries (call.call? env scope).toList = [] := by
  cases call with
  | entering => rfl
  | starting rest started => cases rest <;> rfl

/-- The queries of a step in time are those that the mechanisms received with it. -/
theorem Turn.receives (hturn : Turn node calls after) :
    Receives node.env after.env (queries calls) := by
  cases hturn with
  | query before errand later env intake next herrands hstep =>
      rw [queries_map_find]
      exact (Errand.step_sends hstep).receives
  | startup before call later env coordinator next hcalls hstep =>
      rw [queries_of_startup]
      exact (startup_step_receives hstep).2.1
  | other label after hstep hlabel hstartups hnow hreceives => exact hreceives
  | pass later => exact .of_mechanisms rfl

/-- The queries of a run are those that the mechanisms received with it. -/
theorem Run.receives (hrun : Run node calls after) :
    Receives node.env after.env (queries calls) := by
  induction hrun with
  | refl => exact .of_mechanisms rfl
  | turn calls middle more after hrun hturn ih =>
      rw [queries_append]
      exact ih.trans hturn.receives

/-- A cancelled coordinator stays so. -/
theorem Turn.is_cancelled (hturn : Turn node calls after) (hcancelled : node.IsCancelled) :
    after.IsCancelled := by
  obtain ⟨label, hstep⟩ := hturn.step
  exact hstep.is_cancelled hcancelled

/-- A cancelled coordinator stays so along every run. -/
theorem Run.is_cancelled (hrun : Run node calls after) (hcancelled : node.IsCancelled) :
    after.IsCancelled := by
  induction hrun with
  | refl => exact hcancelled
  | turn calls middle more after hrun hturn ih => exact hturn.is_cancelled ih

/-- A cancelled coordinator sends no queries. -/
theorem Turn.queries_of_cancelled (hturn : Turn node calls after) (hcancelled : node.IsCancelled) :
    queries calls = [] := by
  cases hturn with
  | query before errand later env intake next herrands hstep =>
      have hunsent : errand.sent? node.env.now next = none := by
        cases Errand.ceases_of_step hstep hcancelled with
        | ended => exact if_neg (by simp)
        | took moved sighting source htaking =>
            refine Errand.sent_of_point ?_ _ _
            intro hready
            rw [Errand.taking?, hready] at htaking
            cases htaking
      rw [hunsent]
      rfl
  | startup before call later env coordinator next hcalls hstep =>
      exact queries_of_startup call node.env node.coordinator.scope
  | other | pass => rfl

/-- A step that cancels the coordinator takes no time and is no query. -/
theorem Turn.of_cancels (hturn : Turn node calls after) (hrunning : ¬ node.IsCancelled)
    (hcancelled : after.IsCancelled) : after.env.now = node.env.now ∧ queries calls = [] := by
  cases hturn with
  | query before errand later env intake next herrands hstep =>
      have htree := (Errand.step_sends hstep).cancelled
      unfold IsCancelled ScopeTree.isCancelled at hrunning hcancelled
      rw [← htree] at hrunning
      exact absurd hcancelled hrunning
  | startup before call later env coordinator next hcalls hstep =>
      exact ⟨(startup_step_receives hstep).1, queries_of_startup call node.env _⟩
  | other label after hstep hlabel hstartups hnow => exact ⟨hnow, rfl⟩
  | pass => exact absurd hcancelled hrunning

/-- Along every run of a cancelled coordinator no queries are sent. -/
theorem Run.queries_after_cancel (hrun : Run node calls after) (hcancelled : node.IsCancelled) :
    queries calls = [] := by
  induction hrun with
  | refl => rfl
  | turn calls middle more after hrun hturn ih =>
      rw [queries_append, ih, hturn.queries_of_cancelled (hrun.is_cancelled hcancelled)]
      rfl

/-- A step keeps the schedule and the mechanisms of a coordinator. -/
theorem Step.keeps_setup (hstep : Step node label after) :
    after.coordinator.schedule = node.coordinator.schedule ∧
      after.coordinator.members = node.coordinator.members := by
  cases hstep with
  | startup before call later env coordinator next hcalls hnext =>
      exact (startup_step_receives hnext).2.2
  | shutdown before call later env coordinator next hcalls hnext =>
      exact (shutdown_step_receives hnext).2.2
  | _ => exact ⟨rfl, rfl⟩

/-- A run keeps the schedule and the mechanisms of a coordinator. -/
theorem Run.keeps_setup (hrun : Run node calls after) :
    after.coordinator.schedule = node.coordinator.schedule ∧
      after.coordinator.members = node.coordinator.members := by
  induction hrun with
  | refl => exact ⟨rfl, rfl⟩
  | turn calls middle more after hrun hturn ih =>
      obtain ⟨label, hstep⟩ := hturn.step
      obtain ⟨hschedule, hmembers⟩ := hstep.keeps_setup
      exact ⟨hschedule.trans ih.1, hmembers.trans ih.2⟩

end Node

end Coordinator

end PeerFinder
