import PeerFinder.Proofs.Environment.Surroundings

/-!
# The steps of a query

A query that drains the local network stands in the line of a place; any other query does not. A query
that goes on keeps its scope and its place in line, and one that ends or is given up leaves the line
and nothing else (`Environment.Frees`). Once its scope is done a query ends with its next step, if it is
not behind another one.
-/

namespace PeerFinder

/-- No later than the earlier of two instants is no later than either. -/
theorem Clock.le_earlier_iff {now : Instant} {left right : Option Instant} :
    (∀ instant ∈ earlier left right, now ≤ instant) ↔
      (∀ instant ∈ left, now ≤ instant) ∧ ∀ instant ∈ right, now ≤ instant := by
  cases left with
  | none => simp [earlier]
  | some left =>
      cases right with
      | none => simp [earlier]
      | some right =>
          simp only [earlier, Option.mem_some_iff, forall_eq']
          exact Nat.le_min

/-- The earlier of two instants is one of them. -/
theorem Clock.mem_of_mem_earlier {instant : Instant} {left right : Option Instant}
    (h : instant ∈ earlier left right) : instant ∈ left ∨ instant ∈ right := by
  cases left with
  | none => exact .inr h
  | some left =>
      cases right with
      | none => exact .inl h
      | some right =>
          cases h
          exact (Nat.le_total left right).imp (fun h => by simp [h]) fun h => by simp [h]

namespace Search

/-- The place in whose line a query stands, and its ticket. -/
def line? : Search → Option (Nat × Nat)
  | .drain place call => some (place, call.ticket)
  | .answered _ | .scripted .. | .lookup _ => none

/-- The scope that a query heeds. -/
def scope? : Search → Option Scope
  | .drain _ call => some call.scope
  | .lookup call => some call.scope
  | .answered _ | .scripted .. => none

/-- The ticket of a query in the line of a place. -/
def ticket? (place : Nat) (search : Search) : Option Nat :=
  search.line?.bind fun held => if held.1 = place then some held.2 else none

/-- Whether a query does not stand in line behind another one. -/
def hasTurn (env : Environment) (search : Search) : Bool :=
  search.line?.all fun held =>
    (env.turns held.1).all fun turns => turns.1.head? = some held.2

/-- The ticket of a query that stands in the line of a place. -/
theorem ticket_of_line {search : Search} {place ticket : Nat}
    (hheld : search.line? = some (place, ticket)) (other : Nat) :
    search.ticket? other = if place = other then some ticket else none := by
  rw [ticket?, hheld]
  rfl

/-- A query with a ticket in the line of a place stands there. -/
theorem line_of_ticket {search : Search} {place ticket : Nat}
    (hticket : search.ticket? place = some ticket) : search.line? = some (place, ticket) := by
  unfold ticket? at hticket
  obtain ⟨⟨held, number⟩, hheld, hnumber⟩ := Option.bind_eq_some_iff.1 hticket
  split at hnumber
  · rename_i hplace
    cases hnumber
    rw [hheld, ← hplace]
  · cases hnumber

/-- A query that stands in no line has no ticket. -/
theorem ticket_of_no_line {search : Search} (hheld : search.line? = none) (place : Nat) :
    search.ticket? place = none := by
  rw [ticket?, hheld]
  rfl

/-- A query that stands in no line does not wait for others. -/
theorem has_turn_of_no_line {search : Search} (hheld : search.line? = none) (env : Environment) :
    search.hasTurn env = true := by
  rw [hasTurn, hheld]
  rfl

/-- A query that stands in a line has its turn exactly if it is the first there. -/
theorem has_turn_iff {search : Search} {env : Environment} {place ticket : Nat}
    (hheld : search.line? = some (place, ticket)) {turns : List Nat × Nat × Clock.Span}
    (hturns : env.turns place = some turns) :
    search.hasTurn env = true ↔ turns.1.head? = some ticket := by
  simp [hasTurn, hheld, hturns]

end Search

namespace LocalNet

/-- A drain that goes on keeps its scope and its place in line. -/
theorem Drain.step_go {tree : ScopeTree} {now : Clock.Instant} {queue after : Queue}
    {call next : Drain} (hstep : step tree now queue call = some (after, .inl next)) :
    after.line = queue.line ∧ after.issued = queue.issued ∧ next.ticket = call.ticket ∧
      next.scope = call.scope := by
  unfold step at hstep
  split_ifs at hstep
  · cases hstep
  · split at hstep <;> cases hstep
    unfold take
    split_ifs <;> exact ⟨rfl, rfl, rfl, rfl⟩

/-- A drain that ends leaves the line. -/
theorem Drain.step_answer {tree : ScopeTree} {now : Clock.Instant} {queue after : Queue}
    {call : Drain} {found : List Sighting}
    (hstep : step tree now queue call = some (after, .inr found)) :
    after = queue.leave call.ticket := by
  unfold step at hstep
  split_ifs at hstep
  · cases hstep
    rfl
  · split at hstep <;> cases hstep

/-- A drain that is first in line waits only while its scope is not done. -/
theorem Drain.not_done_of_step {tree : ScopeTree} {now : Clock.Instant} {queue : Queue}
    {call : Drain} (hfirst : queue.isFirst call.ticket = true)
    (hstep : step tree now queue call = none) : call.scope.isDone tree now = false := by
  unfold step at hstep
  split_ifs at hstep with hturn hdone
  · simp_all
  · simp_all

/-- A drain that is first in line ends with its next step once its scope is done. -/
theorem Drain.step_of_done {tree : ScopeTree} {now : Clock.Instant} {queue : Queue} {call : Drain}
    (hfirst : queue.isFirst call.ticket = true) (hdone : call.scope.isDone tree now = true) :
    step tree now queue call = some (queue.leave call.ticket, .inr call.found) := by
  simp [step, hfirst, hdone]

end LocalNet

namespace Rendezvous

variable {κ : Type} [DecidableEq κ] {tree : ScopeTree} {moment : Moment}
  {routing after : Noted (Routing κ)} {call next : Lookup}

/-- Taking a provider keeps the scope. -/
@[simp]
theorem Lookup.scope_take (call : Lookup) (provider : Provider) :
    (call.take provider).scope = call.scope := by
  unfold take
  split
  · rfl
  · split_ifs <;> rfl

/-- A lookup that goes on keeps its scope. -/
theorem Lookup.step_go (hstep : step tree moment routing call = some (after, .inl next)) :
    next.scope = call.scope := by
  unfold step at hstep
  split_ifs at hstep
  · cases hstep
  · split at hstep
    · cases hstep
      rw [scope_take]
    · cases hstep
    · split_ifs at hstep
      cases hstep
      rfl

/-- A lookup waits only while its scope is not done. -/
theorem Lookup.not_done_of_step (hstep : step tree moment routing call = none) :
    call.scope.isDone tree moment.now = false := by
  unfold step at hstep
  split_ifs at hstep with hdone
  simp_all

/-- A lookup ends with its next step once its scope is done. -/
theorem Lookup.step_of_done (hdone : call.scope.isDone tree moment.now = true) :
    step tree moment routing call = some (routing, .inr call.answer) := by
  simp [step, hdone]

end Rendezvous

/-- What happens to the environment when a query ends that may have stood in line: it leaves the
line. -/
structure Environment.Frees (before after : Environment) (held : Option (Nat × Nat)) : Prop where
  now : after.now = before.now
  cancelled : ∀ token, before.tree.isCancelled token = true →
    after.tree.isCancelled token = true
  others : ∀ place, (∀ ticket, held ≠ some (place, ticket)) →
    after.turns place = before.turns place
  line : ∀ place ticket, held = some (place, ticket) →
    after.turns place = (before.turns place).map fun turns =>
      (turns.1.filter (· ≠ ticket), turns.2)

namespace Environment

/-- The mechanism of a place that is of the local network. -/
theorem mechanism_of_local_net {env : Environment} {place : Nat} {service : LocalNet.Service}
    (h : env.localNet? place = some service) :
    env.mechanisms[place]? = some (.localNet service) := by
  unfold localNet? at h
  split at h <;> cases h
  assumption

/-- What is held at a place of the queries that stand in line there. -/
theorem turns_of_local_net {env : Environment} {place : Nat} {service : LocalNet.Service}
    (h : env.localNet? place = some service) : env.turns place = some service.turns := by
  rw [turns, mechanism_of_local_net h]
  rfl

/-- Queries stand in line only where a mechanism is of the local network. -/
theorem turns_eq_none {env : Environment} {place : Nat} (h : env.localNet? place = none) :
    env.turns place = none := by
  unfold localNet? at h
  unfold turns
  cases hplace : env.mechanisms[place]? with
  | none => rfl
  | some mechanism =>
      rw [hplace] at h
      cases mechanism <;> first | rfl | cases h

/-- A query that leaves the line of a place leaves nothing else. -/
theorem frees_leave {env : Environment} {place : Nat} {service : LocalNet.Service}
    (h : env.localNet? place = some service) (ticket : Nat) :
    env.Frees (env.setMechanism place
      (.localNet { service with queue := service.queue.leave ticket })) (some (place, ticket)) := by
  have hplace := mechanism_of_local_net h
  have hlt := (List.getElem?_eq_some_iff.1 hplace).1
  refine ⟨rfl, fun _ h => h, fun other hother => ?_, fun other number heq => ?_⟩
  · have hne : place ≠ other := fun heq => hother ticket (heq ▸ rfl)
    simp [turns, setMechanism, List.getElem?_set_ne hne]
  · cases heq
    simp only [turns, setMechanism, List.getElem?_set_self hlt, hplace]
    rfl

/-- What leaves no line is what may happen around queries. -/
theorem Allows.frees {before after : Environment} (h : before.Allows after) :
    before.Frees after none :=
  ⟨h.now, h.cancelled, fun place _ => h.turns place, nofun⟩

end Environment

namespace Search

variable {env after : Environment} {search : Search}

/-- A query that goes on keeps its scope and its place in line. -/
theorem step_go {next : Search} (hstep : search.step env = some (after, .inl next)) :
    env.Allows after ∧ next.line? = search.line? ∧ next.scope? = search.scope? := by
  cases search with
  | answered result => cases hstep
  | scripted due result =>
      simp only [step] at hstep
      split_ifs at hstep
      cases hstep
  | drain place call =>
      simp only [step] at hstep
      cases hnet : env.localNet? place with
      | none =>
          rw [hnet] at hstep
          cases hstep
      | some service =>
          simp only [hnet, Option.map_eq_some_iff, Prod.mk.injEq] at hstep
          obtain ⟨⟨queue, next | found⟩, hdrain, rfl, heq⟩ := hstep
          · cases heq
            obtain ⟨hline, hissued, hticket, hscope⟩ := LocalNet.Drain.step_go hdrain
            refine ⟨.set (Environment.mechanism_of_local_net hnet) rfl ?_ rfl fun _ h => h, ?_, ?_⟩
            · exact congrArg some (Prod.ext hline (Prod.ext hissued rfl))
            · exact congrArg (fun ticket => some (place, ticket)) hticket
            · exact congrArg some hscope
          · cases heq
  | lookup call =>
      simp only [step, Option.map_eq_some_iff, Prod.mk.injEq] at hstep
      obtain ⟨⟨routing, next | found⟩, hlookup, rfl, heq⟩ := hstep
      · cases heq
        exact ⟨⟨rfl, fun _ h => h, fun _ => rfl⟩, rfl,
          congrArg some (Rendezvous.Lookup.step_go hlookup)⟩
      · cases heq

/-- A query that ends leaves the line it stood in, and nothing else. -/
theorem step_answer {result : Except Error (List Sighting)}
    (hstep : search.step env = some (after, .inr result)) : env.Frees after search.line? := by
  cases search with
  | answered result =>
      cases hstep
      exact (Environment.Allows.refl env).frees
  | scripted due result =>
      simp only [step] at hstep
      split_ifs at hstep
      cases hstep
      exact (Environment.Allows.refl env).frees
  | drain place call =>
      simp only [step] at hstep
      cases hnet : env.localNet? place with
      | none =>
          simp only [hnet, Option.some.injEq, Prod.mk.injEq] at hstep
          obtain ⟨rfl, -⟩ := hstep
          refine ⟨rfl, fun _ h => h, fun _ _ => rfl, fun other ticket heq => ?_⟩
          cases heq
          rw [Environment.turns_eq_none hnet]
          rfl
      | some service =>
          simp only [hnet, Option.map_eq_some_iff, Prod.mk.injEq] at hstep
          obtain ⟨⟨queue, next | found⟩, hdrain, rfl, heq⟩ := hstep
          · cases heq
          · rw [LocalNet.Drain.step_answer hdrain]
            exact Environment.frees_leave hnet call.ticket
  | lookup call =>
      simp only [step, Option.map_eq_some_iff, Prod.mk.injEq] at hstep
      obtain ⟨⟨routing, next | found⟩, hlookup, rfl, heq⟩ := hstep
      · cases heq
      · exact ⟨rfl, fun _ h => h, fun _ _ => rfl, nofun⟩

/-- A query that is given up leaves the line it stood in, and nothing else. -/
theorem frees_abandon (search : Search) (env : Environment) :
    env.Frees (search.abandon env) search.line? := by
  cases search with
  | answered | scripted | lookup => exact (Environment.Allows.refl env).frees
  | drain place call =>
      simp only [abandon]
      cases hnet : env.localNet? place with
      | none =>
          refine ⟨rfl, fun _ h => h, fun _ _ => rfl, fun other ticket heq => ?_⟩
          cases heq
          rw [Environment.turns_eq_none hnet]
          rfl
      | some service => exact Environment.frees_leave hnet call.ticket

/-- A drain that has its turn is the first in line. -/
theorem is_first_of_has_turn {place : Nat} {call : LocalNet.Drain} {service : LocalNet.Service}
    (hturn : (drain place call).hasTurn env = true) (hnet : env.localNet? place = some service) :
    service.queue.isFirst call.ticket = true := by
  simpa [hasTurn, line?, Environment.turns_of_local_net hnet, LocalNet.Service.turns,
    LocalNet.Queue.isFirst] using hturn

/-- A query that has its turn waits only while its scope is not done, and goes on by itself no later
than at its deadline. -/
theorem not_done_of_step (hturn : search.hasTurn env = true) (hstep : search.step env = none)
    {scope : Scope} (hscope : scope ∈ search.scope?) :
    scope.isDone env.tree env.now = false ∧
      ∀ later, (∀ wake ∈ search.wake env, later ≤ wake) →
        ∀ deadline ∈ scope.deadline, later ≤ deadline := by
  cases search with
  | answered | scripted => cases hscope
  | drain place call =>
      cases hscope
      simp only [step] at hstep
      cases hnet : env.localNet? place with
      | none =>
          rw [hnet] at hstep
          cases hstep
      | some service =>
          have hfirst := is_first_of_has_turn hturn hnet
          rw [hnet] at hstep
          refine ⟨LocalNet.Drain.not_done_of_step hfirst (Option.map_eq_none_iff.1 hstep), ?_⟩
          intro later hwake
          rwa [wake, hnet, Option.bind_some, LocalNet.Drain.wake, if_pos hfirst] at hwake
  | lookup call =>
      cases hscope
      simp only [step] at hstep
      refine ⟨Rendezvous.Lookup.not_done_of_step (Option.map_eq_none_iff.1 hstep), ?_⟩
      intro later hwake
      exact (Clock.le_earlier_iff.1 hwake).1

/-- A query that has its turn ends with its next step once its scope is done, and answers. -/
theorem step_of_done (hturn : search.hasTurn env = true) {scope : Scope}
    (hscope : scope ∈ search.scope?) (hdone : scope.isDone env.tree env.now = true) :
    ∃ after found, search.step env = some (after, .inr (.ok found)) := by
  cases search with
  | answered | scripted => cases hscope
  | drain place call =>
      cases hscope
      simp only [step]
      cases hnet : env.localNet? place with
      | none => exact ⟨_, _, rfl⟩
      | some service =>
          have hfirst := is_first_of_has_turn hturn hnet
          simp only [LocalNet.Drain.step_of_done hfirst hdone, Option.map_some]
          exact ⟨_, _, rfl⟩
  | lookup call =>
      cases hscope
      have hdone : call.scope.isDone env.tree (env.moment call.scope.token).now = true := hdone
      simp only [step, Rendezvous.Lookup.step_of_done hdone, Option.map_some]
      exact ⟨_, _, rfl⟩

end Search

/-- Whether a mechanism is none of the scripted ones. -/
def Mechanism.IsNative : Mechanism → Prop
  | .localNet _ | .seeds _ | .rendezvous _ => True
  | .scripted _ => False

/-- The bound that a mechanism puts on its queries. -/
def Mechanism.queryTimeout? : Mechanism → Option Clock.Span
  | .localNet service => some service.queryTimeout
  | .rendezvous service => some service.queryTimeout
  | .seeds _ | .scripted _ => none

/-- How a query begins at a mechanism. -/
inductive Begins (env : Environment) (place : Nat) (scope : Scope) (mechanism : Mechanism) :
    Search → Environment → Prop where
  /-- It is answered at once. -/
  | answered (found : List Sighting) (after : Environment) (hallows : env.Allows after) :
      Begins env place scope mechanism (.answered (.ok found)) after
  /-- It searches under a scope of its own. -/
  | searches (search : Search) (after : Environment) (timeout : Clock.Span) (number : Nat)
      (htimeout : mechanism.queryTimeout? = some timeout)
      (hscope : search.scope? = some ⟨number :: scope.token,
        Clock.earlier scope.deadline (Clock.after? env.now timeout)⟩)
      (hline : search.line? = none) (hallows : env.Allows after) :
      Begins env place scope mechanism search after
  /-- It joins the line of the place under a scope of its own. -/
  | joins (search : Search) (after : Environment) (line : List Nat) (issued : Nat)
      (timeout : Clock.Span) (number : Nat)
      (htimeout : mechanism.queryTimeout? = some timeout)
      (hscope : search.scope? = some ⟨number :: scope.token,
        Clock.earlier scope.deadline (Clock.after? env.now timeout)⟩)
      (hturns : env.turns place = some (line, issued, timeout))
      (hline : search.line? = some (place, issued)) (hnow : after.now = env.now)
      (hcancelled : ∀ token, env.tree.isCancelled token = true →
        after.tree.isCancelled token = true)
      (hothers : ∀ other, place ≠ other → after.turns other = env.turns other)
      (hjoined : after.turns place = some (line ++ [issued], issued + 1, timeout)) :
      Begins env place scope mechanism search after

/-- Queries at mechanisms begin as `Begins` lists. -/
theorem Environment.find_begins {env after : Environment} {place : Nat} {mechanism : Mechanism}
    {scope : Scope} {limit : Nat} {search : Search}
    (hplace : env.mechanisms[place]? = some mechanism) (hnative : mechanism.IsNative)
    (hfind : env.find place scope limit = (search, after)) :
    Begins env place scope mechanism search after := by
  have hlt := (List.getElem?_eq_some_iff.1 hplace).1
  cases mechanism with
  | localNet service =>
      simp only [find, hplace] at hfind
      cases hfind
      refine .joins _ _ service.queue.line service.queue.issued service.queryTimeout
        env.tree.issued rfl rfl ?_ rfl rfl (fun _ h => h) (fun other hne => ?_) ?_
      · rw [turns, hplace]
        rfl
      · simp [turns, setMechanism, List.getElem?_set_ne hne]
      · simp only [turns, setMechanism, List.getElem?_set_self hlt]
        rfl
  | seeds service =>
      simp only [find, hplace] at hfind
      cases hfind
      exact .answered _ _ (.set hplace rfl rfl rfl fun _ h => h)
  | rendezvous service =>
      simp only [find, hplace] at hfind
      cases hfind
      exact .searches _ _ service.queryTimeout env.tree.issued rfl rfl rfl
        ⟨rfl, fun _ h => h, fun _ => rfl⟩
  | scripted mechanism => cases hnative

end PeerFinder
