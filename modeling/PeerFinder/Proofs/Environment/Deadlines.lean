import Mathlib.Data.List.Nodup
import Mathlib.Data.List.Pairwise
import Mathlib.Order.MinMax
import PeerFinder.Proofs.Environment.Queries

/-!
# When queries end

Queries are begun at mechanisms at any time, under any scope, and go on in single steps while anything
may happen around them. Time passes only while all of them wait, and not beyond the instant at which
one of them goes on by itself. A query is to end no later than the earliest of the deadline of its
scope, the cancel of its scope, and the bound of its mechanism. That holds of queries of the seeds and
of the routing table. A query that drains the local network heeds its scope only from when it is first
in line (`Traffic.calls_end_in_time`), and so may outlive it by far (`Traffic.not_calls_end_in_bound`).
-/

namespace PeerFinder

/-- A query in flight, and what was seen since it began. -/
structure Call where
  /-- The scope of the caller. -/
  scope : Scope
  begun : Clock.Instant
  /-- The bound that the mechanism puts on the query, if it does. -/
  timeout : Option Clock.Span
  search : Search
  /-- When the scope of the caller was seen to be cancelled. -/
  cancelled : Option Clock.Instant := none
  /-- Since when the query has not stood in line behind another one. -/
  turn : Option Clock.Instant := none

namespace Call

/-- A query that begins at a mechanism. -/
def ofSearch (now : Clock.Instant) (scope : Scope) (mechanism : Mechanism) (search : Search) :
    Call where
  scope := scope
  begun := now
  timeout := mechanism.queryTimeout?
  search := search

/-- By when the query is to end: the earliest of the deadline of the scope, its cancel and the bound
of the mechanism, and at once if that is past already. -/
def bound (call : Call) : Option Clock.Instant :=
  (Clock.earlier (Clock.earlier call.scope.deadline call.cancelled)
    (call.timeout.map (call.begun + ·))).map (max call.begun)

/-- See whether the scope of the caller is cancelled and whether the query has its turn. -/
def observe (env : Environment) (call : Call) : Call :=
  { call with
    cancelled := call.cancelled.or
      (if call.scope.isCancelled env.tree then some env.now else none)
    turn := call.turn.or (if call.search.hasTurn env then some env.now else none) }

end Call

/-- The environment and the queries in flight in the order they began. -/
structure Traffic where
  env : Environment
  calls : List Call := []

namespace Traffic

/-- See to all queries. -/
def observe (traffic : Traffic) : Traffic :=
  { traffic with calls := traffic.calls.map (Call.observe traffic.env) }

/-- The single steps of queries and of what goes on around them. -/
inductive Step : Traffic → Traffic → Prop where
  | begin (traffic : Traffic) (place : Nat) (mechanism : Mechanism) (scope : Scope) (limit : Nat)
      (search : Search) (after : Environment)
      (hplace : traffic.env.mechanisms[place]? = some mechanism) (hnative : mechanism.IsNative)
      (hfind : traffic.env.find place scope limit = (search, after)) :
      Step traffic (observe
        ⟨after, traffic.calls ++ [.ofSearch traffic.env.now scope mechanism search]⟩)
  /-- A query goes on. -/
  | go (traffic : Traffic) (before : List Call) (call : Call) (later : List Call)
      (after : Environment) (search : Search) (hcalls : traffic.calls = before ++ call :: later)
      (hstep : call.search.step traffic.env = some (after, .inl search)) :
      Step traffic (observe ⟨after, before ++ { call with search := search } :: later⟩)
  /-- A query ends with its answer. -/
  | answer (traffic : Traffic) (before : List Call) (call : Call) (later : List Call)
      (after : Environment) (result : Except Error (List Sighting))
      (hcalls : traffic.calls = before ++ call :: later)
      (hstep : call.search.step traffic.env = some (after, .inr result)) :
      Step traffic (observe ⟨after, before ++ later⟩)
  /-- A query is given up by its caller. -/
  | abandon (traffic : Traffic) (before : List Call) (call : Call) (later : List Call)
      (hcalls : traffic.calls = before ++ call :: later) :
      Step traffic (observe ⟨call.search.abandon traffic.env, before ++ later⟩)
  | surroundings (traffic : Traffic) (after : Environment)
      (hallows : traffic.env.Allows after) : Step traffic (observe ⟨after, traffic.calls⟩)
  /-- Time passes while all queries wait, and not beyond the instant at which one goes on. -/
  | pass (traffic : Traffic) (later : Clock.Instant) (hlater : traffic.env.now ≤ later)
      (hhorizon : later < Clock.horizon)
      (hwait : ∀ call ∈ traffic.calls, call.search.step traffic.env = none)
      (hwake : ∀ call ∈ traffic.calls, ∀ wake ∈ call.search.wake traffic.env, later ≤ wake) :
      Step traffic (observe ⟨{ traffic.env with now := later }, traffic.calls⟩)

/-- Steps one after another. -/
inductive Path : Traffic → Traffic → Prop where
  | refl (traffic : Traffic) : Path traffic traffic
  | step (traffic middle after : Traffic) (hpath : Path traffic middle)
      (hstep : Step middle after) : Path traffic after

end Traffic

namespace Call

variable {call : Call} {env after : Environment} {now later : Clock.Instant} {scope : Scope}

/-- The instant by which a query is to end is not past exactly if it has just begun or nothing that
bounds it is past. -/
theorem le_bound_iff :
    (∀ bound ∈ call.bound, now ≤ bound) ↔ now ≤ call.begun ∨
      (∀ instant ∈ call.scope.deadline, now ≤ instant) ∧
      (∀ instant ∈ call.cancelled, now ≤ instant) ∧
      ∀ timeout ∈ call.timeout, now ≤ call.begun + timeout := by
  by_cases hbegun : now ≤ call.begun
  · simp only [hbegun, true_or, iff_true, bound]
    intro bound hbound
    obtain ⟨instant, -, rfl⟩ := Option.map_eq_some_iff.1 hbound
    exact Nat.le_trans hbegun (Nat.le_max_left _ _)
  · have hmax : ∀ limit : Option Clock.Instant,
        (∀ bound ∈ limit.map (max call.begun), now ≤ bound) ↔ ∀ instant ∈ limit, now ≤ instant := by
      intro limit
      cases limit with
      | none => simp
      | some instant =>
          simp only [Option.map_some, Option.mem_some, forall_eq']
          exact le_max_iff.trans (or_iff_right hbegun)
    rw [bound, hmax, Clock.le_earlier_iff, Clock.le_earlier_iff]
    simp [hbegun, and_assoc]

/-- A query searches under a scope that ends with the one of its caller, and no later than the bound of
the mechanism allows. -/
structure Heeds (call : Call) (scope : Scope) : Prop where
  token : ∃ number, scope.token = number :: call.scope.token
  deadline : scope.deadline =
    Clock.earlier call.scope.deadline (call.timeout.bind (Clock.after? call.begun))

/-- While the scope of a search is not done, nothing that bounds the query is past. -/
theorem Heeds.ahead {tree : ScopeTree} (h : call.Heeds scope)
    (hcancelled : ∀ instant ∈ call.cancelled, call.scope.isCancelled tree = true)
    (hrunning : scope.isCancelled tree = false)
    (hdeadline : ∀ deadline ∈ scope.deadline, later ≤ deadline)
    (hhorizon : later ≤ Clock.horizon) :
    (∀ instant ∈ call.scope.deadline, later ≤ instant) ∧ call.cancelled = none ∧
      ∀ timeout ∈ call.timeout, later ≤ call.begun + timeout := by
  obtain ⟨⟨number, htoken⟩, hearlier⟩ := h
  rw [hearlier, Clock.le_earlier_iff] at hdeadline
  refine ⟨hdeadline.1, ?_, fun timeout htimeout => ?_⟩
  · by_contra hsome
    obtain ⟨instant, hinstant⟩ := Option.ne_none_iff_exists'.1 hsome
    have hparent := ScopeTree.is_cancelled_cons_of number (hcancelled instant hinstant)
    rw [Scope.isCancelled, htoken, hparent] at hrunning
    cases hrunning
  · by_cases hreached : call.begun + timeout < Clock.horizon
    · refine hdeadline.2 _ ?_
      rw [Option.mem_def.1 htimeout, Option.bind_some, Clock.after?, if_pos hreached]
      rfl
    · exact Nat.le_trans hhorizon (Nat.le_of_not_lt hreached)

/-- Once a query is to have ended, the scope of its search is done. -/
theorem Heeds.is_done {tree : ScopeTree} (h : call.Heeds scope)
    (hcancelled : ∀ instant ∈ call.cancelled, call.scope.isCancelled tree = true)
    (hhorizon : now < Clock.horizon) {bound : Clock.Instant} (hbound : bound ∈ call.bound)
    (hpast : bound ≤ now) : scope.isDone tree now = true := by
  by_contra hnot
  simp only [Scope.isDone, Bool.or_eq_true, Option.any_eq_true, decide_eq_true_eq, not_or,
    not_exists, not_and, Nat.not_le, Bool.not_eq_true] at hnot
  obtain ⟨hrunning, hlater⟩ := hnot
  have hdeadline : ∀ deadline ∈ scope.deadline, now + 1 ≤ deadline := hlater
  obtain ⟨hscope, hnone, htimeout⟩ := h.ahead hcancelled hrunning hdeadline hhorizon
  have hahead := le_bound_iff.2 (.inr ⟨hscope, by simp [hnone], htimeout⟩) bound hbound
  exact Nat.not_succ_le_self now (Nat.le_trans hahead hpast)

/-- What holds of a query in flight. -/
structure Sound (env : Environment) (call : Call) : Prop where
  begun : call.begun ≤ env.now
  cancelled : ∀ instant ∈ call.cancelled, call.scope.isCancelled env.tree = true
  turn : ∀ instant ∈ call.turn, call.search.hasTurn env = true
  heeds : ∀ scope ∈ call.search.scope?, call.Heeds scope
  answered : call.search.scope? = none →
    (∃ found, call.search = .answered (.ok found)) ∧ env.now = call.begun
  atOnce : call.search.line? = none →
    call.turn = some call.begun ∨ call.turn = none ∧ env.now = call.begun
  inTime : ∀ turn ∈ call.turn, env.now ≤ turn ∨ ∀ bound ∈ call.bound, env.now ≤ bound
  ownTime : ∀ timeout ∈ call.timeout, env.now ≤ call.begun + timeout

/-- Whether all was seen of a query that there is to see. -/
structure IsObserved (env : Environment) (call : Call) : Prop where
  cancelled : call.cancelled = none → call.scope.isCancelled env.tree = false
  turn : call.turn = none → call.search.hasTurn env = false

/-- All that there is to see of a query is seen when it is observed. -/
theorem is_observed_observe (env : Environment) (call : Call) :
    (call.observe env).IsObserved env := by
  refine ⟨fun hnone => ?_, fun hnone => ?_⟩
  · have hunheard := (Option.or_eq_none_iff.1 hnone).2
    split_ifs at hunheard with hcancelled
    exact Bool.eq_false_iff.2 hcancelled
  · have hwaiting := (Option.or_eq_none_iff.1 hnone).2
    split_ifs at hwaiting with hturn
    exact Bool.eq_false_iff.2 hturn

/-- A query was seen to be cancelled if it was so before or is so now. -/
theorem mem_cancelled_observe {instant : Clock.Instant}
    (hmem : instant ∈ (call.observe env).cancelled) :
    instant ∈ call.cancelled ∨ instant = env.now ∧ call.scope.isCancelled env.tree = true := by
  obtain hold | ⟨-, hnew⟩ := Option.or_eq_some_iff.1 hmem
  · exact .inl hold
  · split_ifs at hnew with hcancelled
    exact .inr ⟨(Option.some.inj hnew).symm, hcancelled⟩

/-- A query was seen to have its turn if it was so before or is so now. -/
theorem mem_turn_observe {instant : Clock.Instant} (hmem : instant ∈ (call.observe env).turn) :
    instant ∈ call.turn ∨ instant = env.now ∧ call.search.hasTurn env = true := by
  obtain hold | ⟨-, hnew⟩ := Option.or_eq_some_iff.1 hmem
  · exact .inl hold
  · split_ifs at hnew with hturn
    exact .inr ⟨(Option.some.inj hnew).symm, hturn⟩

/-- What holds of a query still does when it is observed. -/
theorem Sound.observe (h : call.Sound env) : (call.observe env).Sound env where
  begun := h.begun
  cancelled instant hmem :=
    (mem_cancelled_observe hmem).elim (h.cancelled instant) fun hnew => hnew.2
  turn instant hmem := (mem_turn_observe hmem).elim (h.turn instant) fun hnew => hnew.2
  heeds scope hmem := ⟨(h.heeds scope hmem).token, (h.heeds scope hmem).deadline⟩
  answered := h.answered
  atOnce hline := by
    obtain hturn | ⟨hnone, hnow⟩ := h.atOnce hline
    · exact .inl (by simp [Call.observe, hturn])
    · have hturn : call.search.hasTurn env = true := Search.has_turn_of_no_line hline env
      exact .inl (by simp [Call.observe, hnone, hturn, hnow])
  inTime turn hmem := by
    obtain hold | hnew := mem_turn_observe hmem
    · refine (h.inTime turn hold).imp_right fun hbound => ?_
      rw [le_bound_iff] at hbound ⊢
      refine hbound.imp_right fun hahead => ⟨hahead.1, fun instant hcancelled => ?_, hahead.2.2⟩
      -- A cancel that is seen now is not past.
      obtain hbefore | hnow := mem_cancelled_observe hcancelled
      · exact hahead.2.1 instant hbefore
      · exact Nat.le_of_eq hnow.1.symm
    · exact .inl (Nat.le_of_eq hnew.1.symm)
  ownTime := h.ownTime

/-- What holds of a query still does when something else happens at the same instant. -/
theorem Sound.frame (h : call.Sound env) (hnow : after.now = env.now)
    (hcancelled : ∀ token, env.tree.isCancelled token = true →
      after.tree.isCancelled token = true)
    (hturn : call.search.hasTurn env = true → call.search.hasTurn after = true) :
    call.Sound after where
  begun := hnow ▸ h.begun
  cancelled instant hmem := hcancelled _ (h.cancelled instant hmem)
  turn instant hmem := hturn (h.turn instant hmem)
  heeds := h.heeds
  answered hscope := hnow ▸ h.answered hscope
  atOnce hline := hnow ▸ h.atOnce hline
  inTime := hnow ▸ h.inTime
  ownTime := hnow ▸ h.ownTime

/-- What holds of a query still does when it goes on under the same scope in the same line. -/
theorem Sound.go (h : call.Sound env) {search : Search} (hline : search.line? = call.search.line?)
    (hscope : search.scope? = call.search.scope?) (hsearches : call.search.scope? ≠ none) :
    ({ call with search := search } : Call).Sound env where
  begun := h.begun
  cancelled := h.cancelled
  turn instant hmem := by
    have hturn := h.turn instant hmem
    rwa [Search.hasTurn, ← hline] at hturn
  heeds scope hmem :=
    have heeds := h.heeds scope (hscope ▸ hmem)
    ⟨heeds.token, heeds.deadline⟩
  answered hnone := absurd (hscope ▸ hnone) hsearches
  atOnce hnone := h.atOnce (hline ▸ hnone)
  inTime := h.inTime
  ownTime := h.ownTime

/-- What holds of a query holds after time has passed while it waited, if that was not beyond the bound
of its mechanism. -/
theorem Sound.pass (h : call.Sound env) (hobserved : call.IsObserved env)
    (hlater : env.now ≤ later) (hhorizon : later < Clock.horizon)
    (hwait : call.search.step env = none)
    (hwake : ∀ wake ∈ call.search.wake env, later ≤ wake)
    (hbehind : call.search.hasTurn env = false →
      ∀ timeout ∈ call.timeout, later ≤ call.begun + timeout) :
    call.Sound { env with now := later } := by
  have hsearches : call.search.scope? ≠ none := by
    intro hnone
    obtain ⟨⟨found, hanswered⟩, -⟩ := h.answered hnone
    rw [hanswered] at hwait
    cases hwait
  have hahead : call.search.hasTurn env = true →
      (∀ bound ∈ call.bound, later ≤ bound) ∧
        ∀ timeout ∈ call.timeout, later ≤ call.begun + timeout := by
    intro hturn
    obtain ⟨scope, hscope⟩ := Option.ne_none_iff_exists'.1 hsearches
    obtain ⟨hrunning, hdeadline⟩ := Search.not_done_of_step hturn hwait hscope
    have hcancelled := (Bool.or_eq_false_iff.1 hrunning).1
    obtain ⟨hown, hnone, htimeout⟩ := (h.heeds scope hscope).ahead h.cancelled hcancelled
      (hdeadline later hwake) (Nat.le_of_lt hhorizon)
    exact ⟨le_bound_iff.2 (.inr ⟨hown, by simp [hnone], htimeout⟩), htimeout⟩
  exact
    { begun := Nat.le_trans h.begun hlater
      cancelled := h.cancelled
      turn := h.turn
      heeds := h.heeds
      answered := fun hnone => absurd hnone hsearches
      atOnce := fun hline => by
        have hturn := Search.has_turn_of_no_line hline env
        refine (h.atOnce hline).imp_right fun hnone => ?_
        rw [hobserved.turn hnone.1] at hturn
        cases hturn
      inTime := fun turn hmem => .inr (hahead (h.turn turn hmem)).1
      ownTime := fun timeout hmem => by
        cases hturn : call.search.hasTurn env with
        | true => exact (hahead hturn).2 timeout hmem
        | false => exact hbehind hturn timeout hmem }

end Call

namespace Traffic

/-- What holds of the environment and of the queries in flight together: queries stand in the lines of
places in the order they began. -/
structure IsOrderly (traffic : Traffic) : Prop where
  horizon : traffic.env.now < Clock.horizon
  lines : ∀ place line issued timeout,
    traffic.env.turns place = some (line, issued, timeout) →
      line = traffic.calls.filterMap (·.search.ticket? place) ∧ line.Pairwise (· < ·) ∧
        ∀ ticket ∈ line, ticket < issued
  drains : ∀ call ∈ traffic.calls, ∀ place ticket, call.search.line? = some (place, ticket) →
    ∃ line issued timeout, traffic.env.turns place = some (line, issued, timeout) ∧
      call.timeout = some timeout
  order : traffic.calls.Pairwise fun first second => first.begun ≤ second.begun
  sound : ∀ call ∈ traffic.calls, call.Sound traffic.env

variable {env after : Environment} {calls before later : List Call} {call : Call}

/-- Seeing to the queries changes nothing of their order. -/
theorem IsOrderly.observe {traffic : Traffic} (h : traffic.IsOrderly) :
    traffic.observe.IsOrderly where
  horizon := h.horizon
  lines place line issued timeout hturns := by
    have hsame : traffic.observe.calls.filterMap (·.search.ticket? place) =
        traffic.calls.filterMap (·.search.ticket? place) := List.filterMap_map
    rw [hsame]
    exact h.lines place line issued timeout hturns
  drains call hmem := by
    obtain ⟨origin, horigin, rfl⟩ := List.mem_map.1 hmem
    exact h.drains origin horigin
  order := List.pairwise_map.2 h.order
  sound call hmem := by
    obtain ⟨origin, horigin, rfl⟩ := List.mem_map.1 hmem
    exact (h.sound origin horigin).observe

/-- What happens around queries leaves them in order. -/
theorem IsOrderly.allows (h : IsOrderly ⟨env, calls⟩) (hallows : env.Allows after) :
    IsOrderly ⟨after, calls⟩ where
  horizon := hallows.now ▸ h.horizon
  lines place line issued timeout hturns :=
    h.lines place line issued timeout (hallows.turns place ▸ hturns)
  drains call hmem place ticket hline := by
    rw [hallows.turns place]
    exact h.drains call hmem place ticket hline
  order := h.order
  sound call hmem := by
    refine (h.sound call hmem).frame hallows.now hallows.cancelled fun hturn => ?_
    simpa only [Search.hasTurn, hallows.turns] using hturn

/-- A query that stands in no line may join the others. -/
theorem IsOrderly.append (h : IsOrderly ⟨env, calls⟩) (hline : call.search.line? = none)
    (hbegun : ∀ other ∈ calls, other.begun ≤ call.begun) (hsound : call.Sound env) :
    IsOrderly ⟨env, calls ++ [call]⟩ where
  horizon := h.horizon
  lines place line issued timeout hturns := by
    have hticket := Search.ticket_of_no_line hline place
    simpa [List.filterMap_append, hticket] using h.lines place line issued timeout hturns
  drains other hmem place ticket hheld := by
    obtain hold | hnew := List.mem_append.1 hmem
    · exact h.drains other hold place ticket hheld
    · rw [List.mem_singleton.1 hnew, hline] at hheld
      cases hheld
  order := List.pairwise_append.2 ⟨h.order, List.pairwise_singleton _ _, by simpa using hbegun⟩
  sound other hmem := by
    obtain hold | hnew := List.mem_append.1 hmem
    · exact h.sound other hold
    · exact List.mem_singleton.1 hnew ▸ hsound

/-- A query that goes on in the same line leaves the queries in order. -/
theorem IsOrderly.replace {search : Search} (h : IsOrderly ⟨env, before ++ call :: later⟩)
    (hline : search.line? = call.search.line?)
    (hsound : ({ call with search := search } : Call).Sound env) :
    IsOrderly ⟨env, before ++ { call with search := search } :: later⟩ where
  horizon := h.horizon
  lines place line issued timeout hturns := by
    have hticket : search.ticket? place = call.search.ticket? place := by
      rw [Search.ticket?, hline]
      rfl
    simpa [List.filterMap_append, List.filterMap_cons, hticket] using
      h.lines place line issued timeout hturns
  drains other hmem place ticket hheld := by
    simp only [List.mem_append, List.mem_cons] at hmem
    obtain hbefore | rfl | hlater := hmem
    · exact h.drains other (by simp [hbefore]) place ticket hheld
    · exact h.drains call (by simp) place ticket (hline ▸ hheld)
    · exact h.drains other (by simp [hlater]) place ticket hheld
  order := by
    have horder := h.order
    simp only [List.pairwise_append, List.pairwise_cons, List.mem_cons] at horder ⊢
    refine ⟨horder.1, horder.2.1, fun first hfirst second hsecond => ?_⟩
    obtain rfl | hlater := hsecond
    · exact horder.2.2 first hfirst call (.inl rfl)
    · exact horder.2.2 first hfirst second (.inr hlater)
  sound other hmem := by
    simp only [List.mem_append, List.mem_cons] at hmem
    obtain hbefore | rfl | hlater := hmem
    · exact h.sound other (by simp [hbefore])
    · exact hsound
    · exact h.sound other (by simp [hlater])

/-- A query keeps its turn when the line of one place changes, if it stays the first there. -/
theorem has_turn_of_line {search : Search} {place issued number : Nat} {line rest : List Nat}
    {timeout : Clock.Span} (hturns : env.turns place = some (line, issued, timeout))
    (hafter : after.turns place = some (rest, number, timeout))
    (hothers : ∀ other, place ≠ other → after.turns other = env.turns other)
    (hfirst : ∀ ticket, search.line? = some (place, ticket) → line.head? = some ticket →
      rest.head? = some ticket)
    (hturn : search.hasTurn env = true) : search.hasTurn after = true := by
  cases hstands : search.line? with
  | none => exact Search.has_turn_of_no_line hstands after
  | some stands =>
      obtain ⟨held, ticket⟩ := stands
      by_cases hplace : place = held
      · subst hplace
        exact (Search.has_turn_iff hstands hafter).2
          (hfirst ticket hstands ((Search.has_turn_iff hstands hturns).1 hturn))
      · rw [Search.hasTurn, hstands] at hturn ⊢
        simpa [hothers held hplace] using hturn

/-- A place has a line with the same bound when the line of one place changes. -/
theorem turns_of_line {place held issued number : Nat} {line rest : List Nat}
    {timeout : Clock.Span} {bound : Option Clock.Span}
    (hturns : env.turns place = some (line, issued, timeout))
    (hafter : after.turns place = some (rest, number, timeout))
    (hothers : ∀ other, place ≠ other → after.turns other = env.turns other)
    (hheld : ∃ line issued timeout, env.turns held = some (line, issued, timeout) ∧
      bound = some timeout) :
    ∃ line issued timeout, after.turns held = some (line, issued, timeout) ∧
      bound = some timeout := by
  obtain ⟨_, _, _, hheld, hbound⟩ := hheld
  by_cases hplace : place = held
  · subst hplace
    rw [hturns] at hheld
    cases hheld
    exact ⟨_, _, _, hafter, hbound⟩
  · exact ⟨_, _, _, (hothers held hplace).trans hheld, hbound⟩

/-- A line without one of its tickets. -/
theorem filter_line {first rest : List Nat} {ticket : Nat}
    (hline : (first ++ ticket :: rest).Pairwise (· < ·)) :
    (first ++ ticket :: rest).filter (· ≠ ticket) = first ++ rest ∧ ticket ∉ first ++ rest := by
  have hnodup : (first ++ ticket :: rest).Nodup := hline.imp Nat.ne_of_lt
  have hout := (List.nodup_middle.1 hnodup).notMem
  rw [List.mem_append, not_or] at hout
  refine ⟨?_, by simpa using hout⟩
  rw [List.filter_append, List.filter_cons_of_neg (by simp)]
  congr 1
  · exact List.filter_eq_self.2 fun other hmem => by
      simpa using fun heq : other = ticket => hout.1 (heq ▸ hmem)
  · exact List.filter_eq_self.2 fun other hmem => by
      simpa using fun heq : other = ticket => hout.2 (heq ▸ hmem)

/-- Queries stay in order when one is left out that stands in no line. -/
theorem IsOrderly.drop (h : IsOrderly ⟨env, before ++ call :: later⟩)
    (hheld : call.search.line? = none) : IsOrderly ⟨env, before ++ later⟩ where
  horizon := h.horizon
  lines place line issued timeout hturns := by
    have hticket := Search.ticket_of_no_line hheld place
    simpa [List.filterMap_append, List.filterMap_cons, hticket] using
      h.lines place line issued timeout hturns
  drains other hmem := h.drains other (List.mem_append.2 ((List.mem_append.1 hmem).imp_right
    (List.mem_cons_of_mem _)))
  order := h.order.sublist ((List.sublist_cons_self _ _).append_left _)
  sound other hmem := h.sound other (List.mem_append.2 ((List.mem_append.1 hmem).imp_right
    (List.mem_cons_of_mem _)))

/-- Queries stay in order when one leaves its line. -/
theorem IsOrderly.leave {place ticket : Nat} (h : IsOrderly ⟨env, before ++ call :: later⟩)
    (hheld : call.search.line? = some (place, ticket))
    (hfrees : env.Frees after (some (place, ticket))) : IsOrderly ⟨after, before ++ later⟩ := by
  obtain ⟨line, issued, timeout, hturns, -⟩ := h.drains call (by simp) place ticket hheld
  obtain ⟨hline, hsorted, hissued⟩ := h.lines place line issued timeout hturns
  have hticket := Search.ticket_of_line hheld place
  rw [if_pos rfl] at hticket
  rw [List.filterMap_append, List.filterMap_cons, hticket] at hline
  obtain ⟨hleft, hout⟩ := filter_line (hline ▸ hsorted)
  have hafter : after.turns place = some (line.filter (· ≠ ticket), issued, timeout) := by
    rw [hfrees.line place ticket rfl, hturns]
    rfl
  have hothers : ∀ other, place ≠ other → after.turns other = env.turns other := by
    intro other hne
    refine hfrees.others other fun number heq => hne ?_
    cases heq
    rfl
  have hmember : ∀ other ∈ before ++ later, other ∈ before ++ call :: later := by
    intro other hmem
    exact List.mem_append.2 ((List.mem_append.1 hmem).imp_right (List.mem_cons_of_mem _))
  refine ⟨hfrees.now ▸ h.horizon, fun other _ _ _ hother => ?_,
    fun other hmem held number hnumber => ?_,
    h.order.sublist ((List.sublist_cons_self _ _).append_left _), fun other hmem => ?_⟩
  · by_cases hplace : place = other
    · subst hplace
      rw [hafter] at hother
      cases hother
      refine ⟨?_, hsorted.filter _, fun ticket hmem => hissued ticket (List.mem_filter.1 hmem).1⟩
      rw [hline, hleft, List.filterMap_append]
    · have hnone := Search.ticket_of_line hheld other
      rw [if_neg hplace] at hnone
      rw [hothers other hplace] at hother
      simpa [List.filterMap_append, List.filterMap_cons, hnone] using h.lines other _ _ _ hother
  · exact turns_of_line hturns hafter hothers (h.drains other (hmember other hmem) held number hnumber)
  · refine (h.sound other (hmember other hmem)).frame hfrees.now hfrees.cancelled
      (has_turn_of_line hturns hafter hothers fun number hstands hfirst => ?_)
    have hnumber : number ∈ before.filterMap (·.search.ticket? place) ++
        later.filterMap (·.search.ticket? place) := by
      rw [← List.filterMap_append]
      refine List.mem_filterMap.2 ⟨other, hmem, ?_⟩
      rw [Search.ticket_of_line hstands, if_pos rfl]
    simp only [hline] at hfirst ⊢
    rw [hleft]
    -- The first in line was not the query that left.
    cases hbefore : before.filterMap (·.search.ticket? place) with
    | nil =>
        rw [hbefore] at hfirst hout hnumber
        cases hfirst
        exact absurd hnumber hout
    | cons first rest =>
        rw [hbefore] at hfirst
        exact hfirst

/-- A query that ends or is given up leaves the others in order. -/
theorem IsOrderly.free (h : IsOrderly ⟨env, before ++ call :: later⟩)
    (hfrees : env.Frees after call.search.line?) : IsOrderly ⟨after, before ++ later⟩ := by
  cases hheld : call.search.line? with
  | none =>
      rw [hheld] at hfrees
      exact (h.drop hheld).allows ⟨hfrees.now, hfrees.cancelled,
        fun place => hfrees.others place fun _ => nofun⟩
  | some held => exact h.leave hheld (hheld ▸ hfrees)

/-- A query that joins a line leaves the others in order. -/
theorem IsOrderly.join {place issued : Nat} {line : List Nat} {timeout : Clock.Span}
    (h : IsOrderly ⟨env, calls⟩) (hturns : env.turns place = some (line, issued, timeout))
    (hheld : call.search.line? = some (place, issued)) (htimeout : call.timeout = some timeout)
    (hnow : after.now = env.now)
    (hcancelled : ∀ token, env.tree.isCancelled token = true →
      after.tree.isCancelled token = true)
    (hothers : ∀ other, place ≠ other → after.turns other = env.turns other)
    (hjoined : after.turns place = some (line ++ [issued], issued + 1, timeout))
    (hbegun : ∀ other ∈ calls, other.begun ≤ call.begun) (hsound : call.Sound after) :
    IsOrderly ⟨after, calls ++ [call]⟩ := by
  obtain ⟨hline, hsorted, hissued⟩ := h.lines place line issued timeout hturns
  refine ⟨hnow ▸ h.horizon, fun other _ _ _ hother => ?_, fun other hmem held number hnumber => ?_,
    List.pairwise_append.2 ⟨h.order, List.pairwise_singleton _ _, by simpa using hbegun⟩,
    fun other hmem => ?_⟩
  · rw [List.filterMap_append, List.filterMap_cons, List.filterMap_nil,
      Search.ticket_of_line hheld]
    by_cases hplace : place = other
    · subst hplace
      rw [hjoined] at hother
      cases hother
      rw [if_pos rfl]
      refine ⟨by rw [hline], ?_, fun ticket hmem => ?_⟩
      · refine List.pairwise_append.2 ⟨hsorted, List.pairwise_singleton _ _, ?_⟩
        simpa using hissued
      · obtain hold | hnew := List.mem_append.1 hmem
        · exact Nat.lt_succ_of_lt (hissued ticket hold)
        · exact List.mem_singleton.1 hnew ▸ Nat.lt_succ_self issued
    · rw [hothers other hplace] at hother
      rw [if_neg hplace]
      simpa using h.lines other _ _ _ hother
  · obtain hold | hnew := List.mem_append.1 hmem
    · exact turns_of_line hturns hjoined hothers (h.drains other hold held number hnumber)
    · rw [List.mem_singleton.1 hnew, hheld] at hnumber
      cases hnumber
      exact ⟨_, _, _, hjoined, List.mem_singleton.1 hnew ▸ htimeout⟩
  · obtain hold | hnew := List.mem_append.1 hmem
    · refine (h.sound other hold).frame hnow hcancelled
        (has_turn_of_line hturns hjoined hothers fun number _ hfirst => ?_)
      rw [List.head?_append, hfirst]
      rfl
    · exact List.mem_singleton.1 hnew ▸ hsound

/-- A query that waits in line began no earlier than the first there, which has its turn. -/
theorem IsOrderly.exists_first (h : IsOrderly ⟨env, calls⟩) (hmem : call ∈ calls)
    (hturn : call.search.hasTurn env = false) :
    ∃ place ticket first number, call.search.line? = some (place, ticket) ∧ first ∈ calls ∧
      first.search.line? = some (place, number) ∧ first.search.hasTurn env = true ∧
      first.begun ≤ call.begun ∧ first.timeout = call.timeout := by
  cases hheld : call.search.line? with
  | none =>
      rw [Search.has_turn_of_no_line hheld] at hturn
      cases hturn
  | some held =>
      obtain ⟨place, ticket⟩ := held
      obtain ⟨line, issued, timeout, hturns, htimeout⟩ := h.drains call hmem place ticket hheld
      obtain ⟨hline, -⟩ := h.lines place line issued timeout hturns
      have hticket := Search.ticket_of_line hheld place
      rw [if_pos rfl] at hticket
      have hstands : ticket ∈ line := hline ▸ List.mem_filterMap.2 ⟨call, hmem, hticket⟩
      cases line with
      | nil => cases hstands
      | cons number rest =>
          obtain ⟨before, first, later, hcalls, hbefore, hnumber, -⟩ :=
            List.filterMap_eq_cons_iff.1 hline.symm
          replace hcalls : calls = before ++ first :: later := hcalls
          have hfirst : first ∈ calls := by simp [hcalls]
          have hheldfirst := Search.line_of_ticket hnumber
          obtain ⟨_, _, _, hsame, htimeoutfirst⟩ := h.drains first hfirst place number hheldfirst
          rw [hturns] at hsame
          cases hsame
          refine ⟨place, ticket, first, number, rfl, hfirst, hheldfirst,
            (Search.has_turn_iff hheldfirst hturns).2 rfl, ?_, htimeoutfirst.trans htimeout.symm⟩
          have horder := h.order
          simp only [hcalls, List.mem_append, List.mem_cons] at hmem
          simp only [hcalls, List.pairwise_append, List.pairwise_cons] at horder
          obtain hearlier | rfl | hlater := hmem
          · rw [hbefore call hearlier] at hticket
            cases hticket
          · exact Nat.le_refl _
          · exact horder.2.1.1 call hlater

/-- Queries stay in order while time passes. -/
theorem IsOrderly.pass {later : Clock.Instant} (h : IsOrderly ⟨env, calls⟩)
    (hobserved : ∀ call ∈ calls, call.IsObserved env) (hlater : env.now ≤ later)
    (hhorizon : later < Clock.horizon) (hwait : ∀ call ∈ calls, call.search.step env = none)
    (hwake : ∀ call ∈ calls, ∀ wake ∈ call.search.wake env, later ≤ wake) :
    IsOrderly ⟨{ env with now := later }, calls⟩ := by
  refine ⟨hhorizon, h.lines, h.drains, h.order, fun call hmem => ?_⟩
  refine (h.sound call hmem).pass (hobserved call hmem) hlater hhorizon (hwait call hmem)
    (hwake call hmem) fun hturn timeout htimeout => ?_
  -- The first in line has its turn and waits too, and began no later under the same bound.
  obtain ⟨place, ticket, first, number, -, hfirst, -, hgoes, hbegun, hsame⟩ :=
    h.exists_first hmem hturn
  have hpassed := (h.sound first hfirst).pass (hobserved first hfirst) hlater hhorizon
    (hwait first hfirst) (hwake first hfirst) fun hbehind => by
      rw [hgoes] at hbehind
      cases hbehind
  exact Nat.le_trans (hpassed.ownTime timeout (hsame ▸ htimeout))
    (Nat.add_le_add_right hbegun timeout)

/-- Whether all was seen of the queries that there is to see. -/
def IsObserved (traffic : Traffic) : Prop :=
  ∀ call ∈ traffic.calls, call.IsObserved traffic.env

/-- All that there is to see of the queries is seen when they are seen to. -/
theorem is_observed_observe (traffic : Traffic) : traffic.observe.IsObserved := by
  intro call hmem
  obtain ⟨origin, -, rfl⟩ := List.mem_map.1 hmem
  exact Call.is_observed_observe traffic.env origin

/-- What holds of a query holds when it begins. -/
theorem sound_of_search {scope : Scope} {mechanism : Mechanism} {search : Search}
    (hnow : after.now = env.now)
    (hheeds : ∀ own ∈ search.scope?, (Call.ofSearch env.now scope mechanism search).Heeds own)
    (hanswered : search.scope? = none → ∃ found, search = .answered (.ok found)) :
    (Call.ofSearch env.now scope mechanism search).Sound after where
  begun := Nat.le_of_eq hnow.symm
  cancelled := nofun
  turn := nofun
  heeds := hheeds
  answered hnone := ⟨hanswered hnone, hnow⟩
  atOnce _ := .inr ⟨rfl, hnow⟩
  inTime := nofun
  ownTime _ _ := hnow ▸ Nat.le_add_right _ _

/-- A query that begins leaves the others in order. -/
theorem IsOrderly.begin {place : Nat} {mechanism : Mechanism} {scope : Scope} {search : Search}
    (h : IsOrderly ⟨env, calls⟩) (hbegins : Begins env place scope mechanism search after) :
    IsOrderly ⟨after, calls ++ [.ofSearch env.now scope mechanism search]⟩ := by
  have hbegun : ∀ other ∈ calls, other.begun ≤ env.now := fun other hmem => (h.sound other hmem).begun
  -- A query that is not answered at once searches under a scope of its own.
  have hsearches : ∀ number timeout, mechanism.queryTimeout? = some timeout →
      search.scope? = some ⟨number :: scope.token,
        Clock.earlier scope.deadline (Clock.after? env.now timeout)⟩ → after.now = env.now →
      (Call.ofSearch env.now scope mechanism search).Sound after := by
    intro number _ htimeout hscope hnow
    refine sound_of_search hnow (fun own hown => ?_) fun hnone => ?_
    · rw [hscope] at hown
      cases hown
      exact ⟨⟨number, rfl⟩, by rw [Call.ofSearch, htimeout]; rfl⟩
    · rw [hscope] at hnone
      cases hnone
  cases hbegins with
  | answered found _ hallows =>
      exact (h.allows hallows).append rfl hbegun
        (sound_of_search hallows.now nofun fun _ => ⟨found, rfl⟩)
  | searches _ _ timeout number htimeout hscope hline hallows =>
      exact (h.allows hallows).append hline hbegun
        (hsearches number timeout htimeout hscope hallows.now)
  | joins _ _ line issued timeout number htimeout hscope hturns hline hnow hcancelled hothers
      hjoined =>
      exact h.join hturns hline htimeout hnow hcancelled hothers hjoined hbegun
        (hsearches number timeout htimeout hscope hnow)

/-- Every step leaves the queries in order, with all seen that there is to see. -/
theorem Step.is_orderly {traffic next : Traffic} (hstep : Step traffic next)
    (h : traffic.IsOrderly) (hobserved : traffic.IsObserved) :
    next.IsOrderly ∧ next.IsObserved := by
  cases hstep with
  | begin place mechanism scope limit search after hplace hnative hfind =>
      have hbegins := Environment.find_begins hplace hnative hfind
      exact ⟨(h.begin hbegins).observe, is_observed_observe _⟩
  | go before call later after search hcalls hgoes =>
      obtain ⟨env, calls⟩ := traffic
      subst hcalls
      obtain ⟨hallows, hline, hscope⟩ := Search.step_go hgoes
      have hafter := h.allows hallows
      have hsearches : call.search.scope? ≠ none := by
        intro hnone
        obtain ⟨⟨found, hanswered⟩, -⟩ := (h.sound call (by simp)).answered hnone
        rw [hanswered] at hgoes
        cases hgoes
      have hsound := (hafter.sound call (by simp)).go hline hscope hsearches
      exact ⟨(hafter.replace hline hsound).observe, is_observed_observe _⟩
  | answer before call later after result hcalls hends =>
      obtain ⟨env, calls⟩ := traffic
      subst hcalls
      exact ⟨(h.free (Search.step_answer hends)).observe, is_observed_observe _⟩
  | abandon before call later hcalls =>
      obtain ⟨env, calls⟩ := traffic
      subst hcalls
      exact ⟨(h.free (Search.frees_abandon call.search env)).observe, is_observed_observe _⟩
  | surroundings after hallows => exact ⟨(h.allows hallows).observe, is_observed_observe _⟩
  | pass later hlater hhorizon hwait hwake =>
      exact ⟨(h.pass hobserved hlater hhorizon hwait hwake).observe, is_observed_observe _⟩

/-- Whether no query stands in line. -/
def IsQuiet (env : Environment) : Prop :=
  ∀ place line issued timeout, env.turns place = some (line, issued, timeout) → line = []

/-- Queries are in order along every path from an environment without queries. -/
theorem Path.is_orderly {traffic : Traffic} (hpath : Path ⟨env, []⟩ traffic)
    (hquiet : IsQuiet env) (hhorizon : env.now < Clock.horizon) :
    traffic.IsOrderly ∧ traffic.IsObserved := by
  generalize horigin : (⟨env, []⟩ : Traffic) = origin at hpath
  induction hpath with
  | refl =>
      subst horigin
      refine ⟨⟨hhorizon, fun place line issued timeout hturns => ?_, by simp, List.Pairwise.nil,
        by simp⟩, by simp [IsObserved]⟩
      obtain rfl := hquiet place line issued timeout hturns
      exact ⟨rfl, List.Pairwise.nil, by simp⟩
  | step middle after hpath hstep ih =>
      obtain ⟨horderly, hobserved⟩ := ih
      exact hstep.is_orderly horderly hobserved

/-- A query that has its turn ends with its next step once it is to have ended. -/
theorem answers_of_bound {traffic : Traffic} (horderly : traffic.IsOrderly)
    (hcall : call ∈ traffic.calls) (hturn : call.turn ≠ none) {bound : Clock.Instant}
    (hbound : bound ∈ call.bound) (hpast : bound ≤ traffic.env.now) :
    ∃ after found, call.search.step traffic.env = some (after, .inr (.ok found)) := by
  have hsound := horderly.sound call hcall
  obtain ⟨turn, hmem⟩ := Option.ne_none_iff_exists'.1 hturn
  cases hscope : call.search.scope? with
  | none =>
      obtain ⟨⟨found, hanswered⟩, -⟩ := hsound.answered hscope
      exact ⟨traffic.env, found, by rw [hanswered]; rfl⟩
  | some scope =>
      have hdone := (hsound.heeds scope hscope).is_done hsound.cancelled horderly.horizon hbound
        hpast
      exact Search.step_of_done (hsound.turn turn hmem) hscope hdone

/-- Whatever happens around queries, however many are in flight and under whatever scopes: a query
that stands in no line ends by the earliest of the deadline and the cancel of its scope and the bound
of its mechanism. A query that drains the local network always ends by the bound of its mechanism, but
by its scope only as far as it is the first in line, which it may become later: until then an earlier
query drains. A query that has its turn answers with its next step when its time is over. -/
theorem calls_end_in_time (hquiet : IsQuiet env) (hhorizon : env.now < Clock.horizon)
    {traffic : Traffic} (hpath : Path ⟨env, []⟩ traffic) (hcall : call ∈ traffic.calls) :
    call.cancelled.isSome = call.scope.isCancelled traffic.env.tree ∧
    (call.search.line? = none → ∀ bound ∈ call.bound, traffic.env.now ≤ bound) ∧
    (∀ timeout ∈ call.timeout, traffic.env.now ≤ call.begun + timeout) ∧
    (∀ turn ∈ call.turn, ∀ bound ∈ call.bound, traffic.env.now ≤ max bound turn ∧
      (bound ≤ traffic.env.now →
        ∃ after found, call.search.step traffic.env = some (after, .inr (.ok found)))) ∧
    (call.turn = none → ∃ place ticket number, ∃ first ∈ traffic.calls,
      call.search.line? = some (place, ticket) ∧ first.search.line? = some (place, number) ∧
        first.turn ≠ none ∧ first.begun ≤ call.begun) := by
  obtain ⟨horderly, hobserved⟩ := hpath.is_orderly hquiet hhorizon
  have hsound := horderly.sound call hcall
  have hseen := hobserved call hcall
  refine ⟨?_, fun hline bound hbound => ?_, hsound.ownTime, fun turn hturn bound hbound => ⟨?_, ?_⟩,
    fun hwaits => ?_⟩
  · cases hcancelled : call.cancelled with
    | none => exact (hseen.cancelled hcancelled).symm
    | some instant => exact (hsound.cancelled instant hcancelled).symm
  · -- A query outside all lines has had its turn since it began, and its bound is no earlier.
    obtain ⟨instant, -, hmax⟩ := Option.map_eq_some_iff.1 hbound
    have hbegun : call.begun ≤ bound := hmax ▸ Nat.le_max_left _ _
    obtain hturn | ⟨hnone, -⟩ := hsound.atOnce hline
    · exact (hsound.inTime _ hturn).elim (fun hnow => Nat.le_trans hnow hbegun)
        fun hahead => hahead bound hbound
    · have hturn := hseen.turn hnone
      rw [Search.has_turn_of_no_line hline] at hturn
      cases hturn
  · exact (hsound.inTime turn hturn).elim (fun hnow => Nat.le_trans hnow (Nat.le_max_right _ _))
      fun hahead => Nat.le_trans (hahead bound hbound) (Nat.le_max_left _ _)
  · exact answers_of_bound horderly hcall (by rw [hturn]; nofun) hbound
  · obtain ⟨place, ticket, first, number, hheld, hfirst, hheldfirst, hturn, hbegun, -⟩ :=
      horderly.exists_first hcall (hseen.turn hwaits)
    refine ⟨place, ticket, number, first, hfirst, hheld, hheldfirst, fun hnone => ?_, hbegun⟩
    rw [(hobserved first hfirst).turn hnone] at hturn
    cases hturn

/-- The identity of a node. -/
def nodeId : PeerId :=
  ⟨5 :: List.replicate 31 0, rfl, by decide +kernel⟩

/-- An environment with one mechanism, of the local network, where no peer was heard. -/
def silent : Environment where
  transport := { localId := nodeId }
  mechanisms :=
    [.localNet { info := ⟨nodeId, ∅⟩, queryTimeout := 5, bound := true,
                 queue := { localId := nodeId }, shutdown := [0] }]

/-- No query stands in line there. -/
theorem is_quiet_silent : IsQuiet silent := by
  intro place line issued timeout hturns
  cases place with
  | zero =>
      cases hturns
      rfl
  | succ place => cases hturns

/-- A query whose scope has a deadline waits for an earlier one without a deadline until the bound of the
mechanism. -/
theorem exists_overdue : ∃ traffic call, Path ⟨silent, []⟩ traffic ∧ call ∈ traffic.calls ∧
    call.bound = some 1 ∧ call.timeout = some 5 ∧ call.begun = 0 ∧ traffic.env.now = 5 := by
  have hfirst := Path.step _ _ _ (Path.refl ⟨silent, []⟩)
    (.begin _ 0 _ ⟨[1], none⟩ 1 _ _ rfl trivial rfl)
  have hsecond := Path.step _ _ _ hfirst
    (.begin _ 0 _ ⟨[2], some 1⟩ 1 _ _ rfl trivial rfl)
  have hpassed := Path.step _ _ _ hsecond (.pass _ 5 (Nat.zero_le _) (by decide)
    (List.forall_mem_cons.2 ⟨rfl, List.forall_mem_cons.2 ⟨rfl, List.forall_mem_nil _⟩⟩)
    (List.forall_mem_cons.2 ⟨fun wake hwake => Nat.le_of_eq (Option.some.inj hwake),
      List.forall_mem_cons.2 ⟨fun wake hwake => absurd hwake.symm (Option.some_ne_none wake),
        List.forall_mem_nil _⟩⟩))
  exact ⟨_, _, hpassed, List.mem_cons_of_mem _ List.mem_cons_self, rfl, rfl, rfl, rfl⟩

/-- That query is still within the bound of the mechanism, and stands in line behind the earlier one. -/
theorem calls_end_in_time_overdue : IsQuiet silent ∧ silent.now < Clock.horizon ∧
    ∃ traffic call, Path ⟨silent, []⟩ traffic ∧ call ∈ traffic.calls ∧ call.bound = some 1 ∧
      traffic.env.now = 5 ∧ traffic.env.now ≤ call.begun + 5 := by
  obtain ⟨traffic, call, hpath, hcall, hbound, htimeout, -, hnow⟩ := exists_overdue
  have hhorizon : silent.now < Clock.horizon := by decide
  obtain ⟨-, -, hown, -⟩ := calls_end_in_time is_quiet_silent hhorizon hpath hcall
  exact ⟨is_quiet_silent, hhorizon, traffic, call, hpath, hcall, hbound, hnow, hown 5 htimeout⟩

/-- It is not so that every query ends by the earliest of the deadline and the cancel of its scope and
the bound of its mechanism. -/
theorem not_calls_end_in_bound :
    ¬ ∀ env traffic, IsQuiet env → env.now < Clock.horizon → Path ⟨env, []⟩ traffic →
      ∀ call ∈ traffic.calls, ∀ bound ∈ call.bound, traffic.env.now ≤ bound := by
  intro hends
  obtain ⟨traffic, call, hpath, hcall, hbound, -, -, hnow⟩ := exists_overdue
  have hpast := hends silent traffic is_quiet_silent (by decide) hpath call hcall 1 hbound
  rw [hnow] at hpast
  exact absurd hpast (by decide)

end Traffic

end PeerFinder
