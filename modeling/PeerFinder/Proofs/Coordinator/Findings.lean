import PeerFinder.Proofs.Coordinator.Timers
import PeerFinder.Proofs.Environment.Findings

/-!
# What the queries of a valid configuration find

The search of a query ends with the smaller one of two bounds, that of the coordinator and that of the
mechanism, and it looks at its deadline before it takes the first peer. A valid configuration bounds the
queries of the coordinator by a time that is not zero, but it may give a mechanism no time for queries.
So a query that a sweep sends to a mechanism with a peer at hand finds somebody exactly if the mechanism
is given some time (`Node.queries_find_given_time`): with its first step it takes the peer, and then it
answers with somebody whatever happens around it.
-/

namespace PeerFinder

namespace LocalNet

variable {tree : ScopeTree} {now : Clock.Instant} {queue : Queue} {drain : Drain}

/-- A drain that is the first in line and begins takes the first of the peers, unless it is done. -/
theorem Drain.step_first {first : Sighting} {others : List Sighting}
    (hturn : queue.isFirst drain.ticket = true) (hheard : queue.heard = first :: others)
    (hlimit : drain.limit ≠ 0) (hfound : drain.found = []) :
    step tree now queue drain =
      if drain.scope.isDone tree now then some (queue.leave drain.ticket, .inr [])
      else some ({ queue with heard := others }, .inl { drain with found := [first] }) := by
  simp [step, take, hturn, hheard, hlimit, hfound]

end LocalNet

namespace Rendezvous

variable {κ : Type} [DecidableEq κ] {tree : ScopeTree} {moment : Moment}
  {routing read : Noted (Routing κ)} {lookup : Lookup} {feed : Feed} {info : PeerInfo}

/-- A lookup that begins takes the first provider if that is there, unless it is done. -/
theorem Lookup.step_first
    (hpoll : Routing.poll moment lookup.feed routing = (.item (.ok info) feed, read))
    (hother : info.id ≠ lookup.localId) (hlimit : lookup.limit ≠ 0) (hfound : lookup.found = []) :
    step tree moment routing lookup =
      if lookup.scope.isDone tree moment.now then some (routing, .inr [])
      else some (read, .inl { lookup with feed := feed, found := [info] }) := by
  simp [step, take, answer, hpoll, hother, hlimit, hfound]

omit [DecidableEq κ] in
/-- The feed of a lookup that begins waits for arrivals only. -/
theorem Routing.is_sound_lookup (label : String) (routing : Routing κ) :
    (routing.lookup label).IsSound := by
  cases routing with
  | scripted table => exact fun _ => rfl
  | slotted table => trivial

end Rendezvous

namespace Search

variable {env after : Environment} {search next : Search} {scope : Scope}

/-- What a query under a scope is like whose first step finds somebody, unless the scope is done and the
query ends with nobody. -/
structure HasFirst (scope : Scope) (search : Search) (env : Environment) : Prop where
  sound : search.IsSound
  scope_eq : search.scope? = some scope
  step_eq : ∃ ended after next found, next.collected? = some found ∧ found ≠ [] ∧
    search.step env = if scope.isDone env.tree env.now then some (ended, .inr (.ok []))
      else some (after, .inl next)

/-- Whether a query goes on at once, and is sure to find somebody from then on. -/
def FindsAtOnce (search : Search) (env : Environment) : Prop :=
  ∃ after call, search.step env = some (after, call) ∧ Scene.FindsSome ⟨after, call⟩

/-- A query that has found somebody with its first step is sure to find somebody. -/
theorem finds_at_once (hstep : search.step env = some (after, .inl next)) (hsound : search.IsSound)
    (hscope : search.scope? = some scope) {deadline : Clock.Instant}
    (hdeadline : scope.deadline = some deadline) (hnow : env.now ≤ deadline) {found : List Sighting}
    (hfound : next.collected? = some found) (hsome : found ≠ []) : search.FindsAtOnce env := by
  obtain ⟨hallows, hline, hsame⟩ := step_go hstep
  obtain ⟨-, hnext, -⟩ := step_go_rank hstep hsound
  have hturn : next.hasTurn after = true := by
    simpa only [hasTurn, hline, hallows.turns] using has_turn_of_step hstep
  have hsure : Scene.IsSure ⟨after, .inl next⟩ :=
    .searching after next scope deadline found hturn hnext (hsame.trans hscope) hdeadline
      (hallows.now ▸ hnow) hfound hsome
  exact ⟨after, _, hstep, hsure.finds_some⟩

/-- A query that answers with nobody at once does not find anybody. -/
theorem not_finds_at_once (hstep : search.step env = some (after, .inr (.ok []))) :
    ¬ search.FindsAtOnce env := by
  rintro ⟨_, _, hother, hfinds⟩
  rw [hstep] at hother
  cases hother
  obtain ⟨found, hfound, hsome⟩ := (hfinds _ .refl).1 _ rfl
  cases hfound
  exact hsome rfl

end Search

/-- Whether a mechanism has a peer for a query that begins now, and the seconds that such a query may
take at most under a configuration. -/
inductive Mechanism.HasPeer (config : Config) (env : Environment) : Mechanism → UInt64 → Prop where
  /-- A peer was heard, and no query drains the queue. -/
  | localNet (service : LocalNet.Service) (first : Sighting) (others : List Sighting)
      (hheard : service.queue.heard = first :: others) (hline : service.queue.line = []) :
      HasPeer config env (.localNet service) config.localNet.queryTimeout
  /-- The first of the stream of a lookup is there, and is another node. -/
  | rendezvous (service : Rendezvous.Service) (info : PeerInfo) (feed : Rendezvous.Feed)
      (routing : Noted (Rendezvous.Routing Rendezvous.SlotAddress))
      (hpoll : Rendezvous.Routing.poll { now := env.now, wall := env.wall }
        (env.routing.lookup service.advertisement.label) ⟨env.routing, env.journal⟩ =
          (.item (.ok info) feed, routing))
      (hother : info.id ≠ service.advertisement.info.id) :
      HasPeer config env (.rendezvous service) config.rendezvous.queryTimeout

namespace Coordinator

variable {config : Config} {env : Environment} {mechanism : Mechanism} {seconds : UInt64}

namespace Errand

variable {errand : Errand} {token : Token} {span : Clock.Span}

/-- The scope of a search at a mechanism with a bound of its own. -/
def boundedScope (errand : Errand) (token : Token) (env : Environment) (span : Clock.Span) :
    Scope × ScopeTree :=
  let (scope, tree) := (Scope.ofToken token).withTimeout env.now errand.query.timeout env.tree
  scope.withTimeout env.now span tree

/-- What the two bounds of a search are like: the clock reaches their ends, and that of the query is not
zero. -/
structure IsBounded (errand : Errand) (now : Clock.Instant) (span : Clock.Span) : Prop where
  query : Clock.IsExact errand.query.timeout
  mechanism : Clock.IsExact span
  positive : errand.query.timeout ≠ 0
  year : now + Clock.year < Clock.horizon

/-- A search ends with the smaller one of its bounds. -/
theorem IsBounded.deadline_eq (h : errand.IsBounded env.now span) :
    (errand.boundedScope token env span).1.deadline =
      some (min (env.now + errand.query.timeout) (env.now + span)) := by
  rw [boundedScope, h.mechanism.deadline _ _ _ h.year, h.query.deadline _ _ _ h.year]
  rfl

/-- A search that is not cancelled is done at once exactly if the mechanism has no time for it. -/
theorem IsBounded.is_done_eq (h : errand.IsBounded env.now span) {tree : ScopeTree}
    (hrunning : tree.isCancelled (errand.boundedScope token env span).1.token = false) :
    (errand.boundedScope token env span).1.isDone tree env.now = decide (span = 0) := by
  rw [Scope.isDone, Scope.isCancelled, hrunning, h.deadline_eq, Bool.false_or, Option.any_some,
    decide_eq_decide]
  have hends (now bound own : Nat) (hbound : bound ≠ 0) :
      min (now + bound) (now + own) ≤ now ↔ own = 0 := by omega
  exact hends _ _ _ h.positive

/-- A search at the local network joins the end of its line. -/
theorem begin_search_local_net {service : LocalNet.Service}
    (hplace : env.mechanisms[errand.member.place]? = some (.localNet service)) :
    errand.beginSearch token env =
      (.drain errand.member.place
        { ticket := service.queue.issued
          scope := (errand.boundedScope token env service.queryTimeout).1
          limit := errand.limit },
      { env with tree := (errand.boundedScope token env service.queryTimeout).2 }.setMechanism
        errand.member.place (.localNet { service with queue := service.queue.enter.2 })) := by
  simp only [beginSearch, Environment.find, hplace]
  rfl

/-- A search at the routing table begins a lookup. -/
theorem begin_search_rendezvous {service : Rendezvous.Service}
    (hplace : env.mechanisms[errand.member.place]? = some (.rendezvous service)) :
    errand.beginSearch token env =
      (.lookup
        { localId := service.advertisement.info.id
          scope := (errand.boundedScope token env service.queryTimeout).1
          limit := errand.limit
          feed := env.routing.lookup service.advertisement.label },
      { env with tree := (errand.boundedScope token env service.queryTimeout).2 }) := by
  simp only [beginSearch, Environment.find, hplace]
  rfl

/-- A search of the local network takes the first of the peers that were heard, if no other query drains
the queue. -/
theorem has_first_local_net {service : LocalNet.Service}
    (hplace : env.mechanisms[errand.member.place]? = some (.localNet service))
    (hlimit : errand.limit ≠ 0) {first : Sighting} {others : List Sighting}
    (hheard : service.queue.heard = first :: others) (hline : service.queue.line = []) :
    Search.HasFirst (errand.boundedScope token env service.queryTimeout).1
      (errand.beginSearch token env).1 (errand.beginSearch token env).2 := by
  have hlt := (List.getElem?_eq_some_iff.1 hplace).1
  have hfirst : service.queue.enter.2.isFirst service.queue.issued = true := by
    simp [LocalNet.Queue.isFirst, LocalNet.Queue.enter, hline]
  have hwaits : service.queue.enter.2.heard = first :: others := hheard
  rw [begin_search_local_net hplace]
  generalize errand.boundedScope token env service.queryTimeout = bounded
  obtain ⟨scope, tree⟩ := bounded
  have hnet : ({ env with tree := tree }.setMechanism errand.member.place
      (.localNet { service with queue := service.queue.enter.2 })).localNet? errand.member.place =
        some { service with queue := service.queue.enter.2 } := by
    simp [Environment.localNet?, Environment.setMechanism, hlt]
  refine ⟨trivial, rfl, ?_⟩
  simp only [Search.step, hnet]
  rw [LocalNet.Drain.step_first hfirst hwaits hlimit rfl, apply_ite (Option.map _)]
  exact ⟨_, _, _, _, rfl, List.cons_ne_nil first [], rfl⟩

/-- A search of the routing table takes the first provider, if that is there and is another node. -/
theorem has_first_rendezvous {service : Rendezvous.Service}
    (hplace : env.mechanisms[errand.member.place]? = some (.rendezvous service))
    (hlimit : errand.limit ≠ 0) {info : PeerInfo} {feed : Rendezvous.Feed}
    {routing : Noted (Rendezvous.Routing Rendezvous.SlotAddress)}
    (hpoll : Rendezvous.Routing.poll { now := env.now, wall := env.wall }
      (env.routing.lookup service.advertisement.label) ⟨env.routing, env.journal⟩ =
        (.item (.ok info) feed, routing))
    (hother : info.id ≠ service.advertisement.info.id)
    (hrunning : ∀ scope ∈ (errand.beginSearch token env).1.scope?,
      (errand.beginSearch token env).2.tree.isCancelled scope.token = false) :
    Search.HasFirst (errand.boundedScope token env service.queryTimeout).1
      (errand.beginSearch token env).1 (errand.beginSearch token env).2 := by
  rw [begin_search_rendezvous hplace] at hrunning ⊢
  generalize errand.boundedScope token env service.queryTimeout = bounded at hrunning ⊢
  obtain ⟨scope, tree⟩ := bounded
  have hmoment : ({ env with tree := tree } : Environment).moment scope.token =
      { now := env.now, wall := env.wall } := by
    rw [Environment.moment, hrunning scope rfl]
  refine ⟨Rendezvous.Routing.is_sound_lookup _ _, rfl, ?_⟩
  simp only [Search.step, hmoment]
  rw [Rendezvous.Lookup.step_first hpoll hother hlimit rfl, apply_ite (Option.map _)]
  exact ⟨_, _, _, _, rfl, List.cons_ne_nil (Sighting.ofInfo info) [], rfl⟩

/-- Whether a search that begins is sure to find somebody at once if its mechanism has some time for it,
and answers with nobody at once if it has none. -/
def FindsWithin (errand : Errand) (token : Token) (env : Environment) (span : Clock.Span) : Prop :=
  (span ≠ 0 → (errand.beginSearch token env).1.FindsAtOnce (errand.beginSearch token env).2) ∧
    (span = 0 → ∃ after, (errand.beginSearch token env).1.step (errand.beginSearch token env).2 =
      some (after, .inr (.ok [])))

/-- A search that has a peer finds somebody exactly if the mechanism has time for it. -/
theorem finds_within (hbounds : errand.IsBounded env.now span)
    (h : Search.HasFirst (errand.boundedScope token env span).1 (errand.beginSearch token env).1
      (errand.beginSearch token env).2)
    (hnow : (errand.beginSearch token env).2.now = env.now)
    (hrunning : ∀ scope ∈ (errand.beginSearch token env).1.scope?,
      (errand.beginSearch token env).2.tree.isCancelled scope.token = false) :
    errand.FindsWithin token env span := by
  obtain ⟨ended, after, next, found, hfound, hsome, hstep⟩ := h.step_eq
  -- The scope is looked at before the first peer is taken, and only the mechanism may end it now.
  rw [hnow, hbounds.is_done_eq (hrunning _ h.scope_eq)] at hstep
  refine ⟨fun hspan => ?_, fun hspan => ⟨ended, ?_⟩⟩
  · rw [decide_eq_false hspan] at hstep
    refine Search.finds_at_once hstep h.sound h.scope_eq hbounds.deadline_eq ?_ hfound hsome
    rw [hnow]
    exact Nat.le_min.2 ⟨Nat.le_add_right _ _, Nat.le_add_right _ _⟩
  · rw [decide_eq_true hspan] at hstep
    exact hstep

end Errand

namespace Node

variable {node : Node} {member : Member}

/-- The search of a query that a sweep sends to a member now, and the environment in which it begins. -/
def beginSweep (node : Node) (member : Member) : Search × Environment :=
  (Errand.ofMember node.coordinator.schedule member).beginSearch node.coordinator.scope node.env

/-- The bounds on a query of a sweep are durations of the configuration. -/
theorem KeepsTime.is_bounded (h : node.KeepsTime config) (hvalid : config.IsValid) (member : Member)
    (hyear : node.env.now + Clock.year < Clock.horizon) {span : Clock.Span}
    (hspan : span ∈ config.spans) :
    (Errand.ofMember node.coordinator.schedule member).IsBounded node.env.now span := by
  have htimeout : (Errand.ofMember node.coordinator.schedule member).query.timeout =
      Clock.ofSeconds config.coordinator.queryTimeout := by
    rw [Errand.ofMember, h.schedule_eq]
    rfl
  refine ⟨?_, hvalid.is_exact hspan, ?_, hyear⟩
  · exact hvalid.is_exact (by rw [htimeout]; simp [Config.spans, Config.durations])
  · rw [htimeout, Clock.of_seconds_ne_zero]
    exact hvalid.periods ("coordinator.query_timeout_secs", _) (by simp [Config.periods])

/-- A query of a sweep that gets a peer from a mechanism finds somebody exactly if the mechanism has time
for it. -/
theorem KeepsTime.finds_within (h : node.KeepsTime config) (hvalid : config.IsValid)
    (hplace : node.env.mechanisms[member.place]? = some mechanism)
    (hkeeps : mechanism.KeepsTime config node.env.tree)
    (hpeer : mechanism.HasPeer config node.env seconds)
    (hyear : node.env.now + Clock.year < Clock.horizon)
    (hrunning : ∀ scope ∈ (node.beginSweep member).1.scope?,
      (node.beginSweep member).2.tree.isCancelled scope.token = false) :
    (Errand.ofMember node.coordinator.schedule member).FindsWithin node.coordinator.scope node.env
      (Clock.ofSeconds seconds) := by
  have hlimit : (Errand.ofMember node.coordinator.schedule member).limit ≠ 0 := by
    rw [Errand.ofMember, h.schedule_eq]
    exact fun hzero => hvalid.queryLimit (UInt64.toNat_inj.1 hzero)
  have hspan := hkeeps.span_mem
  have hnow : (node.beginSweep member).2.now = node.env.now := (Errand.begin_search_sends _ _ _).1
  cases hpeer with
  | localNet service first others hheard hline =>
      have hfinds := Errand.finds_within (h.is_bounded hvalid member hyear (hspan _ rfl))
        (Errand.has_first_local_net hplace hlimit hheard hline) hnow hrunning
      cases hkeeps with
      | localNet _ htimeout => exact htimeout ▸ hfinds
  | rendezvous service info feed routing hpoll hother =>
      have hfinds := Errand.finds_within (h.is_bounded hvalid member hyear (hspan _ rfl))
        (Errand.has_first_rendezvous hplace hlimit hpoll hother hrunning) hnow hrunning
      cases hkeeps with
      | rendezvous _ henabled hservice => exact hservice.timeout_eq ▸ hfinds

/-- However a node of a valid configuration goes on, it keeps time. -/
theorem keeps_time_of_goes {env : Environment} {hasRouting : Bool} (hvalid : config.IsValid)
    (hgoes : Relation.ReflTransGen Goes (ofConfig config env hasRouting) node) :
    node.KeepsTime config := by
  induction hgoes with
  | refl => exact of_config_keeps_time hvalid env hasRouting
  | tail _ hstep ih => exact hstep.keeps_time hvalid ih

/-- However a node of a valid configuration goes on, a query that a sweep sends to a mechanism with a peer
at hand finds somebody at once if the configuration gives the mechanism time for queries, and answers
with nobody at once if it gives none. -/
theorem queries_find_given_time {env : Environment} {hasRouting : Bool}
    (hvalid : config.validate = .ok ())
    (hgoes : Relation.ReflTransGen Goes (ofConfig config env hasRouting) node)
    (hmember : member ∈ node.coordinator.members)
    (hplace : node.env.mechanisms[member.place]? = some mechanism)
    (hpeer : mechanism.HasPeer config node.env seconds)
    (hyear : node.env.now + Clock.year < Clock.horizon)
    (hrunning : ∀ scope ∈ (node.beginSweep member).1.scope?,
      (node.beginSweep member).2.tree.isCancelled scope.token = false) :
    (seconds ≠ 0 → (node.beginSweep member).1.FindsAtOnce (node.beginSweep member).2) ∧
      (seconds = 0 → ∃ after, (node.beginSweep member).1.step (node.beginSweep member).2 =
        some (after, .inr (.ok []))) := by
  rw [Config.validate_eq_ok_iff] at hvalid
  have hkeeps := keeps_time_of_goes hvalid hgoes
  obtain ⟨own, hown, hmechanism⟩ := hkeeps.members member hmember
  rw [hplace] at hown
  cases hown
  obtain ⟨htime, hnone⟩ := hkeeps.finds_within hvalid hplace hmechanism hpeer hyear hrunning
  exact ⟨fun h => htime (Clock.of_seconds_ne_zero.2 h), fun h => hnone (by rw [h]; rfl)⟩

/-- A configuration with so many seconds for the queries of the local network. -/
def listening (seconds : UInt64) : Config where
  localNet := { queryTimeout := seconds }

/-- A transport without addresses. -/
def offline : Transport where
  localId := ownId

/-- The mechanism of the local network of such a configuration. -/
def listener (seconds : UInt64) : LocalNet.Service where
  info := offline.localInfo
  services := Std.ExtTreeSet.ofList [] compare
  queryTimeout := Clock.ofSeconds seconds
  bound := false
  queue := { localId := ownId }
  shutdown := [0]

/-- A node of such a configuration that has heard a peer. -/
def hearing (seconds : UInt64) : Node :=
  let node := ofConfig (listening seconds) { transport := offline } false
  { node with env := node.env.setMechanism 0 (.localNet ((listener seconds).offer peer).2) }

/-- A node of such a configuration may come to hear a peer. -/
theorem goes_hearing (seconds : UInt64) :
    Relation.ReflTransGen Goes (ofConfig (listening seconds) { transport := offline } false)
      (hearing seconds) :=
  .single (goes_of_env (.single (.mechanism _ 0 _ _ rfl
    (.localNet (listener seconds) ((listener seconds).offer peer).2.queue [] false))))

/-- Then the mechanism of the local network has a peer for a query. -/
theorem has_peer_hearing (seconds : UInt64) :
    Mechanism.HasPeer (listening seconds) (hearing seconds).env
      (.localNet ((listener seconds).offer peer).2) seconds :=
  .localNet _ peer [] rfl rfl

/-- Nothing is cancelled then. -/
theorem running_hearing (seconds : UInt64) :
    ∀ scope ∈ ((hearing seconds).beginSweep ⟨0, "mdns"⟩).1.scope?,
      ((hearing seconds).beginSweep ⟨0, "mdns"⟩).2.tree.isCancelled scope.token = false := by
  rintro _ ⟨⟩
  rfl

/-- With five seconds for it, the query of a sweep finds the peer. -/
theorem queries_find_given_time_hearing : (listening 5).validate = .ok () ∧
    Relation.ReflTransGen Goes (ofConfig (listening 5) { transport := offline } false) (hearing 5) ∧
    ((hearing 5).beginSweep ⟨0, "mdns"⟩).1.FindsAtOnce ((hearing 5).beginSweep ⟨0, "mdns"⟩).2 := by
  have hvalid : (listening 5).validate = .ok () := by decide
  refine ⟨hvalid, goes_hearing 5, ?_⟩
  exact (queries_find_given_time hvalid (goes_hearing 5) (.head _) rfl (has_peer_hearing 5) (by decide)
    (running_hearing 5)).1 (by decide)

/-- Not every valid configuration lets a query find somebody: with no time for it, the query of a sweep
answers with nobody although the queue holds a peer. -/
theorem not_queries_find : ¬ ∀ config env hasRouting node member mechanism seconds,
    config.validate = .ok () →
    Relation.ReflTransGen Goes (ofConfig config env hasRouting) node →
    member ∈ node.coordinator.members →
    node.env.mechanisms[member.place]? = some mechanism →
    Mechanism.HasPeer config node.env mechanism seconds →
    node.env.now + Clock.year < Clock.horizon →
    (∀ scope ∈ (node.beginSweep member).1.scope?,
      (node.beginSweep member).2.tree.isCancelled scope.token = false) →
    (node.beginSweep member).1.FindsAtOnce (node.beginSweep member).2 := by
  intro h
  have hvalid : (listening 0).validate = .ok () := by decide
  have hfinds := h (listening 0) { transport := offline } false (hearing 0) ⟨0, "mdns"⟩ _ 0 hvalid
    (goes_hearing 0) (.head _) rfl (has_peer_hearing 0) (by decide) (running_hearing 0)
  have hstep : ((hearing 0).beginSweep ⟨0, "mdns"⟩).1.step ((hearing 0).beginSweep ⟨0, "mdns"⟩).2 =
      some (_, .inr (.ok [])) := rfl
  exact Search.not_finds_at_once hstep hfinds

end Node

end Coordinator

end PeerFinder
