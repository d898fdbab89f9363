import Mathlib.Data.List.Nodup
import Mathlib.Tactic.SplitIfs
import PeerFinder.Proofs.Environment.Queries

/-!
# The queue of the local network loses nothing

Peers are offered to the queue of the local network, by calls and by listeners, while queries take peers
out of it, one query after another. `Station.Path.queue_conserves` says that the queue keeps its bound
and never holds this node, that what was taken so far and what still waits are together what was
accepted, in that order, and that a query answers with as many different peers as it may at most and
takes nothing once its scope is done.
-/

namespace PeerFinder.LocalNet

/-! ## The queue -/

namespace Queue

variable {queue : Queue} {sighting : Sighting}

/-- A peer is refused exactly if it is this node or there is no room. -/
theorem offer_eq_false_iff : (queue.offer sighting).1 = false ↔
    sighting.id = queue.localId ∨ capacity ≤ queue.heard.length := by
  unfold offer
  split_ifs with hself hfull
  · exact iff_of_true rfl (.inl hself)
  · exact iff_of_true rfl (.inr hfull)
  · exact iff_of_false nofun fun h => h.elim hself hfull

/-- A peer that is refused changes nothing. -/
theorem offer_of_refused (hrefused : (queue.offer sighting).1 = false) :
    (queue.offer sighting).2 = queue := by
  unfold offer at hrefused ⊢
  split_ifs at hrefused ⊢ <;> rfl

/-- A peer that is accepted is put at the end. -/
theorem offer_of_accepted (haccepted : (queue.offer sighting).1 = true) :
    (queue.offer sighting).2 = { queue with heard := queue.heard ++ [sighting] } := by
  unfold offer at haccepted ⊢
  split_ifs at haccepted ⊢
  rfl

/-- The queue after it was offered a peer, if it was. -/
def receive (queue : Queue) (offered : Option Sighting) : Queue :=
  offered.elim queue fun sighting => (queue.offer sighting).2

/-- The peer that the queue accepts of what it is offered. -/
def accepts (queue : Queue) (offered : Option Sighting) : Option Sighting :=
  offered.filter fun sighting => (queue.offer sighting).1

/-- What is accepted is put at the end, and everything else is left alone. -/
theorem receive_eq (queue : Queue) (offered : Option Sighting) :
    queue.receive offered =
      { queue with heard := queue.heard ++ (queue.accepts offered).toList } := by
  cases offered with
  | none => simp [receive, accepts]
  | some sighting =>
      cases haccepted : (queue.offer sighting).1 with
      | true => simp [receive, accepts, Option.filter, haccepted, offer_of_accepted haccepted]
      | false => simp [receive, accepts, Option.filter, haccepted, offer_of_refused haccepted]

/-- What is accepted is not this node, and there is room for it. -/
theorem of_mem_accepts {offered : Option Sighting} (h : sighting ∈ queue.accepts offered) :
    sighting.id ≠ queue.localId ∧ queue.heard.length < capacity := by
  obtain ⟨-, haccepted⟩ := Option.mem_filter_iff.1 h
  have hroom := mt offer_eq_false_iff.2 (by rw [haccepted]; nofun)
  rw [not_or, Nat.not_le] at hroom
  exact hroom

/-- A ticket is the first in line if it heads the line. -/
theorem is_first_iff {ticket : Nat} : queue.isFirst ticket = true ↔ queue.line.head? = some ticket :=
  decide_eq_true_iff

/-- Who is first in line stays so when another one joins it. -/
theorem is_first_enter {ticket : Nat} (h : queue.isFirst ticket = true) :
    queue.enter.2.isFirst ticket = true := by
  rw [is_first_iff] at h ⊢
  show (queue.line ++ [queue.issued]).head? = some ticket
  rw [List.head?_append, h, Option.some_or]

/-- Who is first in line stays so when another one leaves it. -/
theorem is_first_leave {ticket other : Nat} (h : queue.isFirst ticket = true) (hne : ticket ≠ other) :
    (queue.leave other).isFirst ticket = true := by
  rw [is_first_iff] at h ⊢
  obtain ⟨rest, hline⟩ := List.head?_eq_some_iff.1 h
  show (queue.line.filter (· ≠ other)).head? = some ticket
  rw [hline, List.filter_cons_of_pos (by simpa using hne), List.head?_cons]

end Queue

/-- What a drain has of the peers it took: the first of every identity, in order. -/
structure Drain.Gathers (drain : Drain) (taken : List Sighting) : Prop where
  distinct : (drain.found.map Sighting.id).Nodup
  sublist : drain.found.Sublist taken
  first : ∀ id, drain.found.find? (·.id = id) = taken.find? (·.id = id)

namespace Drain

variable {tree : ScopeTree} {now : Clock.Instant} {queue after : Queue} {drain next : Drain}
  {taken : List Sighting}

/-- A drain has the first of every identity with the next peer that it takes too. -/
theorem Gathers.take (h : drain.Gathers taken) (sighting : Sighting) :
    (drain.take sighting).Gathers (taken ++ [sighting]) := by
  unfold Drain.take
  split_ifs with hknown
  · rw [List.any_eq_true] at hknown
    obtain ⟨entry, hentry, hid⟩ := hknown
    refine ⟨h.distinct, h.sublist.trans (List.sublist_append_left _ _), fun id => ?_⟩
    rw [List.find?_append, ← h.first]
    cases hfind : drain.found.find? (·.id = id) with
    | some entry => rfl
    | none =>
        -- The peer that is dropped has the identity of one that the drain has.
        have hother : ¬ decide (sighting.id = id) = true := by
          rw [← beq_iff_eq.1 hid]
          exact List.find?_eq_none.1 hfind entry hentry
        simp [hother]
  · simp only [List.any_eq_true, beq_iff_eq, not_exists, not_and] at hknown
    refine ⟨?_, h.sublist.append (List.Sublist.refl _), fun id => ?_⟩
    · rw [List.map_append, List.map_singleton, List.nodup_append]
      refine ⟨h.distinct, List.nodup_singleton _, fun id hmem other hother => ?_⟩
      obtain ⟨entry, hentry, rfl⟩ := List.mem_map.1 hmem
      rw [List.mem_singleton.1 hother]
      exact hknown entry hentry
    · rw [List.find?_append, List.find?_append, h.first]

/-- A drain goes on only while it is first in line, wants more and its scope is not done, and it takes
the peer that waits longest. -/
theorem step_takes (hstep : step tree now queue drain = some (after, .inl next)) :
    queue.isFirst drain.ticket = true ∧ drain.found.length < drain.limit ∧
      drain.scope.isDone tree now = false ∧
      ∃ sighting rest, queue.heard = sighting :: rest ∧ after = { queue with heard := rest } ∧
        next = drain.take sighting := by
  unfold step at hstep
  split_ifs at hstep with hfirst hends
  · cases hstep
  · rw [Bool.not_eq_true, Bool.or_eq_false_iff, decide_eq_false_iff_not, Nat.not_le] at hends
    split at hstep
    · cases hstep
    · cases hstep
      exact ⟨by simpa using hfirst, hends.1, hends.2, _, _, by assumption, rfl, rfl⟩

/-- A drain answers with what it has. -/
theorem found_of_step {found : List Sighting}
    (hstep : step tree now queue drain = some (after, .inr found)) : found = drain.found := by
  unfold step at hstep
  split_ifs at hstep
  · cases hstep
    rfl
  · split at hstep <;> cases hstep

/-- A peer that is taken is one more at most. -/
theorem length_take_le (drain : Drain) (sighting : Sighting) :
    (drain.take sighting).found.length ≤ drain.found.length + 1 := by
  unfold take
  split_ifs
  · exact Nat.le_succ _
  · exact Nat.le_of_eq List.length_append

/-- Taking a peer keeps who takes it. -/
theorem take_keeps (drain : Drain) (sighting : Sighting) :
    (drain.take sighting).ticket = drain.ticket ∧ (drain.take sighting).scope = drain.scope ∧
      (drain.take sighting).limit = drain.limit := by
  unfold take
  split_ifs <;> exact ⟨rfl, rfl, rfl⟩

end Drain

/-- The scope of a drain heeds the scope of the query: it was derived from it, and its deadline is no
later. -/
structure Drain.Heeds (drain : Drain) (scope : Scope) : Prop where
  token : ∃ own, drain.scope.token = own :: scope.token
  deadline : ∀ deadline ∈ scope.deadline, ∃ own ∈ drain.scope.deadline, own ≤ deadline

/-- The scope of a drain is done when the scope of the query is. -/
theorem Drain.Heeds.is_done {drain : Drain} {scope : Scope} {tree : ScopeTree} {now : Clock.Instant}
    (h : drain.Heeds scope) (hdone : scope.isDone tree now = true) :
    drain.scope.isDone tree now = true := by
  simp only [Scope.isDone, Bool.or_eq_true, Option.any_eq_true, decide_eq_true_eq] at hdone ⊢
  obtain hcancelled | ⟨deadline, hdeadline, hpast⟩ := hdone
  · obtain ⟨own, htoken⟩ := h.token
    rw [Scope.isCancelled, htoken]
    exact .inl (ScopeTree.is_cancelled_cons_of own hcancelled)
  · obtain ⟨own, hown, hle⟩ := h.deadline deadline hdeadline
    exact .inr ⟨own, hown, Nat.le_trans hle hpast⟩

/-! ## The mechanism around its queue -/

/-- The peer that a listener hands over to the queue with its next step. -/
def Listener.heard? (tag : String) (moment : Moment) (listener : Listener) : Option Sighting :=
  if moment.stops (listener.ended || !listener.pending.isEmpty) then none
  else listener.pending.head?.bind fun announcement => announcement.sighting? tag

/-- Announcing this node leaves the queue alone. -/
theorem Service.queue_start {service started : Service} {swarm after : Option Swarm}
    (hstart : service.start swarm = .ok (started, after)) : started.queue = service.queue := by
  simp only [start, bind, Except.bind] at hstart
  split at hstart
  · cases hstart
  · split at hstart
    · split at hstart <;> cases hstart
      rfl
    · cases hstart

/-- A query drains the queue under a scope that heeds the one it is made with. -/
theorem Service.find_heeds (service : Service) (tree : ScopeTree) (now : Clock.Instant) (scope : Scope)
    (limit : Nat) : (service.find tree now scope limit).1.Heeds scope := by
  refine ⟨⟨tree.issued, rfl⟩, fun deadline hdeadline => ?_⟩
  show ∃ own ∈ Clock.earlier scope.deadline (Clock.after? now service.queryTimeout), own ≤ deadline
  rw [Option.mem_def.1 hdeadline]
  cases Clock.after? now service.queryTimeout with
  | none => exact ⟨deadline, rfl, Nat.le_refl _⟩
  | some limit => exact ⟨_, rfl, Nat.min_le_left _ _⟩

/-- A step of a listener offers the peer that it hands over to the queue. -/
theorem Listener.queue_step {tag : String} {moment : Moment} {queue after : Noted Queue}
    {listener : Listener} {next : Option Listener}
    (hstep : step tag moment queue listener = some (after, next)) :
    after.state = queue.state.receive (listener.heard? tag moment) := by
  unfold step at hstep
  unfold heard?
  split at hstep <;> rename_i hstops
  · cases hstep
    rw [if_pos hstops]
    rfl
  · rw [if_neg hstops]
    split at hstep <;> rename_i hpending
    · cases hstep
      rw [hpending, List.head?_cons, Option.bind_some]
      split <;> rename_i hsighting <;> rw [hsighting] <;> rfl
    · split at hstep <;> cases hstep
      rw [hpending]
      rfl

namespace Service

/-- What the mechanism does besides queries, and the peer that its queue is offered by that, if one
is. -/
inductive Acts : Service → Option Sighting → Service → Prop where
  | offer (service : Service) (sighting : Sighting) :
      Acts service (some sighting) (service.offer sighting).2
  /-- One of the listeners goes on. -/
  | listen (service : Service) (moment : Moment) (before : List Listener) (listener : Listener)
      (later : List Listener) (journal : Journal) (heard : Noted Queue) (next : Option Listener)
      (hlisteners : service.listeners = before ++ listener :: later)
      (hstep : listener.step service.tag moment ⟨service.queue, journal⟩ = some (heard, next)) :
      Acts service (listener.heard? service.tag moment)
        { service with queue := heard.state, listeners := before ++ next.toList ++ later }
  | start (service started : Service) (swarm after : Option Swarm)
      (hstart : service.start swarm = .ok (started, after)) : Acts service none started
  | stop (service : Service) : Acts service none service.stop
  | deliver (service : Service) (announcement : Announcement) :
      Acts service none (service.deliver announcement)
  | endSubscriptions (service : Service) : Acts service none service.endSubscriptions

/-- What the mechanism does leaves its queue as the peer does that it is offered. -/
theorem Acts.queue_eq {service after : Service} {offered : Option Sighting}
    (hacts : service.Acts offered after) : after.queue = service.queue.receive offered := by
  cases hacts with
  | offer | stop | deliver | endSubscriptions => rfl
  | listen moment before listener later journal heard next hlisteners hstep =>
      exact Listener.queue_step hstep
  | start _ swarm after hstart => exact queue_start hstart

end Service

/-- How far a query is. -/
inductive Inquiry.Fate where
  | draining
  | answered (found : List Sighting)
  | abandoned

/-- A query as its caller made it, its drain, and how far it is. -/
structure Inquiry where
  scope : Scope
  limit : Nat
  drain : Drain
  fate : Inquiry.Fate := .draining

/-- Whether a query has not ended. -/
def Inquiry.isDraining (query : Inquiry) : Bool :=
  match query.fate with
  | .draining => true
  | .answered _ | .abandoned => false

/-- The mechanism of the local network among its callers: the queries in the order they were made, the
peers that its queue accepted in order, and those that the queries took, with the numbers of the
queries. -/
structure Station where
  now : Clock.Instant
  tree : ScopeTree
  service : Service
  queries : List Inquiry := []
  accepted : List Sighting := []
  removed : List (Nat × Sighting) := []

namespace Station

/-- The peers that the query of a number took. -/
def taken (station : Station) (number : Nat) : List Sighting :=
  (station.removed.filter (·.1 = number)).map Prod.snd

/-- Whether the query of a number holds the queue. -/
def holds (station : Station) (number : Nat) : Bool :=
  station.queries[number]?.any fun query =>
    query.isDraining && station.service.queue.isFirst query.drain.ticket

/-- The mechanism does something by which its queue may be offered a peer. -/
def act (station : Station) (offered : Option Sighting) (service : Service) : Station :=
  { station with
    service := service
    accepted := station.accepted ++ (station.service.queue.accepts offered).toList }

/-- A query as it begins. -/
def ask (station : Station) (scope : Scope) (limit : Nat) : Inquiry where
  scope := scope
  limit := limit
  drain := (station.service.find station.tree station.now scope limit).1

/-- A query begins. -/
def find (station : Station) (scope : Scope) (limit : Nat) : Station :=
  let (_, service, tree) := station.service.find station.tree station.now scope limit
  { station with
    tree := tree
    service := service
    queries := station.queries ++ [station.ask scope limit] }

/-- A query goes on and leaves a queue behind. -/
def put (station : Station) (number : Nat) (query : Inquiry) (queue : Queue) : Station :=
  { station with
    service := { station.service with queue := queue }
    queries := station.queries.set number query }

/-- A query takes the peer that waits longest. -/
def take (station : Station) (number : Nat) (query : Inquiry) (queue : Queue) : Station :=
  { station.put number query queue with
    removed := station.removed ++ (station.service.queue.heard.head?.map (number, ·)).toList }

/-- The single steps of the mechanism, of its queries and of what is around them. -/
inductive Step : Station → Station → Prop where
  | act (station : Station) (offered : Option Sighting) (service : Service)
      (hacts : station.service.Acts offered service) : Step station (station.act offered service)
  | find (station : Station) (scope : Scope) (limit : Nat) : Step station (station.find scope limit)
  | take (station : Station) (number : Nat) (query : Inquiry) (queue : Queue) (next : Drain)
      (hquery : station.queries[number]? = some query) (hdraining : query.fate = .draining)
      (hstep : query.drain.step station.tree station.now station.service.queue =
        some (queue, .inl next)) :
      Step station (station.take number { query with drain := next } queue)
  | answer (station : Station) (number : Nat) (query : Inquiry) (queue : Queue)
      (found : List Sighting) (hquery : station.queries[number]? = some query)
      (hdraining : query.fate = .draining)
      (hstep : query.drain.step station.tree station.now station.service.queue =
        some (queue, .inr found)) :
      Step station (station.put number { query with fate := .answered found } queue)
  /-- A query is given up, wherever it stands. -/
  | abandon (station : Station) (number : Nat) (query : Inquiry)
      (hquery : station.queries[number]? = some query) (hdraining : query.fate = .draining) :
      Step station (station.put number { query with fate := .abandoned }
        (station.service.queue.leave query.drain.ticket))
  | cancel (station : Station) (token : Token) :
      Step station { station with tree := station.tree.cancel token }
  | pass (station : Station) (later : Clock.Instant) (hlater : station.now ≤ later) :
      Step station { station with now := later }

/-- Steps one after another. -/
inductive Path : Station → Station → Prop where
  | refl (station : Station) : Path station station
  | step (station middle after : Station) (hpath : Path station middle) (hstep : Step middle after) :
      Path station after

/-- The mechanism was not used yet. -/
structure IsFresh (station : Station) : Prop where
  queue : station.service.queue = { localId := station.service.queue.localId }
  queries : station.queries = []
  accepted : station.accepted = []
  removed : station.removed = []

/-- What holds of a query. -/
structure IsAsked (station : Station) (number : Nat) (query : Inquiry) : Prop where
  ticket : query.drain.ticket = number
  limit : query.drain.limit = query.limit
  bounded : query.drain.found.length ≤ query.limit
  gathers : query.drain.Gathers (station.taken number)
  heeds : query.drain.Heeds query.scope
  answered : ∀ found, query.fate = .answered found → found = query.drain.found
  /-- Behind others it took nothing. -/
  waits : query.fate = .draining → station.service.queue.isFirst number = false →
    station.taken number = []

/-- What holds of the queue and of all queries. -/
structure IsSound (station : Station) : Prop where
  bounded : station.service.queue.heard.length ≤ Queue.capacity
  foreign : ∀ sighting ∈ station.service.queue.heard,
    sighting.id ≠ station.service.queue.localId
  conserved : station.removed.map Prod.snd ++ station.service.queue.heard = station.accepted
  issued : station.service.queue.issued = station.queries.length
  numbered : ∀ entry ∈ station.removed, entry.1 < station.queries.length
  queries : ∀ (number : Nat) (query : Inquiry), station.queries[number]? = some query →
    station.IsAsked number query

variable {station after : Station} {number other : Nat} {query next : Inquiry}

/-- A query is one that goes on, or it is left alone. -/
theorem get_set_cases (hquery : (station.queries.set number next)[other]? = some query) :
    other = number ∧ query = next ∨ other ≠ number ∧ station.queries[other]? = some query := by
  rw [List.getElem?_set] at hquery
  split_ifs at hquery with hsame
  · exact .inl ⟨hsame.symm, (Option.some.inj hquery).symm⟩
  · exact .inr ⟨Ne.symm hsame, hquery⟩

/-- A query has taken one more peer. -/
theorem taken_take_self {queue : Queue} {sighting : Sighting}
    (hheard : station.service.queue.heard.head? = some sighting) :
    (station.take number next queue).taken number = station.taken number ++ [sighting] := by
  simp [taken, take, hheard]

/-- The other queries have not taken it. -/
theorem taken_take_of_ne {queue : Queue} (hne : other ≠ number) :
    (station.take number next queue).taken other = station.taken other := by
  cases hheard : station.service.queue.heard.head? <;> simp [taken, take, put, hheard, hne.symm]

/-- What holds of a query stays so while others go on. -/
theorem IsAsked.frame (h : station.IsAsked number query) (htaken : after.taken number =
    station.taken number) (hfirst : station.service.queue.isFirst number = true →
      after.service.queue.isFirst number = true) : after.IsAsked number query := by
  refine { h with gathers := htaken ▸ h.gathers, waits := fun hdraining hbehind => ?_ }
  rw [htaken]
  refine h.waits hdraining (Bool.eq_false_iff.2 fun hheld => ?_)
  rw [hfirst hheld] at hbehind
  cases hbehind

namespace IsSound

/-- A query that is yet to be made took nothing. -/
theorem taken_eq_nil (h : station.IsSound) (hlength : station.queries.length ≤ number) :
    station.taken number = [] := by
  rw [taken, List.map_eq_nil_iff, List.filter_eq_nil_iff]
  intro entry hentry hnumber
  exact absurd (h.numbered entry hentry) (by simp_all)

/-- The mechanism may do something. -/
theorem act {offered : Option Sighting} {service : Service} (h : station.IsSound)
    (hacts : station.service.Acts offered service) : (station.act offered service).IsSound := by
  have hqueue : (station.act offered service).service.queue =
      { station.service.queue with
        heard := station.service.queue.heard ++
          (station.service.queue.accepts offered).toList } :=
    hacts.queue_eq.trans (Queue.receive_eq _ _)
  refine ⟨?_, ?_, ?_, ?_, h.numbered,
    fun number query hquery => (h.queries number query hquery).frame rfl fun hfirst => ?_⟩
  · rw [hqueue, List.length_append]
    cases haccepts : station.service.queue.accepts offered with
    | none => exact h.bounded
    | some sighting => exact (Queue.of_mem_accepts haccepts).2
  · rw [hqueue]
    intro sighting hmem
    obtain hold | hnew := List.mem_append.1 hmem
    · exact h.foreign sighting hold
    · exact (Queue.of_mem_accepts (Option.mem_toList.1 hnew)).1
  · rw [hqueue, ← List.append_assoc]
    exact congrArg (· ++ _) h.conserved
  · rw [hqueue]
    exact h.issued
  · rw [hqueue]
    exact hfirst

/-- A query may begin. -/
theorem find (h : station.IsSound) (scope : Scope) (limit : Nat) :
    (station.find scope limit).IsSound := by
  have hlength : (station.find scope limit).queries.length = station.queries.length + 1 :=
    List.length_append
  refine ⟨h.bounded, h.foreign, h.conserved, ?_, fun entry hentry => ?_,
    fun number query hquery => ?_⟩
  · rw [hlength, ← h.issued]
    rfl
  · rw [hlength]
    exact Nat.lt_succ_of_lt (h.numbered entry hentry)
  · obtain hold | ⟨hnumber, rfl⟩ : station.queries[number]? = some query ∨
        number = station.queries.length ∧ query = station.ask scope limit := by
      simp only [Station.find, List.getElem?_append] at hquery
      split_ifs at hquery with hlt
      · exact .inl hquery
      · obtain ⟨hlast, heq⟩ := List.getElem?_eq_some_iff.1 hquery
        rw [List.length_singleton] at hlast
        exact .inr ⟨by omega, heq.symm.trans (List.getElem_singleton _)⟩
    · exact (h.queries number query hold).frame rfl Queue.is_first_enter
    · have hnone : (station.find scope limit).taken number = [] :=
        h.taken_eq_nil (Nat.le_of_eq hnumber.symm)
      refine ⟨?_, rfl, Nat.zero_le _, ?_, Service.find_heeds _ _ _ _ _, nofun, fun _ _ => hnone⟩
      · exact h.issued.trans hnumber.symm
      · rw [hnone]
        exact ⟨List.nodup_nil, .slnil, fun _ => rfl⟩

/-- A query may take a peer. -/
theorem take {queue : Queue} {drain : Drain} (h : station.IsSound)
    (hquery : station.queries[number]? = some query) (hdraining : query.fate = .draining)
    (hstep : query.drain.step station.tree station.now station.service.queue =
      some (queue, .inl drain)) :
    (station.take number { query with drain := drain } queue).IsSound := by
  have hasked := h.queries number query hquery
  obtain ⟨hfirst, hroom, -, sighting, rest, hheard, rfl, rfl⟩ := Drain.step_takes hstep
  have hhead : station.service.queue.heard.head? = some sighting := by rw [hheard, List.head?_cons]
  have hbounded := h.bounded
  have hconserved := h.conserved
  rw [hheard] at hbounded hconserved
  obtain ⟨hticket, hscope, hlimit⟩ := query.drain.take_keeps sighting
  refine ⟨Nat.le_of_succ_le hbounded, fun other hmem => h.foreign other ?_, ?_, ?_,
    fun entry hentry => ?_, fun other asked hasks => ?_⟩
  · rw [hheard]
    exact List.mem_cons_of_mem _ hmem
  · simpa [Station.take, put, hhead] using hconserved
  · exact h.issued.trans List.length_set.symm
  · have hlength : entry.1 < station.queries.length := by
      simp only [Station.take, hhead, Option.map_some, Option.toList_some, List.mem_append,
        List.mem_singleton] at hentry
      obtain hold | rfl := hentry
      · exact h.numbered entry hold
      · exact (List.getElem?_eq_some_iff.1 hquery).1
    exact Nat.lt_of_lt_of_eq hlength List.length_set.symm
  · obtain ⟨rfl, rfl⟩ | ⟨hne, hold⟩ := get_set_cases hasks
    · refine ⟨hticket.trans hasked.ticket, hlimit.trans hasked.limit, ?_, ?_,
        ⟨hscope ▸ hasked.heeds.token, hscope ▸ hasked.heeds.deadline⟩, fun found hanswered => ?_,
        fun _ hbehind => ?_⟩
      · rw [hasked.limit] at hroom
        exact Nat.le_trans (query.drain.length_take_le sighting) hroom
      · rw [taken_take_self hhead]
        exact hasked.gathers.take sighting
      · rw [hdraining] at hanswered
        cases hanswered
      · rw [← hasked.ticket] at hbehind
        exact absurd hfirst (Bool.eq_false_iff.1 hbehind)
    · exact (h.queries other asked hold).frame (taken_take_of_ne hne) id

/-- A query may end. -/
theorem close {fate : Inquiry.Fate} (h : station.IsSound)
    (hquery : station.queries[number]? = some query) (hended : fate ≠ .draining)
    (hanswered : ∀ found, fate = .answered found → found = query.drain.found) :
    (station.put number { query with fate := fate }
      (station.service.queue.leave query.drain.ticket)).IsSound := by
  have hasked := h.queries number query hquery
  refine ⟨h.bounded, h.foreign, h.conserved, h.issued.trans List.length_set.symm,
    fun entry hentry => Nat.lt_of_lt_of_eq (h.numbered entry hentry) List.length_set.symm,
    fun other asked hasks => ?_⟩
  obtain ⟨rfl, rfl⟩ | ⟨hne, hold⟩ := get_set_cases hasks
  · exact { hasked with answered := hanswered, waits := fun hdraining => absurd hdraining hended }
  · refine (h.queries other asked hold).frame rfl fun hfirst => Queue.is_first_leave hfirst ?_
    rw [hasked.ticket]
    exact hne

end IsSound

/-- Every step keeps what holds of the queue and of all queries. -/
theorem Step.is_sound (hstep : Step station after) (h : station.IsSound) : after.IsSound := by
  cases hstep with
  | act offered service hacts => exact h.act hacts
  | find scope limit => exact h.find scope limit
  | take number query queue next hquery hdraining hstep => exact h.take hquery hdraining hstep
  | answer number query queue found hquery hdraining hstep =>
      rw [Drain.step_answer hstep]
      refine h.close hquery nofun fun other hanswered => ?_
      cases hanswered
      exact Drain.found_of_step hstep
  | abandon number query hquery hdraining => exact h.close hquery nofun nofun
  | cancel | pass =>
      exact ⟨h.bounded, h.foreign, h.conserved, h.issued, h.numbered, fun number query hquery =>
        (h.queries number query hquery).frame rfl id⟩

/-- Every step leaves the identity of this node alone. -/
theorem Step.local_id_eq (hstep : Step station after) :
    after.service.queue.localId = station.service.queue.localId := by
  cases hstep with
  | act offered service hacts =>
      show service.queue.localId = _
      rw [hacts.queue_eq, Queue.receive_eq]
  | take number query queue next hquery hdraining hstep =>
      obtain ⟨-, -, -, sighting, rest, -, rfl, -⟩ := Drain.step_takes hstep
      rfl
  | answer number query queue found hquery hdraining hstep =>
      obtain rfl := Drain.step_answer hstep
      rfl
  | find | abandon | cancel | pass => rfl

/-- A step is one of the query that takes a peer, while it holds the queue and its scope is not done,
or no query takes anything. -/
theorem Step.removed_cases (hstep : Step station after) : after.removed = station.removed ∨
    ∃ number query sighting, station.queries[number]? = some query ∧ station.holds number = true ∧
      query.drain.scope.isDone station.tree station.now = false ∧
      after.removed = station.removed ++ [(number, sighting)] := by
  cases hstep with
  | act | find | answer | abandon | cancel | pass => exact .inl rfl
  | take number query queue next hquery hdraining hstep =>
      obtain ⟨hfirst, -, hdone, sighting, rest, hheard, -, -⟩ := Drain.step_takes hstep
      refine .inr ⟨number, query, sighting, hquery, ?_, hdone, ?_⟩
      · simp [holds, hquery, Inquiry.isDraining, hdraining, hfirst]
      · simp [Station.take, hheard]

/-- A query takes nothing with a step while it does not hold the queue or its scope is done. -/
theorem Step.taken_eq (hstep : Step station after) (hidle : station.holds number = false ∨
    ∃ query, station.queries[number]? = some query ∧
      query.drain.scope.isDone station.tree station.now = true) :
    after.taken number = station.taken number := by
  obtain hsame | ⟨other, query, sighting, hquery, hholds, hdone, hmore⟩ := hstep.removed_cases
  · rw [taken, hsame, taken]
  · have hne : other ≠ number := by
      rintro rfl
      obtain hfree | ⟨asked, hasked, hover⟩ := hidle
      · rw [hholds] at hfree
        cases hfree
      · obtain rfl := Option.some.inj (hquery.symm.trans hasked)
        rw [hdone] at hover
        cases hover
    simp [taken, hmore, hne]

/-- A step leaves the scopes of a query alone, and one that has ended does not begin again. -/
theorem Step.get_query (hstep : Step station after)
    (hquery : station.queries[number]? = some query) :
    ∃ next, after.queries[number]? = some next ∧ next.scope = query.scope ∧
      next.drain.scope = query.drain.scope ∧
      (next.fate = .draining → query.fate = .draining) := by
  have hput : ∀ other (asked moved : Inquiry), station.queries[other]? = some asked →
      moved.scope = asked.scope → moved.drain.scope = asked.drain.scope →
      asked.fate = .draining → ∃ next, (station.queries.set other moved)[number]? = some next ∧
        next.scope = query.scope ∧ next.drain.scope = query.drain.scope ∧
        (next.fate = .draining → query.fate = .draining) := by
    intro other asked moved hasked hscope hdrain hdraining
    rw [List.getElem?_set]
    split_ifs with hsame hlt
    · subst hsame
      obtain rfl := Option.some.inj (hasked.symm.trans hquery)
      exact ⟨moved, rfl, hscope, hdrain, fun _ => hdraining⟩
    · subst hsame
      exact absurd (List.getElem?_eq_some_iff.1 hasked).1 hlt
    · exact ⟨query, hquery, rfl, rfl, id⟩
  cases hstep with
  | act | cancel | pass => exact ⟨query, hquery, rfl, rfl, id⟩
  | find scope limit =>
      refine ⟨query, ?_, rfl, rfl, id⟩
      show (station.queries ++ _)[number]? = some query
      rw [List.getElem?_append_left (List.getElem?_eq_some_iff.1 hquery).1, hquery]
  | take other asked queue next hasked hdraining hstep =>
      obtain ⟨-, -, -, hscope⟩ := Drain.step_go hstep
      exact hput other asked _ hasked rfl hscope hdraining
  | answer other asked queue found hasked hdraining hstep =>
      exact hput other asked _ hasked rfl rfl hdraining
  | abandon other asked hasked hdraining => exact hput other asked _ hasked rfl rfl hdraining

/-- A scope that is done stays so with every step. -/
theorem Step.is_done {scope : Scope} (hstep : Step station after)
    (hdone : scope.isDone station.tree station.now = true) :
    scope.isDone after.tree after.now = true := by
  cases hstep with
  | act | find | take | answer | abandon => exact hdone
  | cancel token =>
      exact Scope.is_done_of_later (Nat.le_refl _)
        (fun _ hcancelled => ScopeTree.is_cancelled_cancel_of token hcancelled) hdone
  | pass later hlater => exact Scope.is_done_of_later hlater (fun _ h => h) hdone

/-- A query that gets hold of the queue has taken nothing. -/
theorem Step.taken_of_gets (hstep : Step station after) (h : station.IsSound)
    (hbefore : station.holds number = false) (hafter : after.holds number = true) :
    after.taken number = [] := by
  rw [hstep.taken_eq (.inl hbefore)]
  cases hquery : station.queries[number]? with
  | none => exact h.taken_eq_nil (List.getElem?_eq_none_iff.1 hquery)
  | some query =>
      obtain ⟨next, hnext, -, -, hback⟩ := hstep.get_query hquery
      have hdraining : next.fate = .draining := by
        simp only [holds, hnext, Option.any_some, Bool.and_eq_true] at hafter
        unfold Inquiry.isDraining at hafter
        cases hfate : next.fate <;> simp_all
      have hasked := h.queries number query hquery
      refine hasked.waits (hback hdraining) (Bool.eq_false_iff.2 fun hfirst => ?_)
      rw [← hasked.ticket] at hfirst
      simp [holds, hquery, Inquiry.isDraining, hback hdraining, hfirst] at hbefore

namespace Path

variable {start later : Station}

/-- What holds of the queue and of all queries holds along every path from the beginning. -/
theorem is_sound (hfresh : start.IsFresh) (hpath : Path start station) : station.IsSound := by
  induction hpath with
  | refl =>
      obtain ⟨hqueue, hqueries, haccepted, hremoved⟩ := hfresh
      refine ⟨?_, ?_, ?_, ?_, ?_, ?_⟩
      · rw [hqueue]
        exact Nat.zero_le _
      · rw [hqueue]
        nofun
      · rw [hqueue, haccepted, hremoved]
        rfl
      · rw [hqueue, hqueries]
        rfl
      · rw [hremoved]
        nofun
      · rw [hqueries]
        nofun
  | step middle after hpath hstep ih => exact hstep.is_sound ih

/-- The identity of this node is the same along every path. -/
theorem local_id_eq (hpath : Path start station) :
    station.service.queue.localId = start.service.queue.localId := by
  induction hpath with
  | refl => rfl
  | step middle after hpath hstep ih => rw [hstep.local_id_eq, ih]

/-- A query takes nothing more once the scope of its drain is done. -/
theorem taken_eq_of_done (hpath : Path station later)
    (hquery : station.queries[number]? = some query)
    (hdone : query.drain.scope.isDone station.tree station.now = true) :
    later.taken number = station.taken number := by
  have hkept : later.taken number = station.taken number ∧ ∃ next,
      later.queries[number]? = some next ∧ next.drain.scope.isDone later.tree later.now = true := by
    induction hpath with
    | refl => exact ⟨rfl, query, hquery, hdone⟩
    | step middle after hpath hstep ih =>
        obtain ⟨htaken, asked, hasked, hover⟩ := ih
        obtain ⟨next, hnext, -, hscope, -⟩ := hstep.get_query hasked
        refine ⟨(hstep.taken_eq (.inr ⟨asked, hasked, hover⟩)).trans htaken, next, hnext, ?_⟩
        rw [hscope]
        exact hstep.is_done hover
  exact hkept.1

/-- When all listeners had their turns, that was one step after another. -/
theorem exists_advance (station : Station) (moment : Moment) (journal : Journal) :
    ∃ after, Path station after ∧ after.service = (station.service.advance moment journal).1.state := by
  refine @Activity.run_all_keeps _ _ (Listener.step station.service.tag moment)
    (fun queue listeners => ∃ after, Path station after ∧
      after.service = { station.service with queue := queue.state, listeners := listeners })
    (fun queue before listener later heard next hreached hstep => ?_) ⟨station.service.queue, journal⟩ []
    station.service.listeners ⟨station, .refl station, rfl⟩
  obtain ⟨middle, hpath, hservice⟩ := hreached
  have hlisteners : middle.service.listeners = before ++ listener :: later := by rw [hservice]
  have hacts := Service.Acts.listen middle.service moment before listener later queue.journal heard next
    hlisteners (by rw [hservice]; exact hstep)
  exact ⟨_, .step _ _ _ hpath (.act middle _ _ hacts), by rw [act, hservice]⟩

/-- However peers are offered and queries take them, the queue keeps its bound and never holds this
node, and a peer is refused exactly if it is this node or there is no room, which changes nothing. The
peers that all queries took so far and those that wait are together the accepted ones, in the order in
which they were accepted. A query answers with as many peers as it may at most, all different and among
those that it took. Once its scope is done it takes nothing more, and nothing at all if that is so
already when it gets hold of the queue. -/
theorem queue_conserves (hfresh : start.IsFresh) (hpath : Path start station) :
    station.service.queue.heard.length ≤ Queue.capacity ∧
    (∀ sighting ∈ station.service.queue.heard, sighting.id ≠ start.service.queue.localId) ∧
    (∀ sighting, ((station.service.queue.offer sighting).1 = false ↔
        sighting.id = start.service.queue.localId ∨
          station.service.queue.heard.length = Queue.capacity) ∧
      ((station.service.queue.offer sighting).1 = false →
        station.act (some sighting) (station.service.offer sighting).2 = station ∧
        ∀ service, station.service.Acts (some sighting) service →
          service.queue = station.service.queue)) ∧
    station.removed.map Prod.snd ++ station.service.queue.heard = station.accepted ∧
    ∀ number query, station.queries[number]? = some query →
      (∀ found, query.fate = .answered found → found.length ≤ query.limit ∧
        (found.map Sighting.id).Nodup ∧ found.Sublist (station.taken number)) ∧
      (query.scope.isDone station.tree station.now = true →
        (∀ later, Path station later → later.taken number = station.taken number) ∧
        ∀ before, Path start before → Step before station → before.holds number = false →
          station.holds number = true → ∀ later, Path station later → later.taken number = []) := by
  have hsound := is_sound hfresh hpath
  have hlocal := hpath.local_id_eq
  refine ⟨hsound.bounded, hlocal ▸ hsound.foreign, fun sighting => ⟨?_, fun hrefused => ?_⟩,
    hsound.conserved, fun number query hquery => ⟨fun found hanswered => ?_, fun hdone => ?_⟩⟩
  · rw [Queue.offer_eq_false_iff, hlocal]
    have hbounded := hsound.bounded
    exact or_congr Iff.rfl ⟨Nat.le_antisymm hbounded, fun h => Nat.le_of_eq h.symm⟩
  · have hsame := Queue.offer_of_refused hrefused
    refine ⟨?_, fun service hacts => hacts.queue_eq.trans hsame⟩
    simp [act, Service.offer, Queue.accepts, Option.filter, hrefused, hsame]
  · have hasked := hsound.queries number query hquery
    rw [hasked.answered found hanswered]
    exact ⟨hasked.bounded, hasked.gathers.distinct, hasked.gathers.sublist⟩
  · have hover := (hsound.queries number query hquery).heeds.is_done hdone
    have htaken := fun later (hlater : Path station later) => hlater.taken_eq_of_done hquery hover
    refine ⟨htaken, fun before hbefore hstep hfree hholds later hlater => ?_⟩
    rw [htaken later hlater]
    exact hstep.taken_of_gets (is_sound hfresh hbefore) hfree hholds

end Path

/-- The identity of a node. -/
def nodeId : PeerId :=
  ⟨10 :: List.replicate 31 0, rfl, by decide +kernel⟩

/-- The identity of another node. -/
def peerId : PeerId :=
  ⟨14 :: List.replicate 31 0, rfl, by decide +kernel⟩

/-- A node that has not heard of any other one. -/
def idle : Station where
  now := 0
  tree := { issued := 3 }
  service :=
    { info := ⟨nodeId, ∅⟩, bound := true, queue := { localId := nodeId }, shutdown := [0] }

/-- That node was not used yet. -/
theorem is_fresh_idle : idle.IsFresh :=
  ⟨rfl, rfl, rfl, rfl⟩

/-- A query takes a peer while another one waits behind it, whose scope is cancelled before it gets hold
of the queue. -/
theorem exists_gets_late : ∃ before station query, Path idle before ∧ Step before station ∧
    before.holds 1 = false ∧ station.holds 1 = true ∧ station.queries[1]? = some query ∧
    query.scope.isDone station.tree station.now = true ∧ station.accepted.length = 2 := by
  have hheard := Path.step _ _ _ (.refl idle) (.act _ _ _ (.offer _ (.ofInfo ⟨peerId, ∅⟩)))
  have hagain := Path.step _ _ _ hheard (.act _ _ _ (.offer _ (.ofInfo ⟨peerId, ∅⟩)))
  have hfirst := Path.step _ _ _ hagain (.find _ ⟨[1], none⟩ 1)
  have hsecond := Path.step _ _ _ hfirst (.find _ ⟨[2], none⟩ 1)
  have htaken := Path.step _ _ _ hsecond (.take _ 0 _ _ _ rfl rfl rfl)
  have hcancelled := Path.step _ _ _ htaken (.cancel _ [2])
  exact ⟨_, _, _, hcancelled, .answer _ 0 _ _ _ rfl rfl rfl, rfl, rfl, rfl, rfl, rfl⟩

/-- That query takes nothing, and the peer that it could have taken stays in the queue. -/
theorem Path.queue_conserves_late : idle.IsFresh ∧ ∃ station, Path idle station ∧
    station.removed.map Prod.snd ++ station.service.queue.heard = station.accepted ∧
    station.accepted.length = 2 ∧ station.holds 1 = true ∧
    ∀ later, Path station later → later.taken 1 = [] := by
  obtain ⟨before, station, query, hbefore, hstep, hfree, hholds, hquery, hdone, haccepted⟩ :=
    exists_gets_late
  have hpath := Path.step _ _ _ hbefore hstep
  obtain ⟨-, -, -, hconserved, hqueries⟩ := hpath.queue_conserves is_fresh_idle
  obtain ⟨-, hlate⟩ := (hqueries 1 query hquery).2 hdone
  exact ⟨is_fresh_idle, station, hpath, hconserved, haccepted, hholds,
    hlate before hbefore hstep hfree hholds⟩

end Station

end PeerFinder.LocalNet
