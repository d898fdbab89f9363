import Mathlib.Data.List.Nodup
import Mathlib.Data.List.Perm.Basic
import PeerFinder.Proofs.Environment.Queries

/-!
# Queries that have found something have their turn

Peers that a query takes from the queue of the local network are gone from there, so it matters that
nothing comes between such a query and its end. Only the first in line takes peers, tickets are
given out once, and whoever joins does so at the end: a query that has taken something stays the
first until it ends (`Queued`). With its turn it heeds the deadline of its scope.
-/

namespace PeerFinder

namespace Search

/-- What a query has found so far, if it searches for itself. -/
def collected? : Search → Option (List Sighting)
  | .drain _ call => some call.found
  | .lookup call => some call.answer
  | .answered _ | .scripted .. => none

variable {env after : Environment} {search : Search}

/-- A query goes on only when it has its turn. -/
theorem has_turn_of_step {next : Search ⊕ Except Error (List Sighting)}
    (hstep : search.step env = some (after, next)) : search.hasTurn env = true := by
  cases search with
  | answered | scripted | lookup => rfl
  | drain place call =>
      simp only [step] at hstep
      cases hnet : env.localNet? place with
      | none => simp [hasTurn, line?, Environment.turns_eq_none hnet]
      | some service =>
          simp only [hnet, Option.map_eq_some_iff] at hstep
          obtain ⟨_, hdrain, -⟩ := hstep
          unfold LocalNet.Drain.step at hdrain
          split_ifs at hdrain with hfirst
          all_goals
            simpa [hasTurn, line?, Environment.turns_of_local_net hnet, LocalNet.Service.turns,
              LocalNet.Queue.isFirst] using hfirst

/-- A query that ends answers what it has found. -/
theorem answer_of_step {result : Except Error (List Sighting)}
    (hstep : search.step env = some (after, .inr result)) {found : List Sighting}
    (hfound : found ∈ search.collected?) : result = .ok found := by
  cases search with
  | answered | scripted => cases hfound
  | drain place call =>
      cases hfound
      simp only [step] at hstep
      split at hstep
      · cases hstep
        rfl
      · obtain ⟨⟨queue, next | answer⟩, hdrain, heq⟩ := Option.map_eq_some_iff.1 hstep
        · cases heq
        · cases heq
          unfold LocalNet.Drain.step at hdrain
          split_ifs at hdrain
          · cases hdrain
            rfl
          · split at hdrain <;> cases hdrain
  | lookup call =>
      cases hfound
      obtain ⟨⟨routing, next | answer⟩, hlookup, heq⟩ := Option.map_eq_some_iff.1 hstep
      · cases heq
      · cases heq
        unfold Rendezvous.Lookup.step at hlookup
        split_ifs at hlookup
        · cases hlookup
          rfl
        · split at hlookup
          · cases hlookup
          · cases hlookup
            rfl
          · split_ifs at hlookup
            cases hlookup

/-- Only a query that searches for itself heeds a scope. -/
theorem scope_of_collected (search : Search) :
    search.collected? = none ↔ search.scope? = none := by
  cases search <;> simp [collected?, scope?]

end Search

/-- What holds of all queries in flight: no two of them share a ticket in the line of a place,
tickets yet to be given out are new, and whoever has found something has its turn. -/
structure Queued (env : Environment) (searches : List Search) : Prop where
  distinct : ∀ place, (searches.filterMap (Search.ticket? place)).Nodup
  issued : ∀ place line issued timeout, env.turns place = some (line, issued, timeout) →
    ∀ ticket ∈ searches.filterMap (Search.ticket? place), ticket < issued
  turn : ∀ search ∈ searches, ∀ found ∈ search.collected?, found ≠ [] → search.hasTurn env = true

/-- How a query begins at any place. -/
inductive Enters (env : Environment) (place : Nat) : Search → Environment → Prop where
  /-- It stands in no line. -/
  | aside (search : Search) (after : Environment) (hline : search.line? = none)
      (hallows : env.Allows after) : Enters env place search after
  /-- It joins the line of the place. -/
  | joins (search : Search) (after : Environment) (line : List Nat) (issued : Nat)
      (timeout : Clock.Span) (hturns : env.turns place = some (line, issued, timeout))
      (hline : search.line? = some (place, issued))
      (hothers : ∀ other, place ≠ other → after.turns other = env.turns other)
      (hjoined : after.turns place = some (line ++ [issued], issued + 1, timeout)) :
      Enters env place search after

namespace Environment

variable {env after : Environment} {place limit : Nat} {scope : Scope} {search : Search}

/-- Queries begin as `Enters` lists. -/
theorem find_enters (hfind : env.find place scope limit = (search, after)) :
    Enters env place search after := by
  cases hplace : env.mechanisms[place]? with
  | none =>
      simp only [find, hplace] at hfind
      cases hfind
      exact .aside _ _ rfl (.refl env)
  | some mechanism =>
      cases mechanism with
      | scripted mechanism =>
          simp only [find, hplace] at hfind
          cases hfind
          exact .aside _ _ rfl (.set hplace rfl rfl rfl fun _ h => h)
      | localNet | seeds | rendezvous =>
          cases find_begins hplace trivial hfind with
          | answered found _ hallows => exact .aside _ _ rfl hallows
          | searches _ _ timeout number _ _ hline hallows => exact .aside _ _ hline hallows
          | joins _ _ line issued timeout number _ _ hturns hline _ _ hothers hjoined =>
              exact .joins _ _ line issued timeout hturns hline hothers hjoined

/-- A query has found nothing when it begins. -/
theorem collected_of_find (hfind : env.find place scope limit = (search, after)) :
    ∀ found ∈ search.collected?, found = [] := by
  intro found hfound
  unfold find at hfind
  split at hfind <;> cases hfind <;> cases hfound <;> rfl

/-- A query that searches for itself does so under a scope that ends no later than that of its
caller. -/
theorem scope_of_find (hfind : env.find place scope limit = (search, after)) :
    ∀ own ∈ search.scope?, ∃ bound, own.deadline = Clock.earlier scope.deadline bound := by
  intro own hown
  unfold find at hfind
  split at hfind <;> cases hfind <;> cases hown <;> exact ⟨_, rfl⟩

/-- A query that leaves a line twice leaves it once. -/
theorem Frees.trans {middle : Environment} {held : Option (Nat × Nat)}
    (h : env.Frees middle held) (hnext : middle.Frees after held) : env.Frees after held where
  now := hnext.now.trans h.now
  cancelled token hmem := hnext.cancelled token (h.cancelled token hmem)
  others place hother := (hnext.others place hother).trans (h.others place hother)
  line place ticket heq := by
    rw [hnext.line place ticket heq, h.line place ticket heq, Option.map_map]
    congr 1
    funext turns
    simp [List.filter_filter]

/-- What happens around queries may happen before one leaves its line. -/
theorem Allows.trans_frees {middle : Environment} {held : Option (Nat × Nat)}
    (h : env.Allows middle) (hnext : middle.Frees after held) : env.Frees after held where
  now := hnext.now.trans h.now
  cancelled token hmem := hnext.cancelled token (h.cancelled token hmem)
  others place hother := (hnext.others place hother).trans (h.turns place)
  line place ticket heq := by rw [hnext.line place ticket heq, h.turns place]

end Environment

namespace Queued

variable {env after : Environment} {search next : Search} {searches others : List Search}

/-- It does not matter in which order queries are listed. -/
theorem perm (h : Queued env searches) (hperm : searches.Perm others) : Queued env others where
  distinct place := (hperm.filterMap _).nodup_iff.1 (h.distinct place)
  issued place line issued timeout hturns ticket hmem :=
    h.issued place line issued timeout hturns ticket ((hperm.filterMap _).mem_iff.2 hmem)
  turn search hmem := h.turn search (hperm.mem_iff.2 hmem)

/-- A change that leaves the lines alone leaves the queries alone. -/
theorem of_turns (h : Queued env searches) (hturns : ∀ place, after.turns place = env.turns place) :
    Queued after searches where
  distinct := h.distinct
  issued place line issued timeout hafter :=
    h.issued place line issued timeout (hturns place ▸ hafter)
  turn search hmem found hfound hne := by
    have hturn := h.turn search hmem found hfound hne
    simpa only [Search.hasTurn, hturns] using hturn

/-- The queries that are left when one is given up. -/
theorem tail (h : Queued env (search :: searches)) : Queued env searches where
  distinct place := (h.distinct place).sublist ((List.sublist_cons_self search searches).filterMap _)
  issued place line issued timeout hturns ticket hmem :=
    h.issued place line issued timeout hturns ticket
      (((List.sublist_cons_self search searches).filterMap _).subset hmem)
  turn other hmem := h.turn other (.tail _ hmem)

/-- A query that begins has a ticket of its own and stands behind the others. -/
theorem enter {place : Nat} (h : Queued env searches) (henters : Enters env place search after)
    (hempty : ∀ found ∈ search.collected?, found = []) : Queued after (search :: searches) := by
  cases henters with
  | aside hline hallows =>
      have hnone := Search.ticket_of_no_line hline
      have hafter := h.of_turns hallows.turns
      refine ⟨fun other => ?_, fun other line issued timeout hturns ticket hmem => ?_,
        fun other hmem found hfound hne => ?_⟩
      · rw [List.filterMap_cons_none (hnone other)]
        exact hafter.distinct other
      · rw [List.filterMap_cons_none (hnone other)] at hmem
        exact hafter.issued other line issued timeout hturns ticket hmem
      · rcases List.mem_cons.1 hmem with rfl | hmem
        · exact Search.has_turn_of_no_line hline after
        · exact hafter.turn other hmem found hfound hne
  | joins line issued timeout hturns hline hothers hjoined =>
      have hticket := Search.ticket_of_line hline
      have hbelow := h.issued place line issued timeout hturns
      refine ⟨fun other => ?_, fun other _ _ _ hother ticket hmem => ?_,
        fun other hmem found hfound hne => ?_⟩
      · by_cases hplace : place = other
        · subst hplace
          rw [List.filterMap_cons_some ((hticket place).trans (if_pos rfl)), List.nodup_cons]
          exact ⟨fun hmem => absurd (hbelow issued hmem) (Nat.lt_irrefl issued), h.distinct place⟩
        · rw [List.filterMap_cons_none ((hticket other).trans (if_neg hplace))]
          exact h.distinct other
      · by_cases hplace : place = other
        · subst hplace
          rw [hjoined] at hother
          cases hother
          rw [List.filterMap_cons_some ((hticket place).trans (if_pos rfl)), List.mem_cons] at hmem
          rcases hmem with rfl | hmem
          · exact Nat.lt_succ_self _
          · exact Nat.lt_succ_of_lt (hbelow ticket hmem)
        · rw [List.filterMap_cons_none ((hticket other).trans (if_neg hplace))] at hmem
          exact h.issued other _ _ _ ((hothers other hplace).symm.trans hother) ticket hmem
      · rcases List.mem_cons.1 hmem with rfl | hmem
        · exact absurd (hempty found hfound) hne
        · -- Whoever is the first in line stays it when another one joins.
          have hturn := h.turn other hmem found hfound hne
          cases hstands : other.line? with
          | none => exact Search.has_turn_of_no_line hstands after
          | some stands =>
              obtain ⟨held, ticket⟩ := stands
              by_cases hplace : place = held
              · subst hplace
                rw [Search.has_turn_iff hstands hturns] at hturn
                rw [Search.has_turn_iff hstands hjoined, List.head?_append, hturn]
                rfl
              · rw [Search.hasTurn, hstands] at hturn ⊢
                simpa [hothers held hplace] using hturn

/-- A query that goes on keeps its ticket, and has its turn. -/
theorem go (h : Queued env (search :: searches))
    (hstep : search.step env = some (after, .inl next)) : Queued after (next :: searches) := by
  obtain ⟨hallows, hline, -⟩ := Search.step_go hstep
  have hsame : ∀ place, next.ticket? place = search.ticket? place := by
    intro place
    rw [Search.ticket?, hline]
    rfl
  have hafter := h.of_turns hallows.turns
  refine ⟨fun place => ?_, fun place line issued timeout hturns ticket hmem => ?_,
    fun other hmem found hfound hne => ?_⟩
  · have hdistinct := hafter.distinct place
    rwa [List.filterMap_cons, ← hsame place, ← List.filterMap_cons] at hdistinct
  · refine hafter.issued place line issued timeout hturns ticket ?_
    rwa [List.filterMap_cons, ← hsame place, ← List.filterMap_cons]
  · rcases List.mem_cons.1 hmem with rfl | hmem
    · have hturn := Search.has_turn_of_step hstep
      simpa only [Search.hasTurn, hallows.turns, hline] using hturn
    · exact hafter.turn other (.tail _ hmem) found hfound hne

/-- When a query leaves its line, the others keep their tickets, and whoever is the first in line
stays it. -/
theorem free (h : Queued env (search :: searches)) (hfrees : env.Frees after search.line?) :
    Queued after searches := by
  cases hstood : search.line? with
  | none =>
      rw [hstood] at hfrees
      exact h.tail.of_turns fun place => hfrees.others place nofun
  | some stood =>
      obtain ⟨place, ticket⟩ := stood
      rw [hstood] at hfrees
      have hticket := Search.ticket_of_line hstood
      have hothers : ∀ other, place ≠ other → after.turns other = env.turns other := by
        refine fun other hne => hfrees.others other fun number heq => hne ?_
        cases heq
        rfl
      have hgone : ticket ∉ searches.filterMap (Search.ticket? place) := by
        have hdistinct := h.distinct place
        rw [List.filterMap_cons_some ((hticket place).trans (if_pos rfl))] at hdistinct
        exact (List.nodup_cons.1 hdistinct).1
      refine ⟨h.tail.distinct, fun other line issued timeout hturns => ?_,
        fun other hmem found hfound hne => ?_⟩
      · by_cases hplace : place = other
        · subst hplace
          rw [hfrees.line place ticket rfl, Option.map_eq_some_iff] at hturns
          obtain ⟨⟨whole, number, bound⟩, hturns, heq⟩ := hturns
          cases heq
          exact h.tail.issued place _ _ _ hturns
        · exact h.tail.issued other line issued timeout ((hothers other hplace).symm.trans hturns)
      · have hturn := h.turn other (.tail _ hmem) found hfound hne
        cases hstands : other.line? with
        | none => exact Search.has_turn_of_no_line hstands after
        | some stands =>
            obtain ⟨held, number⟩ := stands
            rw [Search.hasTurn, hstands] at hturn ⊢
            by_cases hplace : place = held
            · subst hplace
              have hne : number ≠ ticket := by
                rintro rfl
                exact hgone (List.mem_filterMap.2 ⟨other, hmem,
                  (Search.ticket_of_line hstands place).trans (if_pos rfl)⟩)
              rw [Option.all_some, hfrees.line place ticket rfl, Option.all_map]
              cases hturns : env.turns place with
              | none => rfl
              | some turns =>
                  obtain ⟨line, issued⟩ := turns
                  simp only [hturns, Option.all_some, decide_eq_true_eq] at hturn
                  obtain ⟨rest, rfl⟩ := List.head?_eq_some_iff.1 hturn
                  simp [hne]
            · simpa [hothers held hplace] using hturn

end Queued

end PeerFinder
