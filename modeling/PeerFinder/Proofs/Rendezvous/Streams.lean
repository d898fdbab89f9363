import Mathlib.Data.List.Pairwise
import Mathlib.Order.MinMax
import PeerFinder.Proofs.Rendezvous.Answers

/-!
# What a query of a stream comes to

A routing table answers a lookup with a stream of providers that may take any time to come, and may end
or hang. Of such a stream `firstReports` are those that count for a query, and `ending` is when it has
what it needs. The `Lookup.outlook` of a query runs through the stream as the query does, one provider
after another, and `Lookup.outlook_eq` says that this comes to the same.
-/

namespace PeerFinder.Rendezvous

/-- When a provider arrives that is waited for from an instant on. -/
def arrival (now : Clock.Instant) (delay : Clock.Span) : Clock.Instant :=
  if delay = 0 then now else Clock.after now delay

/-- The providers of a script with the instants at which they arrive, each so long after the one
before. -/
def schedule (now : Clock.Instant) :
    List (Clock.Span × Provider) → List (Clock.Instant × Provider)
  | [] => []
  | (delay, provider) :: rest => (arrival now delay, provider) :: schedule (arrival now delay) rest

/-- The peers among providers, with the instants at which they are reported. -/
def reports (events : List (Clock.Instant × Provider)) : List (Clock.Instant × PeerInfo) :=
  events.filterMap fun event => event.2.toOption.map (Prod.mk event.1)

/-- The reports of other nodes before a bound, of every node the first one only. -/
def firstReports (localId : PeerId) (bound : Option Clock.Instant)
    (events : List (Clock.Instant × Provider)) : List (Clock.Instant × PeerInfo) :=
  ((reports events).filter fun report =>
      bound.all (report.1 < ·) && report.2.id ≠ localId).eraseDupsBy
    fun report earlier => report.2.id == earlier.2.id

/-- When a query ends that began at an instant, given the reports that count for it: when it has
enough of them, or at the end of the stream or the bound, whichever comes first. -/
def ending (now : Clock.Instant) (limit : Nat) (bound : Option Clock.Instant)
    (events : List (Clock.Instant × Provider)) (hangs : Bool)
    (met : List (Clock.Instant × PeerInfo)) : Option Clock.Instant :=
  if limit ≤ met.length then some ((met.take limit).getLast?.elim now Prod.fst)
  else
    Clock.earlier (if hangs then none else some (events.getLast?.elim now Prod.fst))
      (bound.map (max now))

section Schedules

variable {now : Clock.Instant}

/-- A provider arrives no earlier than it is waited for. -/
theorem le_arrival (now : Clock.Instant) (delay : Clock.Span) : now ≤ arrival now delay := by
  unfold arrival Clock.after Clock.after?
  split_ifs
  · exact le_rfl
  · exact Nat.le_add_right _ _
  · exact Nat.le_add_right _ _

/-- The providers of a script arrive one after another. -/
theorem schedule_ordered (now : Clock.Instant) (arrivals : List (Clock.Span × Provider)) :
    (now :: (schedule now arrivals).map Prod.fst).Pairwise (· ≤ ·) := by
  induction arrivals generalizing now with
  | nil => exact List.pairwise_singleton _ _
  | cons entry rest ih =>
      rw [schedule, List.map_cons]
      exact .cons_cons_of_trans (le_arrival now entry.1) (ih (arrival now entry.1))

end Schedules

/-- The providers that are still to come of a feed that follows a script, with the instants at which
they arrive. -/
def Feed.upcoming (now : Clock.Instant) : Feed → List (Clock.Instant × Provider)
  | .scripted ((delay, provider) :: rest) _ due =>
      (due.getD (arrival now delay), provider) :: schedule (due.getD (arrival now delay)) rest
  | .scripted [] _ _ => []
  | .slots .. => []

/-- The providers that are still to come arrive one after another. -/
theorem Feed.upcoming_ordered {now : Clock.Instant} (arrivals : List (Clock.Span × Provider))
    (hangs : Bool) {due : Option Clock.Instant} (hdue : ∀ instant ∈ due, now ≤ instant) :
    (now :: ((Feed.scripted arrivals hangs due).upcoming now).map Prod.fst).Pairwise (· ≤ ·) := by
  cases arrivals with
  | nil => exact List.pairwise_singleton _ _
  | cons entry rest =>
      have hnext : now ≤ due.getD (arrival now entry.1) := by
        cases due with
        | none => exact le_arrival now entry.1
        | some instant => exact hdue instant rfl
      rw [upcoming, List.map_cons]
      exact .cons_cons_of_trans hnext (schedule_ordered (due.getD (arrival now entry.1)) rest)

/-- A feed that is not yet waited for brings all providers of its script. -/
theorem Feed.upcoming_none (now : Clock.Instant) (arrivals : List (Clock.Span × Provider))
    (hangs : Bool) : (Feed.scripted arrivals hangs none).upcoming now = schedule now arrivals := by
  cases arrivals <;> rfl

namespace Lookup

section Outlook

variable (lookup : Lookup) (hangs : Bool) (now : Clock.Instant)

/-- What a query comes to answer, and when, if these providers come at these instants. -/
def outlook (hangs : Bool) (now : Clock.Instant) (lookup : Lookup) :
    List (Clock.Instant × Provider) → List Sighting × Option Clock.Instant
  | [] =>
      if lookup.limit ≤ lookup.found.length then (lookup.answer, some now)
      else
        (lookup.answer, Clock.earlier (if hangs then none else some now)
          (lookup.scope.deadline.map (max now)))
  | (instant, provider) :: rest =>
      if lookup.limit ≤ lookup.found.length then (lookup.answer, some now)
      else if lookup.scope.deadline.all (instant < ·) then
        outlook hangs instant (lookup.take provider) rest
      else (lookup.answer, lookup.scope.deadline.map (max now))

/-- Whether a report counts for a query: it comes before the bound, and is of another node that was
not met yet. -/
def counts (report : Clock.Instant × PeerInfo) : Bool :=
  lookup.scope.deadline.all (report.1 < ·) &&
    !(report.2.id = lookup.localId || lookup.found.any (·.id == report.2.id))

/-- The reports that count for a query, of every node the first one only. -/
def newReports (events : List (Clock.Instant × Provider)) : List (Clock.Instant × PeerInfo) :=
  ((reports events).filter lookup.counts).eraseDupsBy fun report earlier =>
    report.2.id == earlier.2.id

/-- A query that has enough answers now. -/
theorem outlook_of_enough (henough : lookup.limit ≤ lookup.found.length)
    (events : List (Clock.Instant × Provider)) :
    lookup.outlook hangs now events = (lookup.answer, some now) := by
  cases events <;> simp [outlook, henough]

/-- What is to come of a query does not depend on its feed. -/
theorem outlook_with_feed (feed : Feed) (events : List (Clock.Instant × Provider)) :
    outlook hangs now { lookup with feed := feed } events = outlook hangs now lookup events := by
  induction events generalizing now lookup with
  | nil => rfl
  | cons event rest ih =>
      simp only [outlook, take_with_feed, ih]
      rfl

/-- Once the bound has come no report counts. -/
theorem new_reports_of_late {events : List (Clock.Instant × Provider)} {bound : Clock.Instant}
    (hbound : lookup.scope.deadline = some bound)
    (hlate : ∀ event ∈ events, bound ≤ event.1) : lookup.newReports events = [] := by
  have hnone : (reports events).filter lookup.counts = [] := by
    rw [List.filter_eq_nil_iff]
    intro report hmem hcounts
    obtain ⟨event, hevent, hreport⟩ := List.mem_filterMap.1 hmem
    obtain ⟨info, -, rfl⟩ := Option.map_eq_some_iff.1 hreport
    simp only [counts, hbound, Option.all_some, Bool.and_eq_true, decide_eq_true_eq] at hcounts
    exact Nat.not_lt.2 (hlate event hevent) hcounts.1
  rw [newReports, hnone, List.eraseDupsBy_nil]

/-- A provider that comes in time is left out, or is met as the first one that counts. -/
theorem new_reports_cons {instant : Clock.Instant} {provider : Provider}
    (htimely : lookup.scope.deadline.all (instant < ·) = true)
    (rest : List (Clock.Instant × Provider)) :
    (lookup.take provider = lookup ∧
      lookup.newReports ((instant, provider) :: rest) = lookup.newReports rest) ∨
    ∃ info, lookup.take provider = { lookup with found := lookup.found ++ [info] } ∧
      lookup.newReports ((instant, provider) :: rest) =
        (instant, info) :: (lookup.take provider).newReports rest := by
  cases provider with
  | error error => exact .inl ⟨rfl, rfl⟩
  | ok info =>
      have hreports : reports ((instant, .ok info) :: rest) = (instant, info) :: reports rest := rfl
      cases hskip : info.id = lookup.localId || lookup.found.any (·.id == info.id) with
      | true =>
          have hcounts : lookup.counts (instant, info) = false := by simp [counts, hskip]
          refine .inl ⟨if_pos hskip, ?_⟩
          rw [newReports, hreports, List.filter_cons_of_neg (by rw [hcounts]; decide), newReports]
      | false =>
          have hcounts : lookup.counts (instant, info) = true := by simp [counts, hskip, htimely]
          have htake : lookup.take (.ok info) = { lookup with found := lookup.found ++ [info] } :=
            if_neg (by rw [hskip]; decide)
          refine .inr ⟨info, htake, ?_⟩
          rw [newReports, hreports, List.filter_cons_of_pos hcounts, List.eraseDupsBy_cons,
            List.filter_filter, newReports, htake]
          -- Whom the query has met from now on is whom it had met before, and this node.
          congr 3
          funext report
          have hsame : (info.id == report.2.id) = (report.2.id == info.id) := Bool.beq_comm
          simp only [counts, List.any_append, List.any_cons, List.any_nil, Bool.or_false, hsame]
          cases report.2.id == info.id <;> simp

end Outlook

end Lookup

section Endings

variable {now instant : Clock.Instant} {limit : Nat} {bound : Option Clock.Instant}
  {provider : Provider} {rest : List (Clock.Instant × Provider)} {hangs : Bool}
  {met : List (Clock.Instant × PeerInfo)}

/-- A query that needs nothing more ends now. -/
theorem ending_zero (events : List (Clock.Instant × Provider)) :
    ending now 0 bound events hangs met = some now := by
  simp [ending]

/-- A bound that is not before an instant ends a query at the same time whether the query begins then or
before. -/
theorem max_bound (hnow : now ≤ instant) (htimely : bound.all (instant < ·) = true) :
    bound.map (max now) = bound.map (max instant) := by
  cases bound with
  | none => rfl
  | some bound =>
      have hlt : instant < bound := by simpa using htimely
      rw [Option.map_some, Option.map_some, max_eq_right (hnow.trans hlt.le), max_eq_right hlt.le]

/-- A stream ends with its last provider. -/
theorem last_of_cons (events : List (Clock.Instant × Provider)) :
    ((instant, provider) :: events).getLast?.elim now Prod.fst =
      events.getLast?.elim instant Prod.fst := by
  rw [List.getLast?_cons]
  cases events.getLast? <;> rfl

/-- A provider that is left out makes no difference to when a query ends. -/
theorem ending_skip (hnow : now ≤ instant) (htimely : bound.all (instant < ·) = true) :
    ending now (limit + 1) bound ((instant, provider) :: rest) hangs met =
      ending instant (limit + 1) bound rest hangs met := by
  unfold ending
  rw [last_of_cons, max_bound hnow htimely]
  cases met with
  | nil => rfl
  | cons report met => simp only [List.take_succ_cons, List.getLast?_cons, Option.elim_some]

/-- A query that meets a peer ends when one with one peer less to meet does that begins then. -/
theorem ending_meet {info : PeerInfo} (hnow : now ≤ instant)
    (htimely : bound.all (instant < ·) = true) :
    ending now (limit + 1) bound ((instant, provider) :: rest) hangs ((instant, info) :: met) =
      ending instant limit bound rest hangs met := by
  unfold ending
  rw [last_of_cons, max_bound hnow htimely, List.length_cons, List.take_succ_cons,
    List.getLast?_cons]
  refine if_congr Nat.succ_le_succ_iff ?_ rfl
  cases (met.take limit).getLast? <;> rfl

/-- A query that meets nobody ends at the bound if the stream does not end before it. -/
theorem ending_late {late : Clock.Instant} (hbound : bound = some late) (hlate : late ≤ instant)
    (hnow : now ≤ instant)
    (hordered : ∀ event ∈ rest, instant ≤ event.1) :
    ending now (limit + 1) bound ((instant, provider) :: rest) hangs [] = bound.map (max now) := by
  subst hbound
  have hend : max now late ≤ rest.getLast?.elim instant Prod.fst := by
    cases hlast : rest.getLast? with
    | none => exact max_le hnow hlate
    | some event => exact (max_le hnow hlate).trans (hordered event (List.mem_of_getLast? hlast))
  rw [ending, if_neg (by simp), last_of_cons]
  cases hangs with
  | true => rfl
  | false => exact congrArg some (min_eq_right hend)

end Endings

namespace Lookup

/-- A query that has enough answers now whom it has met. -/
theorem outlook_of_none_left {lookup : Lookup} (hleft : lookup.limit - lookup.found.length = 0)
    (hangs : Bool) (now : Clock.Instant) (events : List (Clock.Instant × Provider)) :
    lookup.outlook hangs now events =
      ((lookup.found ++ ((lookup.newReports events).take 0).map Prod.snd).map Sighting.ofInfo,
        ending now 0 lookup.scope.deadline events hangs (lookup.newReports events)) := by
  rw [outlook_of_enough _ _ _ (by omega), ending_zero, List.take_zero, List.map_nil, List.append_nil]
  rfl

/-- A query that has not enough when the next provider comes too late answers at its bound whom it has
met. -/
theorem outlook_of_late {lookup : Lookup} {left : Nat}
    (hleft : lookup.limit - lookup.found.length = left + 1) (hangs : Bool)
    {now instant : Clock.Instant} {provider : Provider} {rest : List (Clock.Instant × Provider)}
    (hordered : (now :: instant :: rest.map Prod.fst).Pairwise (· ≤ ·))
    (htimely : lookup.scope.deadline.all (instant < ·) = false) :
    let events := (instant, provider) :: rest
    lookup.outlook hangs now events =
      ((lookup.found ++ ((lookup.newReports events).take (left + 1)).map Prod.snd).map Sighting.ofInfo,
        ending now (left + 1) lookup.scope.deadline events hangs (lookup.newReports events)) := by
  intro events
  obtain ⟨hlater, hrest⟩ := List.pairwise_cons.1 hordered
  obtain ⟨late, hbound, hlate⟩ : ∃ late, lookup.scope.deadline = some late ∧ late ≤ instant := by
    cases hdeadline : lookup.scope.deadline with
    | none => simp [hdeadline] at htimely
    | some late => exact ⟨late, rfl, by simpa [hdeadline] using htimely⟩
  have hlast : ∀ event ∈ rest, instant ≤ event.1 := fun event hmem =>
    (List.pairwise_cons.1 hrest).1 event.1 (List.mem_map_of_mem hmem)
  have hnone : lookup.newReports events = [] := by
    refine lookup.new_reports_of_late hbound fun event hmem => ?_
    rcases List.mem_cons.1 hmem with rfl | hmem
    · exact hlate
    · exact hlate.trans (hlast event hmem)
  rw [outlook, if_neg (by omega), if_neg (by rw [htimely]; decide), hnone,
    ending_late hbound hlate (hlater instant (.head _)) hlast, List.take_nil, List.map_nil,
    List.append_nil]
  rfl

/-- A query comes to answer whom it has met already and whom it is the first to hear of in time, as many
as it may, and it ends when `ending` says. -/
theorem outlook_eq (hangs : Bool) (now : Clock.Instant) (lookup : Lookup)
    (events : List (Clock.Instant × Provider))
    (hordered : (now :: events.map Prod.fst).Pairwise (· ≤ ·)) :
    lookup.outlook hangs now events =
      ((lookup.found ++ ((lookup.newReports events).take (lookup.limit - lookup.found.length)).map
          Prod.snd).map Sighting.ofInfo,
        ending now (lookup.limit - lookup.found.length) lookup.scope.deadline events hangs
          (lookup.newReports events)) := by
  induction events generalizing now lookup with
  | nil =>
      cases hleft : lookup.limit - lookup.found.length with
      | zero => exact outlook_of_none_left hleft hangs now []
      | succ left =>
          have hnone : lookup.newReports [] = [] := rfl
          rw [outlook, if_neg (by omega), hnone, List.take_nil, List.map_nil, List.append_nil]
          rfl
  | cons event rest ih =>
      obtain ⟨instant, provider⟩ := event
      obtain ⟨hlater, hrest⟩ := List.pairwise_cons.1 hordered
      have hnow : now ≤ instant := hlater instant (.head _)
      cases hleft : lookup.limit - lookup.found.length with
      | zero => exact outlook_of_none_left hleft hangs now ((instant, provider) :: rest)
      | succ left =>
          cases htimely : lookup.scope.deadline.all (instant < ·) with
          | false => exact outlook_of_late hleft hangs hordered htimely
          | true =>
              rw [outlook, if_neg (by omega), if_pos htimely, ih instant (lookup.take provider) hrest,
                scope_take, limit_take]
              obtain ⟨htake, hnew⟩ | ⟨info, htake, hnew⟩ := lookup.new_reports_cons htimely rest
              · rw [htake, hnew, hleft, ending_skip hnow htimely]
              · have hfound : (lookup.take provider).found = lookup.found ++ [info] := by rw [htake]
                have hcount : lookup.limit - (lookup.found ++ [info]).length = left := by
                  rw [List.length_append, List.length_singleton]
                  omega
                rw [hfound, hcount, hnew, ending_meet hnow htimely, List.take_succ_cons,
                  List.map_cons, List.append_assoc, List.singleton_append]

end Lookup

end PeerFinder.Rendezvous
