import PeerFinder.Proofs.Rendezvous.Streams

/-!
# Queries that answer in time

A query takes the providers of a stream one by one, and leaves out errors, its own node and whom it met
before. It is over when it has enough, when the stream ends or at its bound, and
`Service.find_is_timely` says exactly what it has found by then and when that is. A step of a query
comes to one of the few things that `Lookup.Turn` lists, and none of them changes its outlook
(`Inquiry.Leads.step`).
-/

namespace PeerFinder.Rendezvous

namespace Lookup

section Turns

variable {κ : Type} [DecidableEq κ] {tree : ScopeTree} {lookup : Lookup}
  {arrivals : List (Clock.Span × Provider)} {hangs : Bool} {due : Option Clock.Instant}

/-- Whether a query has not enough and its bound has not come. -/
structure IsOpen (lookup : Lookup) (now : Clock.Instant) : Prop where
  lacks : lookup.found.length < lookup.limit
  ahead : ∀ deadline ∈ lookup.scope.deadline, now < deadline

/-- What a step of a query comes to whose feed follows a script: nothing while it waits, and else the
query that goes on or the answer. -/
inductive Turn (now : Clock.Instant) (lookup : Lookup) (hangs : Bool) :
    List (Clock.Span × Provider) → Option Clock.Instant → Option (Lookup ⊕ List Sighting) → Prop where
  /-- It has enough or its bound has come. -/
  | finished (arrivals : List (Clock.Span × Provider)) (due : Option Clock.Instant)
      (hover : ¬ lookup.IsOpen now) :
      Turn now lookup hangs arrivals due (some (.inr lookup.answer))
  /-- The stream ends. -/
  | ended (due : Option Clock.Instant) (hopen : lookup.IsOpen now) (hends : hangs = false) :
      Turn now lookup hangs [] due (some (.inr lookup.answer))
  /-- The stream hangs. -/
  | hanging (due : Option Clock.Instant) (hopen : lookup.IsOpen now) (hhangs : hangs = true) :
      Turn now lookup hangs [] due none
  /-- It takes a provider. -/
  | took (delay : Clock.Span) (provider : Provider) (rest : List (Clock.Span × Provider))
      (due : Option Clock.Instant) (hopen : lookup.IsOpen now)
      (hcame : due.getD (arrival now delay) ≤ now) :
      Turn now lookup hangs ((delay, provider) :: rest) due
        (some (.inl ({ lookup with feed := .scripted rest hangs none }.take provider)))
  /-- It begins to wait for a provider. -/
  | waits (delay : Clock.Span) (provider : Provider) (rest : List (Clock.Span × Provider))
      (hopen : lookup.IsOpen now) :
      Turn now lookup hangs ((delay, provider) :: rest) none
        (some (.inl { lookup with
          feed := .scripted ((delay, provider) :: rest) hangs (some (arrival now delay)) }))
  /-- It waits for a provider. -/
  | waiting (delay : Clock.Span) (provider : Provider) (rest : List (Clock.Span × Provider))
      (instant : Clock.Instant) (hopen : lookup.IsOpen now) (hahead : now < instant) :
      Turn now lookup hangs ((delay, provider) :: rest) (some instant) none

/-- A query goes on by asking for a provider if it has not enough and its bound has not come, while its
scope is not cancelled. -/
theorem is_open_iff (hrunning : lookup.scope.isCancelled tree = false) (now : Clock.Instant) :
    lookup.IsOpen now ↔
      ¬ (lookup.limit ≤ lookup.found.length || lookup.scope.isDone tree now) = true := by
  simp only [Scope.isDone, hrunning, Bool.false_or, Bool.or_eq_true, decide_eq_true_eq,
    Option.any_eq_true, not_or, not_exists, not_and, Nat.not_le]
  exact ⟨fun h => ⟨h.lacks, h.ahead⟩, fun h => ⟨h.1, h.2⟩⟩

/-- The steps of a query whose feed follows a script are those that `Turn` lists, while its scope is not
cancelled. They leave the routing table alone. -/
theorem turn_of_step (hfeed : lookup.feed = .scripted arrivals hangs due)
    (hrunning : lookup.scope.isCancelled tree = false) (moment : Moment)
    (routing : Noted (Routing κ)) :
    ∃ result, Turn moment.now lookup hangs arrivals due result ∧
      step tree moment routing lookup = result.map (Prod.mk routing) := by
  by_cases hover : lookup.limit ≤ lookup.found.length || lookup.scope.isDone tree moment.now
  · exact ⟨_, .finished arrivals due fun hopen => (is_open_iff hrunning _).1 hopen hover, if_pos hover⟩
  · have hopen := (is_open_iff hrunning moment.now).2 hover
    unfold step
    rw [if_neg hover, hfeed]
    cases arrivals with
    | nil =>
        cases hangs with
        | true => exact ⟨_, .hanging due hopen rfl, if_pos rfl⟩
        | false => exact ⟨_, .ended due hopen rfl, rfl⟩
    | cons entry rest =>
        obtain ⟨delay, provider⟩ := entry
        have hpoll : Routing.poll moment (.scripted ((delay, provider) :: rest) hangs due) routing =
            (if due.getD (arrival moment.now delay) ≤ moment.now then
              .item provider (.scripted rest hangs none)
            else .pending (.scripted ((delay, provider) :: rest) hangs
              (some (due.getD (arrival moment.now delay)))), routing) := rfl
        rw [hpoll]
        by_cases hcame : due.getD (arrival moment.now delay) ≤ moment.now
        · rw [if_pos hcame]
          exact ⟨_, .took delay provider rest due hopen hcame, rfl⟩
        · rw [if_neg hcame]
          cases due with
          | none => exact ⟨_, .waits delay provider rest hopen, rfl⟩
          | some instant =>
              have hahead : moment.now < instant := Nat.lt_of_not_le hcame
              exact ⟨_, .waiting delay provider rest instant hopen hahead, if_pos rfl⟩

/-- How many steps a query may take over a script: one to begin to wait for each provider and one to take
it. -/
def stepsLeft (arrivals : List (Clock.Span × Provider)) (due : Option Clock.Instant) : Nat :=
  2 * arrivals.length + due.elim 1 fun _ => 0

/-- A query that goes on has fewer steps left. -/
theorem Turn.steps_left_lt {now : Clock.Instant} {next : Lookup}
    (h : Turn now lookup hangs arrivals due (some (.inl next))) :
    ∃ rest later, next.feed = .scripted rest hangs later ∧
      stepsLeft rest later < stepsLeft arrivals due := by
  cases h with
  | took delay provider rest _ hopen hcame =>
      refine ⟨rest, none, by rw [take_with_feed], ?_⟩
      simp only [stepsLeft, Option.elim_none, List.length_cons]
      omega
  | waits delay provider rest hopen =>
      refine ⟨_, _, rfl, ?_⟩
      simp only [stepsLeft, Option.elim_none, Option.elim_some]
      omega

/-- A query does not wait any more at the instant at which it goes on by itself. -/
theorem Turn.ne_none_of_wake {now : Clock.Instant} {result : Option (Lookup ⊕ List Sighting)}
    (h : Turn now lookup hangs arrivals due result) (hfeed : lookup.feed = .scripted arrivals hangs due)
    (hidle : arrivals = [] → due = none) (hwake : lookup.wake = some now) : result ≠ none := by
  rintro rfl
  rw [wake, hfeed, Feed.wake] at hwake
  have hmem := Clock.mem_of_mem_earlier (Option.mem_def.2 hwake)
  cases h with
  | hanging _ hopen hhangs =>
      obtain hbound | hnext := hmem
      · exact Nat.lt_irrefl _ (hopen.ahead _ hbound)
      · rw [hidle rfl] at hnext
        cases hnext
  | waiting delay provider rest instant hopen hahead =>
      obtain hbound | hnext := hmem
      · exact Nat.lt_irrefl _ (hopen.ahead _ hbound)
      · cases hnext
        exact Nat.lt_irrefl _ hahead

/-- A query that has enough or whose bound has come answers at once. -/
theorem outlook_of_over {now : Clock.Instant} (hover : ¬ lookup.IsOpen now)
    {events : List (Clock.Instant × Provider)} (hlater : ∀ event ∈ events, now ≤ event.1) :
    lookup.outlook hangs now events = (lookup.answer, some now) := by
  by_cases henough : lookup.limit ≤ lookup.found.length
  · exact outlook_of_enough lookup hangs now henough events
  · obtain ⟨bound, hbound, hpast⟩ : ∃ bound, lookup.scope.deadline = some bound ∧ bound ≤ now := by
      by_contra hnone
      refine hover ⟨Nat.lt_of_not_le henough, fun bound hbound => ?_⟩
      exact Nat.lt_of_not_le fun hpast => hnone ⟨bound, hbound, hpast⟩
    cases events with
    | nil => cases hangs <;> simp [outlook, henough, hbound, max_eq_left hpast, Clock.earlier]
    | cons event rest =>
        have hlate : ¬ event.1 < bound := Nat.not_lt.2 (hpast.trans (hlater event (.head _)))
        simp [outlook, henough, hbound, hlate, max_eq_left hpast]

/-- What a query comes to does not change while it waits. -/
theorem outlook_of_wait {now later : Clock.Instant} (hopen : lookup.IsOpen now)
    (hlater : now ≤ later) (hbound : ∀ bound ∈ lookup.scope.deadline, later ≤ bound)
    {events : List (Clock.Instant × Provider)} (hwaits : events = [] → hangs = true) :
    lookup.outlook hangs later events = lookup.outlook hangs now events := by
  have henough : ¬ lookup.limit ≤ lookup.found.length := Nat.not_le.2 hopen.lacks
  have hsame : lookup.scope.deadline.map (max later) = lookup.scope.deadline.map (max now) := by
    cases hdeadline : lookup.scope.deadline with
    | none => rfl
    | some bound =>
        have hle := hbound bound hdeadline
        rw [Option.map_some, Option.map_some, max_eq_right hle, max_eq_right (hlater.trans hle)]
  cases events with
  | nil => simp only [outlook, if_neg henough, hwaits rfl, if_true, hsame]
  | cons event rest => simp only [outlook, if_neg henough, hsame]

/-- A bound that is past has come at once. -/
theorem le_of_mem_map_max (now : Clock.Instant) (bound : Option Clock.Instant) :
    ∀ instant ∈ bound.map (max now), now ≤ instant := by
  intro instant hmem
  obtain ⟨deadline, -, rfl⟩ := Option.map_eq_some_iff.1 hmem
  exact le_max_left now deadline

/-- What a query comes to is not past. -/
theorem le_outlook (lookup : Lookup) (hangs : Bool) (now : Clock.Instant)
    (events : List (Clock.Instant × Provider))
    (hordered : (now :: events.map Prod.fst).Pairwise (· ≤ ·)) :
    ∀ instant ∈ (lookup.outlook hangs now events).2, now ≤ instant := by
  induction events generalizing now lookup with
  | nil =>
      by_cases henough : lookup.limit ≤ lookup.found.length
      · rw [outlook, if_pos henough]
        rintro instant ⟨⟩
        exact le_rfl
      · rw [outlook, if_neg henough]
        refine Clock.le_earlier_iff.2 ⟨?_, le_of_mem_map_max now _⟩
        cases hangs <;> simp
  | cons event rest ih =>
      obtain ⟨hlater, hrest⟩ := List.pairwise_cons.1 hordered
      rw [outlook]
      split_ifs
      · rintro instant ⟨⟩
        exact le_rfl
      · intro instant hmem
        exact (hlater event.1 (.head _)).trans (ih (lookup.take event.2) event.1 hrest instant hmem)
      · exact le_of_mem_map_max now _

/-- A query that is open at the end of its stream answers at once. -/
theorem outlook_of_end {now : Clock.Instant} (hopen : lookup.IsOpen now) :
    lookup.outlook false now [] = (lookup.answer, some now) := by
  rw [outlook, if_neg (Nat.not_le.2 hopen.lacks)]
  cases hdeadline : lookup.scope.deadline with
  | none => rfl
  | some bound => simp [Clock.earlier]

/-- A query that is open takes the provider that arrives now. -/
theorem outlook_of_take {now : Clock.Instant} (hopen : lookup.IsOpen now) (provider : Provider)
    (rest : List (Clock.Instant × Provider)) :
    lookup.outlook hangs now ((now, provider) :: rest) =
      (lookup.take provider).outlook hangs now rest := by
  have htimely : lookup.scope.deadline.all (now < ·) = true := by
    rw [Option.all_eq_true]
    exact fun bound hbound => decide_eq_true (hopen.ahead bound hbound)
  rw [outlook, if_neg (Nat.not_le.2 hopen.lacks), if_pos htimely]

end Turns

end Lookup

/-- A query of the routing table or its answer, with what is around it. -/
structure Inquiry (κ : Type) where
  moment : Moment
  tree : ScopeTree
  routing : Noted (Routing κ)
  call : Lookup ⊕ List Sighting

namespace Inquiry

section Outlooks

variable {κ : Type} {inquiry : Inquiry κ} {expected : List Sighting × Option Clock.Instant}
  {lookup : Lookup} {arrivals : List (Clock.Span × Provider)} {hangs : Bool}
  {due : Option Clock.Instant}

/-- Whether a query leads to an answer at an instant, or gave it just now. -/
inductive Leads (expected : List Sighting × Option Clock.Instant) : Inquiry κ → Prop where
  /-- The query goes on and its outlook is this answer. -/
  | searching (inquiry : Inquiry κ) (lookup : Lookup) (arrivals : List (Clock.Span × Provider))
      (hangs : Bool) (due : Option Clock.Instant) (hcall : inquiry.call = .inl lookup)
      (hfeed : lookup.feed = .scripted arrivals hangs due)
      (hrunning : lookup.scope.isCancelled inquiry.tree = false)
      (hdue : ∀ instant ∈ due, inquiry.moment.now ≤ instant) (hidle : arrivals = [] → due = none)
      (houtlook : lookup.outlook hangs inquiry.moment.now
        (lookup.feed.upcoming inquiry.moment.now) = expected) : Leads expected inquiry
  /-- The query gave the answer. -/
  | ended (inquiry : Inquiry κ) (found : List Sighting) (hcall : inquiry.call = .inr found)
      (hexpected : expected = (found, some inquiry.moment.now)) : Leads expected inquiry

/-- A query that leads to an answer and has not ended has that answer as its outlook. -/
theorem Leads.outlook (h : Leads expected inquiry)
    (hcall : inquiry.call = .inl lookup) (hfeed : lookup.feed = .scripted arrivals hangs due) :
    lookup.scope.isCancelled inquiry.tree = false ∧
      (∀ instant ∈ due, inquiry.moment.now ≤ instant) ∧ (arrivals = [] → due = none) ∧
      lookup.outlook hangs inquiry.moment.now
        ((Feed.scripted arrivals hangs due).upcoming inquiry.moment.now) = expected := by
  cases h with
  | searching own _ _ _ howncall hownfeed hrunning hdue hidle houtlook =>
      cases howncall.symm.trans hcall
      cases hownfeed.symm.trans hfeed
      exact ⟨hrunning, hdue, hidle, hfeed ▸ houtlook⟩
  | ended found hfound => cases hfound.symm.trans hcall

/-- A step of a query that goes on or answers leads to the same answer. -/
theorem Leads.go (h : Leads expected inquiry) (hcall : inquiry.call = .inl lookup)
    (hfeed : lookup.feed = .scripted arrivals hangs due) {call : Lookup ⊕ List Sighting}
    (hturn : Lookup.Turn inquiry.moment.now lookup hangs arrivals due (some call)) :
    Leads expected { inquiry with call := call } := by
  obtain ⟨hrunning, hdue, hidle, rfl⟩ := h.outlook hcall hfeed
  obtain ⟨hlater, -⟩ := List.pairwise_cons.1
    (Feed.upcoming_ordered arrivals hangs hdue)
  cases hturn with
  | finished _ _ hover =>
      exact .ended _ _ rfl (Lookup.outlook_of_over hover fun event hmem =>
        hlater event.1 (List.mem_map_of_mem hmem))
  | ended _ hopen hends =>
      subst hends
      exact .ended _ _ rfl (Lookup.outlook_of_end hopen)
  | took delay provider rest _ hopen hcame =>
      have hnow : due.getD (arrival inquiry.moment.now delay) = inquiry.moment.now :=
        le_antisymm hcame (hlater _ (.head _))
      rw [Lookup.take_with_feed]
      refine .searching _ _ rest hangs none rfl rfl ?_ (fun _ hnone => (by cases hnone))
        (fun _ => rfl) ?_
      · rwa [← Lookup.scope_take lookup provider] at hrunning
      · rw [Lookup.outlook_with_feed, Feed.upcoming_none, Feed.upcoming, hnow,
          Lookup.outlook_of_take hopen]
  | waits delay provider rest hopen =>
      refine .searching _ _ _ hangs _ rfl rfl hrunning ?_ (fun hnil => (by cases hnil))
        (Lookup.outlook_with_feed ..)
      rintro instant ⟨⟩
      exact le_arrival _ _

/-- A query that has ended gave the answer just now. -/
theorem Leads.answer_eq (h : Leads expected inquiry) {found : List Sighting}
    (hcall : inquiry.call = .inr found) :
    found = expected.1 ∧ expected.2 = some inquiry.moment.now := by
  cases h with
  | searching own _ _ _ howncall => cases howncall.symm.trans hcall
  | ended own howncall hexpected =>
      cases howncall.symm.trans hcall
      rw [hexpected]
      exact ⟨rfl, rfl⟩

/-- The instant of the answer is not past. -/
theorem Leads.le_end (h : Leads expected inquiry) :
    ∀ instant ∈ expected.2, inquiry.moment.now ≤ instant := by
  cases h with
  | searching own arrivals hangs due hcall hfeed hrunning hdue hidle houtlook =>
      rw [← houtlook, hfeed]
      exact own.le_outlook hangs _ _ (Feed.upcoming_ordered arrivals hangs hdue)
  | ended own hcall hexpected =>
      rw [hexpected]
      rintro instant ⟨⟩
      exact le_rfl

/-- Time that passes while a query waits leads to the same answer. -/
theorem Leads.pass (h : Leads expected inquiry) (hcall : inquiry.call = .inl lookup)
    (hfeed : lookup.feed = .scripted arrivals hangs due)
    (hturn : Lookup.Turn inquiry.moment.now lookup hangs arrivals due none) {later : Clock.Instant}
    (hlater : inquiry.moment.now ≤ later) (hwake : ∀ wake ∈ lookup.wake, later ≤ wake) :
    Leads expected { inquiry with moment := { inquiry.moment with now := later } } := by
  obtain ⟨hrunning, hdue, hidle, rfl⟩ := h.outlook hcall hfeed
  rw [Lookup.wake, hfeed] at hwake
  obtain ⟨hbound, hnext⟩ := Clock.le_earlier_iff.1 hwake
  refine .searching _ lookup arrivals hangs due hcall hfeed hrunning hnext hidle ?_
  rw [hfeed]
  cases hturn with
  | hanging _ hopen hhangs =>
      exact Lookup.outlook_of_wait hopen hlater hbound fun _ => hhangs
  | waiting delay provider rest instant hopen hahead =>
      simp only [Feed.upcoming, Option.getD_some]
      exact Lookup.outlook_of_wait hopen hlater hbound fun hnil => by cases hnil

/-- A query that waits and is to end goes on by itself at an instant that is still to come. -/
theorem Leads.exists_wake (h : Leads expected inquiry) (hends : expected.2 ≠ none)
    (hcall : inquiry.call = .inl lookup) (hfeed : lookup.feed = .scripted arrivals hangs due)
    (hturn : Lookup.Turn inquiry.moment.now lookup hangs arrivals due none) :
    ∃ later, lookup.wake = some later ∧ inquiry.moment.now ≤ later := by
  obtain ⟨-, hdue, hidle, rfl⟩ := h.outlook hcall hfeed
  have hahead : lookup.IsOpen inquiry.moment.now →
      ∀ wake ∈ lookup.wake, inquiry.moment.now ≤ wake := by
    intro hopen
    rw [Lookup.wake, hfeed, Clock.le_earlier_iff]
    exact ⟨fun bound hbound => (hopen.ahead bound hbound).le, hdue⟩
  have hwake : lookup.wake = Clock.earlier lookup.scope.deadline due := by
    rw [Lookup.wake, hfeed, Feed.wake]
  cases hturn with
  | hanging _ hopen hhangs =>
      rw [Feed.upcoming, Lookup.outlook, if_neg (Nat.not_le.2 hopen.lacks), hhangs] at hends
      cases hdeadline : lookup.scope.deadline with
      | none => simp [hdeadline, Clock.earlier] at hends
      | some bound =>
          rw [hdeadline, hidle rfl] at hwake
          exact ⟨bound, hwake, hahead hopen bound hwake⟩
  | waiting delay provider rest instant hopen hlate =>
      obtain ⟨later, hlater⟩ : ∃ later, lookup.wake = some later := by
        rw [hwake]
        cases lookup.scope.deadline <;> exact ⟨_, rfl⟩
      exact ⟨later, hlater, hahead hopen later hlater⟩

end Outlooks

section Paths

variable {κ : Type} [DecidableEq κ]

/-- The single steps of a query and of what goes on around it. -/
inductive Step : Inquiry κ → Inquiry κ → Prop where
  /-- The query goes on or answers. -/
  | go (inquiry : Inquiry κ) (lookup : Lookup) (routing : Noted (Routing κ))
      (call : Lookup ⊕ List Sighting) (hcall : inquiry.call = .inl lookup)
      (hstep : Lookup.step inquiry.tree inquiry.moment inquiry.routing lookup =
        some (routing, call)) :
      Step inquiry { inquiry with routing := routing, call := call }
  /-- Anything happens that does not cancel the scope of the query. -/
  | around (inquiry : Inquiry κ) (moment : Moment) (tree : ScopeTree)
      (routing : Noted (Routing κ)) (hnow : moment.now = inquiry.moment.now)
      (hrunning : ∀ lookup, inquiry.call = .inl lookup → lookup.scope.isCancelled tree = false) :
      Step inquiry { inquiry with moment := moment, tree := tree, routing := routing }
  /-- Time passes while the query waits, and not beyond the instant at which it goes on. -/
  | pass (inquiry : Inquiry κ) (lookup : Lookup) (later : Clock.Instant)
      (hcall : inquiry.call = .inl lookup) (hlater : inquiry.moment.now ≤ later)
      (hwait : Lookup.step inquiry.tree inquiry.moment inquiry.routing lookup = none)
      (hwake : ∀ wake ∈ lookup.wake, later ≤ wake) :
      Step inquiry { inquiry with moment := { inquiry.moment with now := later } }

/-- Steps one after another. -/
inductive Path : Inquiry κ → Inquiry κ → Prop where
  | refl (inquiry : Inquiry κ) : Path inquiry inquiry
  | step (inquiry middle after : Inquiry κ) (hpath : Path inquiry middle)
      (hstep : Step middle after) : Path inquiry after

variable {inquiry after : Inquiry κ} {expected : List Sighting × Option Clock.Instant}

/-- A step leads to the same answer. -/
theorem Leads.step (h : Leads expected inquiry) (hstep : Step inquiry after) :
    Leads expected after := by
  cases h with
  | searching lookup arrivals hangs due hcall hfeed hrunning hdue hidle houtlook =>
      have hleads := Leads.searching inquiry lookup arrivals hangs due hcall hfeed hrunning hdue hidle
        houtlook
      obtain ⟨result, hturn, hresult⟩ :=
        Lookup.turn_of_step hfeed hrunning inquiry.moment inquiry.routing
      cases hstep with
      | go own routing call howncall hstep =>
          cases howncall.symm.trans hcall
          obtain ⟨taken, rfl, htaken⟩ := Option.map_eq_some_iff.1 (hresult.symm.trans hstep)
          cases htaken
          exact hleads.go hcall hfeed hturn
      | around moment tree routing hnow hkept =>
          rw [← hnow] at hdue houtlook
          exact .searching _ lookup arrivals hangs due hcall hfeed (hkept lookup hcall) hdue hidle
            houtlook
      | pass own later howncall hlater hwait hwake =>
          cases howncall.symm.trans hcall
          obtain rfl := Option.map_eq_none_iff.1 (hresult.symm.trans hwait)
          exact hleads.pass hcall hfeed hturn hlater hwake
  | ended found hcall hexpected =>
      cases hstep with
      | go own routing call howncall hstep => cases howncall.symm.trans hcall
      | around moment tree routing hnow hkept =>
          exact .ended _ found hcall (hnow ▸ hexpected)
      | pass own later howncall hlater hwait hwake => cases howncall.symm.trans hcall

/-- Steps lead to the same answer. -/
theorem Leads.path (h : Leads expected inquiry) (hpath : Path inquiry after) :
    Leads expected after := by
  induction hpath with
  | refl => exact h
  | step middle after _ hstep ih => exact ih.step hstep

/-- Whether a query may come to an answer. -/
def Answers (inquiry : Inquiry κ) : Prop :=
  ∃ after found, Path inquiry after ∧ after.call = .inr found

/-- Steps may be followed by others. -/
theorem Path.append {middle : Inquiry κ} (hpath : Path inquiry middle) (hrest : Path middle after) :
    Path inquiry after := by
  induction hrest with
  | refl => exact hpath
  | step middle after _ hlast ih => exact .step _ _ _ ih hlast

/-- A query that leads to an answer goes on, now or when it has waited. -/
theorem Leads.goes (h : Leads expected inquiry) (hends : expected.2 ≠ none) {lookup : Lookup}
    {arrivals : List (Clock.Span × Provider)} {hangs : Bool} {due : Option Clock.Instant}
    (hcall : inquiry.call = .inl lookup) (hfeed : lookup.feed = .scripted arrivals hangs due) :
    ∃ middle call, Path inquiry middle ∧ middle.call = .inl lookup ∧
      Lookup.Turn middle.moment.now lookup hangs arrivals due (some call) ∧
      Step middle { middle with call := call } := by
  obtain ⟨hrunning, -, hidle, -⟩ := h.outlook hcall hfeed
  have hstep : ∀ moment, ∃ result, Lookup.Turn moment.now lookup hangs arrivals due result ∧
      Lookup.step inquiry.tree moment inquiry.routing lookup =
        result.map (Prod.mk inquiry.routing) := fun moment =>
    Lookup.turn_of_step hfeed hrunning moment inquiry.routing
  obtain ⟨result, hturn, hresult⟩ := hstep inquiry.moment
  cases result with
  | some call => exact ⟨inquiry, call, .refl inquiry, hcall, hturn, .go _ _ _ _ hcall hresult⟩
  | none =>
      obtain ⟨later, hwake, hlater⟩ := h.exists_wake hends hcall hfeed hturn
      have hpass : Step inquiry { inquiry with moment := { inquiry.moment with now := later } } :=
        .pass inquiry lookup later hcall hlater hresult fun wake hmem => by
          rw [hwake] at hmem
          cases hmem
          exact le_rfl
      obtain ⟨after, hnext, hafter⟩ := hstep { inquiry.moment with now := later }
      obtain ⟨call, rfl⟩ := Option.ne_none_iff_exists'.1 (hnext.ne_none_of_wake hfeed hidle hwake)
      exact ⟨_, call, .step _ _ _ (.refl inquiry) hpass, hcall, hnext, .go _ _ _ _ hcall hafter⟩

/-- A query that leads to an answer may come to it. -/
theorem Leads.answers (h : Leads expected inquiry) (hends : expected.2 ≠ none) :
    inquiry.Answers := by
  cases h with
  | ended found hcall hexpected => exact ⟨inquiry, found, .refl inquiry, hcall⟩
  | searching lookup arrivals hangs due hcall hfeed hrunning hdue hidle houtlook =>
      have hleads := Leads.searching inquiry lookup arrivals hangs due hcall hfeed hrunning hdue hidle
        houtlook
      clear hrunning hdue hidle houtlook
      induction hleft : Lookup.stepsLeft arrivals due using Nat.strong_induction_on
        generalizing inquiry lookup arrivals due with
      | h left ih =>
          obtain ⟨middle, call, hpath, hmiddle, hturn, hstep⟩ := hleads.goes hends hcall hfeed
          have hafter := (hleads.path hpath).step hstep
          cases call with
          | inr found =>
              exact ⟨_, found, .step _ _ _ hpath hstep, rfl⟩
          | inl next =>
              obtain ⟨rest, later, hnext, hless⟩ := hturn.steps_left_lt
              obtain ⟨final, found, hfinal, hfound⟩ :=
                ih _ (hleft ▸ hless) next rest later rfl hnext hafter rfl
              exact ⟨final, found, (Path.step _ _ _ hpath hstep).append hfinal, hfound⟩

end Paths

end Inquiry

/-- A query that has met nobody counts all reports of other nodes in time. -/
theorem Lookup.new_reports_of_fresh {lookup : Lookup} (hfresh : lookup.found = [])
    (events : List (Clock.Instant × Provider)) :
    lookup.newReports events = firstReports lookup.localId lookup.scope.deadline events := by
  have hcounts : lookup.counts = fun report : Clock.Instant × PeerInfo =>
      lookup.scope.deadline.all (report.1 < ·) && report.2.id ≠ lookup.localId := by
    funext report
    simp [counts, hfresh]
  rw [newReports, hcounts, firstReports]

/-- Let a query begin under a scope that is not cancelled while it lasts, with a routing table that
answers with any stream: providers and errors that come at any instants, and then an end or a hang. (A
stream that ends later than its last provider comes is one with an error as the last item.) The bound of
the query is the deadline of its scope or the one that the mechanism puts on it, whichever comes first.
If it answers, it answers with the first reports of distinct other nodes before that bound, in order
and as many as it may, just when the last of these comes, or the stream ends, or the bound comes. Time
does not pass that instant before, and the query may come to its answer from whatever point it is
at. -/
theorem Service.find_is_timely {κ : Type} [DecidableEq κ] (service : Service) {scope : Scope}
    {tree : ScopeTree} (hscope : scope.isCancelled tree = false)
    (hfresh : tree.issued :: scope.token ∉ tree.cancelled) (moment : Moment)
    (routing : Noted (Routing κ)) (limit : Nat) (arrivals : List (Clock.Span × Provider))
    (hangs : Bool) :
    let bound := Clock.earlier scope.deadline (Clock.after? moment.now service.queryTimeout)
    let events := schedule moment.now arrivals
    let met := firstReports service.advertisement.info.id bound events
    let finish := ending moment.now limit bound events hangs met
    let begun := service.find routing.state tree moment.now scope limit
    ∀ after, Inquiry.Path ⟨moment, begun.2, routing,
        .inl { begun.1 with feed := .scripted arrivals hangs none }⟩ after →
      (∀ found, after.call = .inr found →
        found = (met.take limit).map (fun report => .ofInfo report.2) ∧
          finish = some after.moment.now) ∧
      (∀ instant ∈ finish, after.moment.now ≤ instant) ∧
      (finish ≠ none → ∃ final found, after.Path final ∧ final.call = .inr found) := by
  intro bound events met finish begun after hpath
  have hrunning : begun.1.scope.isCancelled begun.2 = false :=
    ScopeTree.not_cancelled_cons hfresh hscope
  have hexpected : ({ begun.1 with feed := .scripted arrivals hangs none } : Lookup).outlook hangs
      moment.now events = ((met.take limit).map fun report => .ofInfo report.2, finish) := by
    rw [Lookup.outlook_eq hangs _ _ _ (schedule_ordered moment.now arrivals),
      Lookup.new_reports_of_fresh rfl]
    exact Prod.ext (List.map_map) rfl
  have hleads := (Inquiry.Leads.searching
    ⟨moment, begun.2, routing, .inl { begun.1 with feed := .scripted arrivals hangs none }⟩ _ arrivals
    hangs none rfl rfl hrunning nofun (fun _ => rfl)
    ((congrArg _ (Feed.upcoming_none moment.now arrivals hangs)).trans hexpected)).path hpath
  exact ⟨fun found hfound => hleads.answer_eq hfound, hleads.le_end, hleads.answers⟩

namespace Inquiry

/-- The identity of a node. -/
def ownId : PeerId :=
  ⟨23 :: List.replicate 31 0, rfl, by decide +kernel⟩

/-- A peer. -/
def early : PeerInfo :=
  ⟨⟨24 :: List.replicate 31 0, rfl, by decide +kernel⟩, ∅⟩

/-- Another peer. -/
def late : PeerInfo :=
  ⟨⟨25 :: List.replicate 31 0, rfl, by decide +kernel⟩, ∅⟩

/-- The mechanism of the node. -/
def service : Service where
  advertisement := { label := "realm", info := ⟨ownId, ∅⟩ }
  shutdown := [0]

/-- A stream of the node itself, a peer, an error and the peer again with an address, and of another peer
that comes after seven milliseconds. -/
def stream : List (Clock.Span × Provider) :=
  [(0, .ok ⟨ownId, ∅⟩), (3, .ok early), (1, .error (.dht "bad entry")),
    (2, .ok (early.withAddresses [.v4 ⟨10, 0, 0, 5⟩ 1])), (1, .ok late)]

/-- A query for two peers, under a scope that ends just when the other peer comes, comes to answer with the
first report of the first peer at that time. -/
theorem find_is_timely_tie : Scope.isCancelled ⟨[1], some 7⟩ { issued := 2 } = false ∧
    [2, 1] ∉ ({ issued := 2 } : ScopeTree).cancelled ∧
    ∃ (final : Inquiry Nat), Inquiry.Path ⟨{ now := 0 }, { issued := 3 }, ⟨.scripted {}, []⟩,
        .inl { localId := ownId, scope := ⟨[2, 1], some 7⟩, limit := 2, feed := .scripted stream true none }⟩
      final ∧ final.call = .inr [.ofInfo early] ∧ final.moment.now = 7 := by
  have hscope : Scope.isCancelled ⟨[1], some 7⟩ { issued := 2 } = false := rfl
  have hfresh : [2, 1] ∉ ({ issued := 2 } : ScopeTree).cancelled := List.not_mem_nil
  have hbound : Clock.earlier (some 7) (Clock.after? 0 service.queryTimeout) = some 7 := by decide
  have hmet : firstReports service.advertisement.info.id (some 7) (schedule 0 stream) =
      [(3, early)] := by
    decide +kernel
  have hfinish : ending 0 2 (some 7) (schedule 0 stream) true [(3, early)] = some 7 := rfl
  have htimely := service.find_is_timely hscope hfresh { now := 0 }
    (⟨.scripted {}, []⟩ : Noted (Routing Nat)) 2 stream true
  simp only [hbound, hmet, hfinish] at htimely
  obtain ⟨final, found, hpath, hfound⟩ := (htimely _ (.refl _)).2.2 nofun
  obtain ⟨hanswer, hnow⟩ := (htimely final hpath).1 found hfound
  exact ⟨hscope, hfresh, final, hpath, hfound.trans (congrArg _ hanswer), (Option.some.inj hnow).symm⟩

end Inquiry

end PeerFinder.Rendezvous
