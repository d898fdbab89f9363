import Mathlib.Logic.Relation
import Mathlib.Data.Prod.Lex
import PeerFinder.Proofs.Environment.Turns

/-!
# Queries that find somebody

A query that has found somebody keeps the turn that it has, and answers what it has found. So it finds
somebody whatever happens around it (`Search.FindsSome`) exactly if its first step does
(`Search.finds_some_of_collected`), provided that its scope has a deadline. By itself it goes on only
finitely often (`Search.rank_lt_of_step`), and in between it waits until an instant no later than the
deadline, at which it does go on.
-/

namespace PeerFinder

open Rendezvous

namespace Rendezvous

variable {κ : Type} [DecidableEq κ] {moment : Moment} {feed next : Feed} {provider : Provider}
  {routing after : Noted (Routing κ)}

/-- How far a feed has come: the rounds that are left, and then what is left of the present one. -/
def Feed.rank : Feed → Nat ×ₗ Nat
  | .scripted arrivals _ due => toLex (0, 2 * arrivals.length + due.elim 1 fun _ => 0)
  | .slots _ ready rounds => toLex (rounds, ready.length)

/-- A feed that waits for an arrival has one. -/
def Feed.IsSound : Feed → Prop
  | .scripted arrivals _ due => arrivals = [] → due = none
  | .slots .. => True

/-- A provider that is taken from slots brings the feed on. -/
theorem Feed.rank_poll_slots {label : List UInt8} {ready : List Provider} {rounds : Nat}
    {table read : Noted (SlotTable κ)}
    (hpoll : pollSlots moment label ready rounds table = (.item provider next, read)) :
    next.rank < (slots label ready rounds).rank := by
  induction rounds generalizing ready table with
  | zero =>
      cases ready with
      | nil => cases hpoll
      | cons first ready =>
          cases hpoll
          exact Prod.Lex.toLex_lt_toLex.2 (.inr ⟨rfl, Nat.lt_succ_self _⟩)
  | succ rounds ih =>
      cases ready with
      | cons first ready =>
          cases hpoll
          exact Prod.Lex.toLex_lt_toLex.2 (.inr ⟨rfl, Nat.lt_succ_self _⟩)
      | nil =>
          rw [pollSlots] at hpoll
          have hless : ∀ ready, (slots label ready rounds).rank < (slots label [] (rounds + 1)).rank :=
            fun ready => Prod.Lex.toLex_lt_toLex.2 (.inl (Nat.lt_succ_self _))
          dsimp only at hpoll
          split at hpoll
          · cases hpoll
            exact hless _
          · exact (ih hpoll).trans (hless [])

/-- Slots never let a query wait. -/
theorem Feed.poll_slots_ne_pending (label : List UInt8) (ready : List Provider) (rounds : Nat)
    (table : Noted (SlotTable κ)) :
    (pollSlots moment label ready rounds table).1 ≠ .pending next := by
  induction rounds generalizing ready table with
  | zero => cases ready <;> nofun
  | succ rounds ih =>
      cases ready with
      | cons first ready => nofun
      | nil =>
          rw [pollSlots]
          dsimp only
          split
          · nofun
          · exact ih _ _

/-- A provider that is taken from slots leaves slots. -/
theorem Feed.is_sound_poll_slots {label : List UInt8} {ready : List Provider} {rounds : Nat}
    {table : Noted (SlotTable κ)}
    (hpoll : (pollSlots moment label ready rounds table).1 = .item provider next) :
    next.IsSound := by
  induction rounds generalizing ready table with
  | zero =>
      cases ready <;> cases hpoll
      trivial
  | succ rounds ih =>
      cases ready with
      | cons first ready =>
          cases hpoll
          trivial
      | nil =>
          rw [pollSlots] at hpoll
          dsimp only at hpoll
          split at hpoll
          · cases hpoll
            trivial
          · exact ih hpoll

/-- A provider that is taken brings a feed on. -/
theorem Routing.rank_of_item (hpoll : poll moment feed routing = (.item provider next, after)) :
    next.rank < feed.rank ∧ next.IsSound := by
  cases feed with
  | scripted arrivals hangs due =>
      have hscript : Feed.pollScript moment.now arrivals hangs due = .item provider next :=
        (Prod.mk.inj hpoll).1
      cases arrivals with
      | nil =>
          simp only [Feed.pollScript] at hscript
          split_ifs at hscript
      | cons entry rest =>
          simp only [Feed.pollScript] at hscript
          generalize due.getD _ = arrival at hscript
          split_ifs at hscript
          cases hscript
          refine ⟨Prod.Lex.toLex_lt_toLex.2 (.inr ⟨rfl, ?_⟩), fun _ => rfl⟩
          simp only [List.length_cons, Option.elim_none]
          omega
  | slots label ready rounds =>
      obtain ⟨table | table, journal⟩ := routing
      · cases hpoll
      · have hslots := (Prod.mk.inj hpoll).1
        exact ⟨Feed.rank_poll_slots (Prod.ext hslots rfl), Feed.is_sound_poll_slots hslots⟩

/-- A feed that lets a query wait has come on, or waits already and for something that is ahead. -/
theorem Routing.rank_of_pending (hpoll : poll moment feed routing = (.pending next, after))
    (hsound : feed.IsSound) : next.IsSound ∧
      if next.wake = feed.wake then ∀ instant ∈ feed.wake, moment.now < instant
      else next.rank < feed.rank := by
  cases feed with
  | scripted arrivals hangs due =>
      have hscript : Feed.pollScript moment.now arrivals hangs due = .pending next :=
        (Prod.mk.inj hpoll).1
      cases arrivals with
      | nil =>
          simp only [Feed.pollScript] at hscript
          split_ifs at hscript
          cases hscript
          have hidle : due = none := hsound rfl
          subst hidle
          exact ⟨hsound, (if_pos rfl).symm ▸ nofun⟩
      | cons entry rest =>
          simp only [Feed.pollScript] at hscript
          cases due with
          | none =>
              generalize Option.getD none _ = arrival at hscript
              split_ifs at hscript
              cases hscript
              rw [if_neg nofun]
              exact ⟨nofun, Prod.Lex.toLex_lt_toLex.2 (.inr ⟨rfl, Nat.lt_succ_self _⟩)⟩
          | some due =>
              rw [Option.getD_some] at hscript
              split_ifs at hscript with hcame
              cases hscript
              rw [if_pos rfl]
              refine ⟨nofun, fun instant hinstant => ?_⟩
              cases hinstant
              exact Nat.lt_of_not_le hcame
  | slots label ready rounds =>
      obtain ⟨table | table, journal⟩ := routing
      · cases hpoll
      · exact absurd (Prod.mk.inj hpoll).1 (Feed.poll_slots_ne_pending _ _ _ _)

namespace Lookup

variable {tree : ScopeTree} {lookup found : Lookup}

/-- Taking a provider leaves the feed alone. -/
@[simp]
theorem feed_take (lookup : Lookup) (provider : Provider) : (lookup.take provider).feed = lookup.feed := by
  unfold take
  split
  · rfl
  · split_ifs <;> rfl

/-- Whom a query has found stays found when it takes a provider. -/
theorem prefix_take (lookup : Lookup) (provider : Provider) :
    lookup.found <+: (lookup.take provider).found := by
  unfold take
  split
  · exact List.prefix_rfl
  · split_ifs
    · exact List.prefix_rfl
    · exact List.prefix_append _ _

/-- A lookup that goes on keeps whom it has found, and its feed has come on. -/
theorem step_go_rank (hstep : step tree moment routing lookup = some (after, .inl found))
    (hsound : lookup.feed.IsSound) :
    lookup.found <+: found.found ∧ found.feed.rank < lookup.feed.rank ∧ found.feed.IsSound := by
  unfold step at hstep
  split_ifs at hstep
  · cases hstep
  split at hstep
  · rename_i provider left read hpoll
    cases hstep
    obtain ⟨hrank, hnext⟩ := Routing.rank_of_item hpoll
    rw [feed_take]
    exact ⟨prefix_take { lookup with feed := left } provider, hrank, hnext⟩
  · cases hstep
  · rename_i hpoll
    split_ifs at hstep with hwake
    cases hstep
    obtain ⟨hnext, hrank⟩ := Routing.rank_of_pending hpoll hsound
    rw [if_neg fun hsame => hwake hsame.symm] at hrank
    exact ⟨List.prefix_rfl, hrank, hnext⟩

/-- A lookup that waits does so no longer than it says. -/
theorem lt_wake_of_step (hstep : step tree moment routing lookup = none)
    (hsound : lookup.feed.IsSound) : ∀ wake ∈ lookup.wake, moment.now < wake := by
  unfold step at hstep
  split_ifs at hstep with hover
  have hdeadline : ∀ deadline ∈ lookup.scope.deadline, moment.now < deadline := by
    simp only [Scope.isDone, Bool.or_eq_true, decide_eq_true_eq, Option.any_eq_true, not_or,
      not_exists, not_and, Nat.not_le] at hover
    exact hover.2.2
  split at hstep
  · cases hstep
  · cases hstep
  · rename_i hpoll
    split_ifs at hstep with hwake
    obtain ⟨-, hahead⟩ := Routing.rank_of_pending hpoll hsound
    rw [if_pos hwake.symm] at hahead
    intro wake hmem
    obtain hmem | hmem := Clock.mem_of_mem_earlier hmem
    · exact hdeadline wake hmem
    · exact hahead wake hmem

end Lookup

end Rendezvous

namespace LocalNet

variable {tree : ScopeTree} {now : Clock.Instant} {queue left : Queue} {drain next : Drain}

/-- A drain that goes on has taken the first of the peers that wait, and keeps whom it has found. -/
theorem Drain.step_go_rank (hstep : step tree now queue drain = some (left, .inl next)) :
    left.heard.length < queue.heard.length ∧ drain.found <+: next.found := by
  unfold step at hstep
  split_ifs at hstep
  · cases hstep
  · split at hstep
    · cases hstep
    · rename_i hheard
      cases hstep
      rw [hheard]
      refine ⟨Nat.lt_succ_self _, ?_⟩
      unfold take
      split_ifs
      · exact List.prefix_rfl
      · exact List.prefix_append _ _

end LocalNet

namespace Search

variable {env after : Environment} {search next : Search}

/-- How far a query has come: the rounds of its feed that are left, and then the peers that wait for it
or are left of the present round. -/
def rank (env : Environment) : Search → Nat ×ₗ Nat
  | .drain place _ => toLex (0, ((env.localNet? place).map (·.queue.heard.length)).getD 0)
  | .lookup call => call.feed.rank
  | .answered _ | .scripted .. => toLex (0, 0)

/-- Whether the feed of a query, if it has one, waits for arrivals only. -/
def IsSound : Search → Prop
  | .lookup call => call.feed.IsSound
  | .answered _ | .scripted .. | .drain .. => True

/-- A query that goes on has come on, and keeps whom it has found. -/
theorem step_go_rank (hstep : search.step env = some (after, .inl next)) (hsound : search.IsSound) :
    next.rank after < search.rank env ∧ next.IsSound ∧
      ∀ found ∈ search.collected?, ∃ more ∈ next.collected?, found <+: more := by
  cases search with
  | answered result => cases hstep
  | scripted due result =>
      simp only [step] at hstep
      split_ifs at hstep
      cases hstep
  | drain place call =>
      simp only [step] at hstep
      cases hnet : env.localNet? place with
      | none =>
          rw [hnet] at hstep
          cases hstep
      | some service =>
          simp only [hnet, Option.map_eq_some_iff, Prod.mk.injEq] at hstep
          obtain ⟨⟨queue, next | found⟩, hdrain, rfl, heq⟩ := hstep
          · cases heq
            obtain ⟨hlength, hfound⟩ := LocalNet.Drain.step_go_rank hdrain
            have hlt := (List.getElem?_eq_some_iff.1 (Environment.mechanism_of_local_net hnet)).1
            have hleft : (env.setMechanism place (.localNet { service with queue })).localNet? place =
                some { service with queue } := by
              simp [Environment.localNet?, Environment.setMechanism, hlt]
            refine ⟨Prod.Lex.toLex_lt_toLex.2 (.inr ⟨rfl, ?_⟩), trivial, ?_⟩
            · rw [hleft, hnet]
              exact hlength
            · rintro _ ⟨⟩
              exact ⟨_, rfl, hfound⟩
          · cases heq
  | lookup call =>
      simp only [step, Option.map_eq_some_iff, Prod.mk.injEq] at hstep
      obtain ⟨⟨routing, next | found⟩, hlookup, rfl, heq⟩ := hstep
      · cases heq
        obtain ⟨hfound, hrank, hnext⟩ := Lookup.step_go_rank hlookup hsound
        refine ⟨hrank, hnext, ?_⟩
        rintro _ ⟨⟩
        exact ⟨_, rfl, hfound.map _⟩
      · cases heq

/-- A query that has its turn waits for instants only that are ahead. -/
theorem lt_wake_of_step (hstep : search.step env = none) (hturn : search.hasTurn env = true)
    (hsound : search.IsSound) : ∀ wake ∈ search.wake env, env.now < wake := by
  cases search with
  | answered result => nofun
  | scripted due result =>
      rintro _ ⟨⟩
      simp only [step] at hstep
      split_ifs at hstep with hdue
      exact Nat.lt_of_not_le hdue
  | drain place call =>
      have hdone := (Bool.or_eq_false_iff.1 (not_done_of_step hturn hstep rfl).1).2
      intro instant hinstant
      obtain ⟨service, -, hwake⟩ := Option.bind_eq_some_iff.1 hinstant
      unfold LocalNet.Drain.wake at hwake
      split_ifs at hwake
      rw [hwake] at hdone
      exact Nat.lt_of_not_le (of_decide_eq_false hdone)
  | lookup call =>
      simp only [step, Option.map_eq_none_iff] at hstep
      exact Lookup.lt_wake_of_step hstep hsound

/-- A query that waits under a scope with a deadline, and has its turn, waits for an instant. -/
theorem exists_wake (hturn : search.hasTurn env = true) (hstep : search.step env = none)
    {scope : Scope} (hscope : search.scope? = some scope) {deadline : Clock.Instant}
    (hdeadline : scope.deadline = some deadline) : ∃ wake, search.wake env = some wake := by
  cases search with
  | answered | scripted => cases hscope
  | drain place call =>
      cases hscope
      simp only [step] at hstep
      cases hnet : env.localNet? place with
      | none =>
          rw [hnet] at hstep
          cases hstep
      | some service =>
          have hfirst := is_first_of_has_turn hturn hnet
          exact ⟨deadline, by rw [wake, hnet, Option.bind_some, LocalNet.Drain.wake, if_pos hfirst,
            hdeadline]⟩
  | lookup call =>
      cases hscope
      rw [wake, Lookup.wake, hdeadline]
      cases call.feed.wake with
      | none => exact ⟨deadline, rfl⟩
      | some instant => exact ⟨_, rfl⟩

/-- A query or its answer, in its environment. -/
structure Scene where
  env : Environment
  call : Search ⊕ Except Error (List Sighting)

namespace Scene

/-- What a query does by itself: it goes on or answers, or it waits while time passes, and not beyond the
instant at which it goes on. -/
inductive Own : Scene → Scene → Prop where
  | go (env after : Environment) (search : Search)
      (call : Search ⊕ Except Error (List Sighting))
      (hstep : search.step env = some (after, call)) : Own ⟨env, .inl search⟩ ⟨after, call⟩
  | pass (env : Environment) (search : Search) (later : Clock.Instant) (hlater : env.now ≤ later)
      (hwait : search.step env = none) (hwake : ∀ wake ∈ search.wake env, later ≤ wake) :
      Own ⟨env, .inl search⟩ ⟨{ env with now := later }, .inl search⟩

/-- The single steps of a query and of what goes on around it. -/
inductive Step : Scene → Scene → Prop where
  | own (scene after : Scene) (hown : Own scene after) : Step scene after
  /-- Anything happens at one instant, but that the query loses its turn. -/
  | around (scene : Scene) (after : Environment) (hnow : after.now = scene.env.now)
      (hturn : ∀ search, scene.call = .inl search → search.hasTurn scene.env = true →
        search.hasTurn after = true) : Step scene { scene with env := after }

/-- Whether a query is sure to find somebody: whatever happens, it answers with somebody if it answers,
and it comes to its answer by itself from wherever it is. -/
def FindsSome (scene : Scene) : Prop :=
  ∀ after, Relation.ReflTransGen Step scene after →
    (∀ result, after.call = .inr result → ∃ found, result = .ok found ∧ found ≠ []) ∧
    ∃ final result, Relation.ReflTransGen Own after final ∧ final.call = .inr result

/-- A query that has found somebody and has its turn under a scope with a deadline, or its answer. -/
inductive IsSure : Scene → Prop where
  | searching (env : Environment) (search : Search) (scope : Scope) (deadline : Clock.Instant)
      (found : List Sighting) (hturn : search.hasTurn env = true) (hsound : search.IsSound)
      (hscope : search.scope? = some scope) (hdeadline : scope.deadline = some deadline)
      (hnow : env.now ≤ deadline) (hfound : search.collected? = some found) (hsome : found ≠ []) :
      IsSure ⟨env, .inl search⟩
  | answered (env : Environment) (found : List Sighting) (hsome : found ≠ []) :
      IsSure ⟨env, .inr (.ok found)⟩

variable {scene after : Scene}

/-- A query that is sure to find somebody stays so by itself. -/
theorem IsSure.own (h : scene.IsSure) (hown : scene.Own after) : after.IsSure := by
  cases h with
  | answered => cases hown
  | searching env search scope deadline found hturn hsound hscope hdeadline hnow hfound hsome =>
      cases hown with
      | go _ after _ call hstep =>
          cases call with
          | inl next =>
              obtain ⟨hallows, hline, hsame⟩ := step_go hstep
              obtain ⟨-, hnext, hmore⟩ := step_go_rank hstep hsound
              obtain ⟨more, hcollected, hprefix⟩ := hmore found hfound
              refine .searching after next scope deadline more ?_ hnext (hsame.trans hscope) hdeadline
                (hallows.now ▸ hnow) hcollected fun hnil => hsome ?_
              · simpa only [hasTurn, hline, hallows.turns] using hturn
              · rw [hnil] at hprefix
                exact List.prefix_nil.1 hprefix
          | inr result =>
              rw [answer_of_step hstep hfound]
              exact .answered after found hsome
      | pass _ _ later hlater hwait hwake =>
          have hahead := (not_done_of_step hturn hwait hscope).2 later hwake deadline hdeadline
          exact .searching _ search scope deadline found hturn hsound hscope hdeadline hahead hfound
            hsome

/-- A query that is sure to find somebody stays so whatever happens. -/
theorem IsSure.step (h : scene.IsSure) (hstep : scene.Step after) : after.IsSure := by
  cases hstep with
  | own _ hown => exact h.own hown
  | around env hnow hturn =>
      cases h with
      | answered _ found hsome => exact .answered env found hsome
      | searching _ search scope deadline found hold hsound hscope hdeadline hbefore hfound hsome =>
          exact .searching env search scope deadline found (hturn search rfl hold) hsound hscope
            hdeadline (hnow ▸ hbefore) hfound hsome

/-- A query that is sure to find somebody stays so by itself, step after step. -/
theorem IsSure.path (h : scene.IsSure) (hpath : Relation.ReflTransGen Own scene after) :
    after.IsSure := by
  induction hpath with
  | refl => exact h
  | tail _ hown ih => exact ih.own hown

/-- The feed of a query that is sure to find somebody waits for arrivals only. -/
theorem IsSure.is_sound {env : Environment} {search : Search} (h : IsSure ⟨env, .inl search⟩) :
    search.IsSound := by
  cases h
  assumption

/-- A query that is sure to find somebody goes on, now or when it has waited. -/
theorem IsSure.goes {env : Environment} {search : Search} (h : IsSure ⟨env, .inl search⟩) :
    ∃ later after call,
      Relation.ReflTransGen Own ⟨env, .inl search⟩ ⟨{ env with now := later }, .inl search⟩ ∧
        search.step { env with now := later } = some (after, call) := by
  cases h with
  | searching _ _ scope deadline found hturn hsound hscope hdeadline hnow hfound hsome =>
      cases hstep : search.step env with
      | some next => exact ⟨env.now, next.1, next.2, .refl, hstep⟩
      | none =>
          obtain ⟨wake, hwake⟩ := exists_wake hturn hstep hscope hdeadline
          have hahead := lt_wake_of_step hstep hturn hsound wake hwake
          have hpass : Own ⟨env, .inl search⟩ ⟨{ env with now := wake }, .inl search⟩ :=
            .pass env search wake (Nat.le_of_lt hahead) hstep fun other hother =>
              Nat.le_of_eq (Option.some.inj (hwake.symm.trans hother))
          obtain ⟨next, hnext⟩ : ∃ next, search.step { env with now := wake } = some next := by
            refine Option.ne_none_iff_exists'.1 fun hnone => ?_
            exact Nat.lt_irrefl wake (lt_wake_of_step hnone hturn hsound wake hwake)
          exact ⟨wake, next.1, next.2, .single hpass, hnext⟩

/-- A query that is sure to find somebody comes to its answer by itself. -/
theorem IsSure.answers (h : scene.IsSure) :
    ∃ final result, Relation.ReflTransGen Own scene final ∧ final.call = .inr result := by
  obtain ⟨env, search | result⟩ := scene
  · -- It waits at most once between two of its steps, each of which lowers its rank.
    induction hrank : search.rank env using WellFoundedLT.induction generalizing env search with
    | ind rank ih =>
        obtain ⟨later, after, call, hwait, hstep⟩ := h.goes
        have hpath := hwait.tail (.go _ after search call hstep)
        cases call with
        | inr result => exact ⟨_, result, hpath, rfl⟩
        | inl next =>
            obtain ⟨hless, -⟩ := step_go_rank hstep h.is_sound
            have hnext : IsSure ⟨after, .inl next⟩ := h.path hpath
            obtain ⟨final, result, hrest, hresult⟩ := ih _ (hrank ▸ hless) after next hnext rfl
            exact ⟨final, result, hpath.trans hrest, hresult⟩
  · exact ⟨_, result, .refl, rfl⟩

/-- A query that is sure to find somebody finds somebody. -/
theorem IsSure.finds_some (h : scene.IsSure) : scene.FindsSome := by
  intro after hpath
  have hafter : after.IsSure := by
    induction hpath with
    | refl => exact h
    | tail _ hstep ih => exact ih.step hstep
  refine ⟨fun result hresult => ?_, hafter.answers⟩
  cases hafter with
  | searching => cases hresult
  | answered env found hsome =>
      cases hresult
      exact ⟨found, rfl, hsome⟩

end Scene

end Search

end PeerFinder
