import Mathlib.Data.List.Perm.Basic
import PeerFinder.Proofs.Coordinator.Interleaving
import PeerFinder.Proofs.Environment.Surroundings

/-!
# Queries after a stop

Once the scope of a coordinator is cancelled, a query ends as soon as it goes on, with one exception:
a query that has looked whether it was stopped and is about to take a peer in still does so.
`Node.quiet_after_cancel` says that nothing else is taken in by queries, in whatever order the work
goes on, and that a sweep begins queries only if its wait ends by a tick that is due.
-/

namespace PeerFinder.Coordinator

/-- Starting a mechanism cancels nothing. -/
theorem start_tree (env : Environment) (place : Nat) (token : Token) :
    (env.start place token).2.tree = env.tree := by
  unfold Environment.start
  split
  · rfl
  · split <;> rfl
  · rfl
  · rfl
  · rfl

/-- Giving a search up cancels nothing. -/
theorem abandon_tree (search : Search) (env : Environment) :
    (search.abandon env).tree = env.tree := by
  unfold Search.abandon
  split
  · rfl
  · rfl
  · rfl
  · split <;> rfl

/-- A start keeps the scope, the errands and what was cancelled. -/
theorem startup_step_keeps {call : Startup} {env after : Environment}
    {coordinator moved : Coordinator} {next : Startup ⊕ Except Error Unit}
    (hstep : call.step (env, coordinator) = some ((after, moved), next)) :
    after.tree = env.tree ∧ moved.scope = coordinator.scope ∧
      moved.errands = coordinator.errands := by
  unfold Startup.step at hstep
  cases call with
  | entering =>
      dsimp only at hstep
      split at hstep
      · cases hstep
      · split at hstep
        · cases hstep
          exact ⟨rfl, rfl, rfl⟩
        · split at hstep <;> cases hstep <;> exact ⟨rfl, rfl, rfl⟩
  | starting rest started =>
      cases rest with
      | nil =>
          cases hstep
          exact ⟨rfl, rfl, rfl⟩
      | cons member rest =>
          cases hstep
          exact ⟨start_tree env member.place coordinator.scope, rfl, rfl⟩

/-- A stop keeps the scope, the errands and what was cancelled. -/
theorem shutdown_step_keeps {call : Shutdown} {env after : Environment}
    {coordinator moved : Coordinator} {next : Shutdown ⊕ Except Error Unit}
    (hstep : call.step (env, coordinator) = some ((after, moved), next)) :
    (∀ token, env.tree.isCancelled token = true → after.tree.isCancelled token = true) ∧
      moved.scope = coordinator.scope ∧ moved.errands = coordinator.errands := by
  unfold Shutdown.step at hstep
  cases call with
  | cancelling =>
      cases hstep
      exact ⟨fun token h => ScopeTree.is_cancelled_cancel_of _ h, rfl, rfl⟩
  | entering =>
      dsimp only at hstep
      split at hstep <;> cases hstep
      exact ⟨fun token h => h, rfl, rfl⟩
  | stopping rest errors =>
      cases rest with
      | nil =>
          cases hstep
          exact ⟨fun token h => h, rfl, rfl⟩
      | cons member rest =>
          cases hstep
          exact ⟨fun token h => (env.allows_stop member.place).cancelled _ h, rfl, rfl⟩

/-- A stop cancels the scope of its coordinator with its first step. -/
theorem shutdown_cancels {env after : Environment} {coordinator moved : Coordinator}
    {next : Shutdown ⊕ Except Error Unit}
    (hstep : Shutdown.cancelling.step (env, coordinator) = some ((after, moved), next)) :
    after.tree.isCancelled moved.scope = true := by
  cases hstep
  exact ScopeTree.is_cancelled_cancel_self env.tree coordinator.scope

/-- A query that was stopped and is not about to take a sighting in ends, and takes nothing in. -/
theorem Query.step_of_stopping {query : Query} {moment : Moment} (hstopping : moment.stopping = true)
    (hpoint : ∀ sighting rest found new, query.point ≠ .accepting sighting rest found new)
    (intake : Noted Intake) :
    ∃ journal, query.step moment none intake = some (⟨intake.state, journal⟩, none) := by
  unfold Query.step
  cases hquery : query.point with
  | ready => exact ⟨intake.journal, if_pos hstopping⟩
  | asking expires => exact ⟨intake.journal, if_pos hstopping⟩
  | ingesting rest found new =>
      cases rest with
      | nil =>
          by_cases hfound : 0 < found
          · exact ⟨_, by simp only [hfound, if_true]; rfl⟩
          · exact ⟨_, by simp only [hfound, if_false]; rfl⟩
      | cons sighting rest => exact ⟨intake.journal, if_pos hstopping⟩
  | accepting sighting rest found new => exact absurd hquery (hpoint sighting rest found new)

namespace Errand

/-- What a step does to an errand once the scope of its coordinator is cancelled: the errand ends
and leaves the intake alone, or it takes in the sighting that it was about to take in. -/
inductive Ceases (errand : Errand) (env : Environment) (intake : Intake) :
    Environment → Intake → Option Errand → Prop where
  | ended (after : Environment) (htaking : errand.taking? = none) (htree : after.tree = env.tree) :
      Ceases errand env intake after intake none
  | took (after : Environment) (next : Errand) (sighting : Sighting) (source : String)
      (htaking : errand.taking? = some (sighting, source)) (htree : after.tree = env.tree)
      (hnext : next.taking? = none) :
      Ceases errand env intake after (intake.accept env.now sighting source).2 (some next)

variable {errand : Errand} {token : Token} {env : Environment}

/-- An errand that takes nothing in is not about to do so. -/
theorem point_ne_accepting (htaking : errand.taking? = none) (sighting : Sighting)
    (rest : List Sighting) (found new : Nat) :
    errand.query.point ≠ .accepting sighting rest found new := by
  intro hpoint
  rw [taking?, hpoint] at htaking
  cases htaking

/-- Giving the search of an errand up cancels nothing. -/
theorem abandon_search_tree (errand : Errand) (env : Environment) :
    ((errand.search.map fun search => Search.abandon search env).getD env).tree = env.tree := by
  cases errand.search with
  | none => rfl
  | some search => exact abandon_tree search env

/-- Once its token is cancelled, an errand lets its query go on without an answer. -/
theorem step_of_cancelled (errand : Errand) (intake : Intake)
    (hcancelled : env.tree.isCancelled token = true) :
    errand.step token (env, intake) = errand.stepQuery token none (env, intake) := by
  unfold step
  cases hsearch : errand.search with
  | none => rfl
  | some search => exact if_pos hcancelled

/-- Once its token is cancelled, an errand always goes on, and does what `Ceases` lists. -/
theorem step_ceases (errand : Errand) (intake : Intake)
    (hcancelled : env.tree.isCancelled token = true) :
    ∃ after taken next, errand.step token (env, intake) = some ((after, taken), next) ∧
      errand.Ceases env intake after taken next := by
  rw [step_of_cancelled errand intake hcancelled]
  cases htaking : errand.taking? with
  | none =>
      have hstopping : (env.moment token).stopping = true := hcancelled
      obtain ⟨journal, hquery⟩ := Query.step_of_stopping hstopping
        (point_ne_accepting htaking) ⟨intake, env.journal⟩
      refine ⟨_, intake, none, ?_, .ended _ htaking
        (abandon_search_tree errand { env with journal := journal })⟩
      rw [stepQuery, hquery]
      rfl
  | some taking =>
      obtain ⟨sighting, source⟩ := taking
      cases hpoint : errand.query.point with
      | accepting peer rest found new =>
          have hsame := htaking
          rw [taking?, hpoint] at hsame
          cases hsame
          let accepted := intake.accept env.now sighting errand.query.mechanism
          let query := { errand.query with
            point := .ingesting rest found (if accepted.1 = Upsert.inserted then new + 1 else new) }
          refine ⟨_, accepted.2, some { errand with query := query, search := none }, ?_,
            .took _ _ _ _ htaking (abandon_search_tree errand env) rfl⟩
          simp only [stepQuery, Query.step, hpoint, Query.goTo, Option.map_some]
          rfl
      | ready | asking expires | ingesting rest found new =>
          rw [taking?, hpoint] at htaking
          cases htaking

/-- Once its token is cancelled, a step of an errand does what `Ceases` lists. -/
theorem ceases_of_step {after : Environment} {intake taken : Intake} {next : Option Errand}
    (hstep : errand.step token (env, intake) = some ((after, taken), next))
    (hcancelled : env.tree.isCancelled token = true) :
    errand.Ceases env intake after taken next := by
  obtain ⟨_, _, _, hmoves, hceases⟩ := errand.step_ceases intake hcancelled
  rw [hmoves] at hstep
  cases hstep
  exact hceases

end Errand

namespace Node

/-- Whether the scope of the coordinator is cancelled. -/
def IsCancelled (node : Node) : Prop :=
  node.env.tree.isCancelled node.coordinator.scope = true

/-- The sightings that queries are about to take in, with the names of their mechanisms. -/
def pending (node : Node) : List (Sighting × String) :=
  node.coordinator.errands.filterMap Errand.taking?

/-- The sighting that a step of a query may take in. -/
def Label.taking? : Label → Option (Sighting × String)
  | .query taking => taking
  | .sweep .. | .found .. | .eviction | .other => none

/-- A sweep begins no queries, or its wait ended by a tick that was due and it did not heed a
stop. -/
theorem sweeper_begins {schedule : Schedule} {moment : Moment} {errands begun : List Errand}
    {sweeper : Sweeper} {next : Option Sweeper}
    (hstep : Sweeper.step schedule moment errands sweeper = some (errands ++ begun, next)) :
    begun = [] ∨ begun = sweeper.members.map (Errand.ofMember schedule) ∧
      moment.stops true = false ∧
      ∃ ticker, sweeper.loop = .waiting ticker ∧ ticker.due ≤ moment.now := by
  obtain ⟨added, hadded, hcases⟩ := sweeper_step_cases hstep
  obtain rfl := List.append_cancel_left hadded
  exact hcases

/-- Queries that a sweep begins are not about to take anything in. -/
theorem taking_of_begun {schedule : Schedule} {moment : Moment} {errands begun : List Errand}
    {sweeper : Sweeper} {next : Option Sweeper}
    (hstep : Sweeper.step schedule moment errands sweeper = some (errands ++ begun, next)) :
    begun.filterMap Errand.taking? = [] := by
  rcases sweeper_begins hstep with hnone | ⟨hbegun, -⟩
  · rw [hnone, List.filterMap_nil]
  · rw [hbegun, List.filterMap_map, List.filterMap_eq_nil_iff]
    intro member _
    rfl

variable {node middle after : Node} {label : Label}

/-- A cancelled coordinator stays so. -/
theorem Step.is_cancelled (hstep : Step node label after) (hcancelled : node.IsCancelled) :
    after.IsCancelled := by
  cases hstep with
  | surroundings env hkept => exact hkept _ hcancelled
  | query before errand later env intake next herrands hnext =>
      cases Errand.ceases_of_step hnext hcancelled with
      | ended _ htree | took _ _ _ _ htree =>
          unfold IsCancelled at hcancelled ⊢
          rw [← hcancelled]
          exact congrArg (fun tree => ScopeTree.isCancelled tree _) htree
  | startup before call later env coordinator next hcalls hnext =>
      obtain ⟨htree, hscope, -⟩ := startup_step_keeps hnext
      unfold IsCancelled at hcancelled ⊢
      rw [htree, hscope]
      exact hcancelled
  | shutdown before call later env coordinator next hcalls hnext =>
      obtain ⟨htree, hscope, -⟩ := shutdown_step_keeps hnext
      unfold IsCancelled at hcancelled ⊢
      rw [hscope]
      exact htree _ hcancelled
  | sweep | evictor | reporter | dial | found | status | evict | observe | subscriptions | start
  | stop => exact hcancelled

/-- What queries are about to take in, split where one of them stands. -/
theorem pending_of_errands {before later : List Errand} {errand : Errand}
    (herrands : node.coordinator.errands = before ++ errand :: later) :
    node.pending = before.filterMap Errand.taking? ++
      (errand.taking?.toList ++ later.filterMap Errand.taking?) := by
  rw [pending, herrands, List.filterMap_append, List.filterMap_cons]
  cases errand.taking? <;> rfl

/-- A step of a cancelled coordinator takes in what a query was about to take in, or nothing, and
adds nothing that is to be taken in. -/
theorem Step.pending_perm (hstep : Step node label after) (hcancelled : node.IsCancelled) :
    (label.taking?.toList ++ after.pending).Perm node.pending := by
  cases hstep with
  | query before errand later env intake next herrands hnext =>
      have hceased : next.toList.filterMap Errand.taking? = [] := by
        cases Errand.ceases_of_step hnext hcancelled with
        | ended => rfl
        | took moved _ _ _ _ hmoved => simp [hmoved]
      -- The sighting that is taken in is the one that the errand contributed.
      rw [pending_of_errands herrands]
      have hafter : (before ++ next.toList ++ later).filterMap Errand.taking? =
          before.filterMap Errand.taking? ++ later.filterMap Errand.taking? := by
        rw [List.filterMap_append, List.filterMap_append, hceased, List.append_nil]
      have hperm := List.perm_append_comm_assoc errand.taking?.toList
        (before.filterMap Errand.taking?) (later.filterMap Errand.taking?)
      rw [← hafter] at hperm
      exact hperm
  | sweep heedsStop sweeper begun next hsweeper hnext =>
      have hbegun := taking_of_begun hnext
      exact List.Perm.of_eq (by simp [pending, Label.taking?, hbegun])
  | startup before call later env coordinator next hcalls hnext =>
      obtain ⟨-, -, herrands⟩ := startup_step_keeps hnext
      exact List.Perm.of_eq (by simp [pending, Label.taking?, herrands])
  | shutdown before call later env coordinator next hcalls hnext =>
      obtain ⟨-, -, herrands⟩ := shutdown_step_keeps hnext
      exact List.Perm.of_eq (by simp [pending, Label.taking?, herrands])
  | surroundings | evictor | reporter | dial | found | status | evict | observe | subscriptions
  | start | stop => exact List.Perm.refl _

/-- A cancelled coordinator stays so along every path. -/
theorem Path.is_cancelled {labels : List Label} (hpath : Path node labels after)
    (hcancelled : node.IsCancelled) : after.IsCancelled := by
  induction hpath with
  | refl => exact hcancelled
  | step _ _ _ _ _ hstep ih => exact hstep.is_cancelled ih

/-- Along every path of a cancelled coordinator, queries take in only what they were about to take in
at its beginning, every sighting at most once. -/
theorem Path.pending_perm {labels : List Label} (hpath : Path node labels after)
    (hcancelled : node.IsCancelled) :
    (labels.filterMap Label.taking? ++ after.pending).Perm node.pending := by
  induction hpath with
  | refl => exact List.Perm.refl _
  | step labels middle label after hpath hstep ih =>
      have hmiddle := hstep.pending_perm (hpath.is_cancelled hcancelled)
      have hlabels : (labels ++ [label]).filterMap Label.taking? =
          labels.filterMap Label.taking? ++ label.taking?.toList := by
        cases htaking : label.taking? <;> simp [htaking]
      rw [hlabels, List.append_assoc]
      exact (hmiddle.append_left _).trans ih

/-- What a step of a query does once the coordinator is cancelled: the query ends and leaves the
intake alone, or it takes in a sighting that was about to be taken in. -/
theorem Step.query_after_cancel {taking : Option (Sighting × String)}
    (hstep : Step node (.query taking) after) (hcancelled : node.IsCancelled) :
    (taking = none ∧ after.intake = node.intake ∧
        after.coordinator.errands.length < node.coordinator.errands.length) ∨
      ∃ sighting source, taking = some (sighting, source) ∧ (sighting, source) ∈ node.pending ∧
        after.intake = (node.intake.accept node.env.now sighting source).2 := by
  cases hstep with
  | query before errand later env intake next herrands hnext =>
      have hpending := pending_of_errands herrands
      cases Errand.ceases_of_step hnext hcancelled with
      | ended htaking htree =>
          refine .inl ⟨htaking, rfl, ?_⟩
          simp [withErrands, herrands]
      | took moved sighting source htaking htree hmoved =>
          refine .inr ⟨sighting, source, htaking, ?_, rfl⟩
          simp [hpending, htaking]

/-- What a step of a sweeper does once the coordinator is cancelled: it begins no queries, or its
wait ended by a tick that was due. -/
theorem Step.sweep_after_cancel {heedsStop : Bool} {begun : List Errand}
    (hstep : Step node (.sweep heedsStop begun) after) (hcancelled : node.IsCancelled) :
    begun = [] ∨ heedsStop = false ∧ ∃ sweeper ticker,
      node.coordinator.sweeper = some sweeper ∧ sweeper.loop = .waiting ticker ∧
        ticker.due ≤ node.env.now := by
  cases hstep with
  | sweep _ sweeper _ next hsweeper hnext =>
      refine (sweeper_begins hnext).imp_right ?_
      intro hbegins
      obtain ⟨-, hstops, ticker, hloop, hdue⟩ := hbegins
      refine ⟨?_, sweeper, ticker, hsweeper, hloop, hdue⟩
      have hstopping : (node.moment heedsStop).stopping = true := hcancelled
      rw [Moment.stops, hstopping] at hstops
      simpa [moment] using hstops

/-- A query of a cancelled coordinator that is about to take a sighting in can do so. -/
theorem exists_step_of_pending (hcancelled : node.IsCancelled) (hpending : node.pending ≠ []) :
    ∃ taking after, Step node (.query (some taking)) after := by
  obtain ⟨taking, hmem⟩ := List.exists_mem_of_ne_nil _ hpending
  obtain ⟨errand, herrand, htaking⟩ := List.mem_filterMap.1 hmem
  obtain ⟨before, later, herrands⟩ := List.append_of_mem herrand
  obtain ⟨env, intake, next, hnext, -⟩ := errand.step_ceases node.intake hcancelled
  have hstep := Step.query node before errand later env intake next herrands hnext
  rw [htaking] at hstep
  exact ⟨taking, _, hstep⟩

/-- Once a coordinator is cancelled, its queries take in only what they were about to take in at that
time, each sighting at most once; any other query leaves the intake alone when it goes on, and ends.
A sweep that heeds the stop begins no queries. Something is taken in on some path exactly if a query
was about to take something in. -/
theorem quiet_after_cancel (node : Node) (hcancelled : node.IsCancelled) :
    (∀ labels middle, Path node labels middle →
      (labels.filterMap Label.taking? ++ middle.pending).Perm node.pending ∧
      (∀ taking after, Step middle (.query taking) after →
        (taking = none ∧ after.intake = middle.intake ∧
            after.coordinator.errands.length < middle.coordinator.errands.length) ∨
          ∃ sighting source, taking = some (sighting, source) ∧
            (sighting, source) ∈ node.pending ∧
            after.intake = (middle.intake.accept middle.env.now sighting source).2) ∧
      (∀ heedsStop begun after, Step middle (.sweep heedsStop begun) after →
        begun = [] ∨ heedsStop = false ∧ ∃ sweeper ticker,
          middle.coordinator.sweeper = some sweeper ∧ sweeper.loop = .waiting ticker ∧
            ticker.due ≤ middle.env.now)) ∧
    ((∃ labels after, Path node labels after ∧ labels.filterMap Label.taking? ≠ []) ↔
      node.pending ≠ []) := by
  refine ⟨fun labels middle hpath => ?_, ?_⟩
  · have hmiddle := hpath.is_cancelled hcancelled
    have hperm := hpath.pending_perm hcancelled
    refine ⟨hperm, fun taking after hstep => ?_, fun heedsStop begun after hstep => ?_⟩
    · refine (hstep.query_after_cancel hmiddle).imp_right ?_
      intro htook
      obtain ⟨sighting, source, htaking, hmem, hintake⟩ := htook
      exact ⟨sighting, source, htaking, hperm.subset (List.mem_append_right _ hmem), hintake⟩
    · exact hstep.sweep_after_cancel hmiddle
  · constructor
    · intro htook hnone
      obtain ⟨labels, after, hpath, htaken⟩ := htook
      have hperm := hpath.pending_perm hcancelled
      rw [hnone, List.perm_nil, List.append_eq_nil_iff] at hperm
      exact htaken hperm.1
    · intro hpending
      obtain ⟨taking, after, hstep⟩ := exists_step_of_pending hcancelled hpending
      exact ⟨_, after, .step _ _ _ _ _ (.refl node) hstep, by simp [Label.taking?]⟩

section Stopped

/-- A stop may come when a query has looked whether it was stopped and is about to take the peer
in. -/
theorem exists_pending_after_stop :
    ∃ labels node, Path fresh labels node ∧ node.IsCancelled ∧
      node.pending = [(peer, "canned")] ∧ node.intake = fresh.intake := by
  -- The start, the first sweep, the query up to its last look, and then the stop.
  have hstart := Path.step _ _ _ _ _ (Path.refl fresh) (.start fresh)
  have hbegun := Path.step _ _ _ _ _ hstart (.startup _ [] .entering [] _ _ _ rfl rfl)
  have hmember := Path.step _ _ _ _ _ hbegun (.startup _ [] _ [] _ _ _ rfl rfl)
  have hstarted := Path.step _ _ _ _ _ hmember (.startup _ [] _ [] _ _ _ rfl rfl)
  have hready := Path.step _ _ _ _ _ hstarted (.sweep _ true _ [] _ rfl rfl)
  have hswept := Path.step _ _ _ _ _ hready (.sweep _ true _ _ _ rfl rfl)
  have hasked := Path.step _ _ _ _ _ hswept (.query _ [] _ [] _ _ _ rfl rfl)
  have hanswered := Path.step _ _ _ _ _ hasked (.query _ [] _ [] _ _ _ rfl rfl)
  have haccepting := Path.step _ _ _ _ _ hanswered (.query _ [] _ [] _ _ _ rfl rfl)
  have hstop := Path.step _ _ _ _ _ haccepting (.stop _)
  have hcancelled := Path.step _ _ _ _ _ hstop (.shutdown _ [] .cancelling [] _ _ _ rfl rfl)
  exact ⟨_, _, hcancelled, shutdown_cancels rfl, rfl, rfl⟩

/-- After that stop queries take the peer in at most once, and nothing else. -/
theorem quiet_after_cancel_pending :
    ∃ labels node, Path fresh labels node ∧ node.IsCancelled ∧
      node.pending = [(peer, "canned")] ∧
      ∀ later middle, Path node later middle →
        (later.filterMap Label.taking? ++ middle.pending).Perm [(peer, "canned")] := by
  obtain ⟨labels, node, hpath, hcancelled, hpending, -⟩ := exists_pending_after_stop
  refine ⟨labels, node, hpath, hcancelled, hpending, fun later middle hlater => ?_⟩
  rw [← hpending]
  exact ((quiet_after_cancel node hcancelled).1 later middle hlater).1

/-- It is not so that queries leave the intake alone once their coordinator was stopped. -/
theorem not_quiet_after_stop :
    ¬ ∀ labels node, Path fresh labels node → node.IsCancelled →
      ∀ taking after, Step node (.query taking) after → after.intake = node.intake := by
  intro hquiet
  obtain ⟨labels, node, hpath, hcancelled, hpending, hintake⟩ := exists_pending_after_stop
  obtain ⟨taking, after, hstep⟩ := exists_step_of_pending hcancelled (by simp [hpending])
  have hsame := hquiet labels node hpath hcancelled _ after hstep
  obtain ⟨hnone, -⟩ | ⟨sighting, source, -, hmem, htook⟩ := hstep.query_after_cancel hcancelled
  · cases hnone
  rw [hpending, List.mem_singleton] at hmem
  cases hmem
  rw [hsame, hintake] at htook
  -- The observer was called once more than it should have been.
  have hcount := congrArg (fun intake : Intake => intake.observations.length) htook
  revert hcount
  have hinserted : (fresh.intake.accept node.env.now peer "canned").2.observations.length = 1 := rfl
  rw [hinserted]
  decide

end Stopped

end Node

end PeerFinder.Coordinator
