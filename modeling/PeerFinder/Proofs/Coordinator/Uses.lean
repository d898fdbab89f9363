import Mathlib.Tactic.SplitIfs
import PeerFinder.Proofs.Coordinator.Interleaving
import PeerFinder.Proofs.Environment.Queries

/-!
# How often mechanisms are started and stopped

A scripted mechanism counts how often it was started and stopped. A start of a place adds one start to
what is remembered there and a stop adds one stop. Nothing else that a coordinator does changes these
numbers (`Coordinator.Node.Step.uses_eq`,
`Environment.keeps_uses_advance`).
-/

namespace PeerFinder

/-- What a mechanism remembers of how often it was started and stopped. -/
def Mechanism.uses? : Mechanism → Option (Nat × Nat)
  | .scripted mechanism => some (mechanism.starts, mechanism.stops)
  | .localNet _ | .seeds _ | .rendezvous _ => none

namespace Environment

/-- What the mechanism of a place remembers of how often it was started and stopped. -/
def uses? (env : Environment) (place : Nat) : Option (Nat × Nat) :=
  env.mechanisms[place]?.bind Mechanism.uses?

/-- Whether all mechanisms remember the same starts and stops as before. -/
def KeepsUses (before after : Environment) : Prop :=
  ∀ place, after.uses? place = before.uses? place

variable {env after : Environment} {place : Nat} {old mechanism : Mechanism}

/-- A mechanism that changes what it remembers leaves the others alone. -/
theorem uses_set (change : Nat × Nat → Nat × Nat) (hplace : env.mechanisms[place]? = some old)
    (hmechanisms : after.mechanisms = env.mechanisms.set place mechanism)
    (huses : mechanism.uses? = old.uses?.map change) (other : Nat) :
    after.uses? other =
      (env.uses? other).map fun uses => if place = other then change uses else uses := by
  have hlt := (List.getElem?_eq_some_iff.1 hplace).1
  unfold uses?
  rw [hmechanisms]
  by_cases hsame : place = other
  · subst hsame
    simp [List.getElem?_set_self hlt, hplace, huses]
  · simp [List.getElem?_set_ne hsame, hsame]

namespace KeepsUses

/-- The same mechanisms remember the same. -/
theorem of_mechanisms (h : after.mechanisms = env.mechanisms) : env.KeepsUses after := by
  intro place
  rw [uses?, h, uses?]

/-- One change after another keeps what is remembered. -/
theorem trans {middle : Environment} (h : env.KeepsUses middle) (hnext : middle.KeepsUses after) :
    env.KeepsUses after :=
  fun place => (hnext place).trans (h place)

/-- A mechanism may change that remembers the same. -/
theorem of_set (hplace : env.mechanisms[place]? = some old)
    (hmechanisms : after.mechanisms = env.mechanisms.set place mechanism)
    (huses : mechanism.uses? = old.uses?) : env.KeepsUses after := by
  intro other
  rw [uses_set id hplace hmechanisms (by simp [huses])]
  simp

/-- Where nothing is remembered, nothing changes. -/
theorem map_of_none (h : env.KeepsUses after) (hnone : env.uses? place = none)
    (change : Nat × Nat → Nat × Nat) (other : Nat) : after.uses? other =
      (env.uses? other).map fun uses => if place = other then change uses else uses := by
  rw [h]
  by_cases hsame : place = other
  · rw [← hsame, hnone]
    rfl
  · simp [hsame]

end KeepsUses

variable (env)

/-- A mechanism that is started remembers one start more. -/
theorem uses_start (place : Nat) (token : Token) (other : Nat) : (env.start place token).2.uses? other =
    (env.uses? other).map fun uses => if place = other then (uses.1 + 1, uses.2) else uses := by
  unfold start
  split
  · rename_i hplace
    exact KeepsUses.map_of_none (.of_mechanisms rfl) (by rw [uses?, hplace]; rfl) _ other
  · rename_i service hplace
    split
    · exact KeepsUses.map_of_none (.of_mechanisms rfl) (by rw [uses?, hplace]; rfl) _ other
    · exact uses_set _ hplace rfl rfl other
  · rename_i service hplace
    exact uses_set _ hplace rfl rfl other
  · rename_i service hplace
    exact uses_set _ hplace rfl rfl other
  · rename_i mechanism hplace
    exact uses_set _ hplace rfl rfl other

/-- A mechanism that is stopped remembers one stop more. -/
theorem uses_stop (place other : Nat) : (env.stop place).2.uses? other =
    (env.uses? other).map fun uses => if place = other then (uses.1, uses.2 + 1) else uses := by
  unfold stop
  split
  · rename_i hplace
    exact KeepsUses.map_of_none (.of_mechanisms rfl) (by rw [uses?, hplace]; rfl) _ other
  · rename_i service hplace
    exact uses_set _ hplace rfl rfl other
  · rename_i service hplace
    have hkept : env.KeepsUses (env.cancel service.shutdown) := .of_mechanisms rfl
    exact hkept.map_of_none (by rw [uses?, hplace]; rfl) _ other
  · rename_i service hplace
    exact uses_set _ hplace rfl rfl other
  · rename_i mechanism hplace
    exact uses_set _ hplace rfl rfl other

/-- The background work of a mechanism is no start and no stop. -/
theorem keeps_uses_advance_mechanism (place : Nat) :
    env.KeepsUses (env.advanceMechanism place).1 := by
  unfold advanceMechanism
  split
  · rename_i service hplace
    exact .of_set hplace rfl rfl
  · rename_i service hplace
    exact .of_set hplace rfl rfl
  · rename_i service hplace
    exact .of_set hplace rfl rfl
  · exact .of_mechanisms rfl
  · exact .of_mechanisms rfl

/-- The background work of several mechanisms is no start and no stop. -/
theorem keeps_uses_advance_places (places : List Nat) :
    env.KeepsUses (env.advancePlaces places).1 := by
  induction places generalizing env with
  | nil => exact .of_mechanisms rfl
  | cons place rest ih =>
      exact (keeps_uses_advance_mechanism env place).trans (ih (env.advanceMechanism place).1)

/-- All background work is no start and no stop. -/
theorem keeps_uses_advance : env.KeepsUses env.advance.1 :=
  keeps_uses_advance_places _ _

/-- The beginning of a query is no start and no stop. -/
theorem keeps_uses_find (place : Nat) (scope : Scope) (limit : Nat) :
    env.KeepsUses (env.find place scope limit).2 := by
  unfold find
  split
  · exact .of_mechanisms rfl
  · rename_i service hplace
    exact .of_set hplace rfl rfl
  · rename_i service hplace
    exact .of_set hplace rfl rfl
  · exact .of_mechanisms rfl
  · rename_i mechanism hplace
    exact .of_set hplace rfl rfl

end Environment

namespace Search

variable {env after : Environment}

/-- A step of a query is no start and no stop. -/
theorem keeps_uses_step {search : Search} {next : Search ⊕ Except Error (List Sighting)}
    (hstep : search.step env = some (after, next)) : env.KeepsUses after := by
  cases search with
  | answered result =>
      cases hstep
      exact .of_mechanisms rfl
  | scripted due result =>
      simp only [step] at hstep
      split_ifs at hstep
      cases hstep
      exact .of_mechanisms rfl
  | drain place call =>
      simp only [step] at hstep
      split at hstep
      · cases hstep
        exact .of_mechanisms rfl
      · rename_i service hservice
        obtain ⟨_, -, heq⟩ := Option.map_eq_some_iff.1 hstep
        cases heq
        exact .of_set (Environment.mechanism_of_local_net hservice) rfl rfl
  | lookup call =>
      obtain ⟨_, -, heq⟩ := Option.map_eq_some_iff.1 hstep
      cases heq
      exact .of_mechanisms rfl

/-- Giving a query up is no start and no stop. -/
theorem keeps_uses_abandon (search : Search) (env : Environment) :
    env.KeepsUses (search.abandon env) := by
  cases search with
  | answered | scripted | lookup => exact .of_mechanisms rfl
  | drain place call =>
      simp only [abandon]
      split
      · exact .of_mechanisms rfl
      · rename_i service hservice
        exact .of_set (Environment.mechanism_of_local_net hservice) rfl rfl

end Search

namespace Coordinator

namespace Errand

variable {errand : Errand} {token : Token} {env after : Environment} {intake taken : Intake}
  {next : Option Errand}

/-- A step of the query of an errand is no start and no stop. -/
theorem keeps_uses_step_query {answer? : Option (Except Error (List Sighting))}
    (hstep : errand.stepQuery token answer? (env, intake) = some ((after, taken), next)) :
    env.KeepsUses after := by
  obtain ⟨⟨noted, query?⟩, -, heq⟩ := Option.map_eq_some_iff.1 hstep
  dsimp only at heq
  split at heq
  · cases heq
    exact Environment.keeps_uses_find _ _ _ _
  · cases heq
    cases errand.search with
    | none => exact .of_mechanisms rfl
    | some search => exact search.keeps_uses_abandon { env with journal := noted.journal }

/-- A step of an errand is no start and no stop. -/
theorem keeps_uses_step (hstep : errand.step token (env, intake) = some ((after, taken), next)) :
    env.KeepsUses after := by
  unfold step at hstep
  cases hsearch : errand.search with
  | none =>
      simp only [hsearch] at hstep
      exact keeps_uses_step_query hstep
  | some search =>
      simp only [hsearch] at hstep
      split at hstep
      · exact keeps_uses_step_query hstep
      · split at hstep
        · exact keeps_uses_step_query hstep
        · rename_i moved search hmoves
          cases hstep
          exact Search.keeps_uses_step hmoves
        · rename_i moved answer hmoves
          exact (Search.keeps_uses_step hmoves).trans (keeps_uses_step_query hstep)

end Errand

/-- A step of a node whose starts and stops are not under way is no start and no stop, unless it
changes the surroundings. -/
theorem Node.Step.uses_eq {node after : Node} {label : Label} (hstep : Step node label after)
    (hstartups : node.startups = []) (hshutdowns : node.shutdowns = []) :
    (∃ env, after = { node with env := env }) ∨ node.env.KeepsUses after.env := by
  cases hstep with
  | surroundings env hcancelled => exact .inl ⟨env, rfl⟩
  | query before errand later env intake next herrands hnext =>
      exact .inr (Errand.keeps_uses_step hnext)
  | startup before call later env coordinator next hcalls hnext => simp [hstartups] at hcalls
  | shutdown before call later env coordinator next hcalls hnext => simp [hshutdowns] at hcalls
  | _ => exact .inr (.of_mechanisms rfl)

end Coordinator

end PeerFinder
