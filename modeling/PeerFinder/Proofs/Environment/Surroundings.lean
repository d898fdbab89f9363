import Mathlib.Tactic.SplitIfs
import PeerFinder.Environment
import PeerFinder.Proofs.Activity

/-!
# What goes on around queries

While queries are in flight, mechanisms are started and stopped and do their background work. All of
that cancels tokens but never takes a cancel back, and it leaves the lines of queries that drain the
local network alone: `Environment.Allows` says so of any change of the environment, and the start, the
stop and the background work of mechanisms are such changes.
-/

namespace PeerFinder

namespace ScopeTree

/-- A token that was cancelled stays so when another one is. -/
theorem is_cancelled_cancel_of {tree : ScopeTree} {token : Token} (other : Token)
    (h : tree.isCancelled token = true) : (tree.cancel other).isCancelled token = true := by
  unfold isCancelled at h ⊢
  rw [cancel, List.any_cons, h, Bool.or_true]

/-- A token is cancelled when it is. -/
theorem is_cancelled_cancel_self (tree : ScopeTree) (token : Token) :
    (tree.cancel token).isCancelled token = true := by
  unfold isCancelled
  rw [cancel, List.any_cons, List.isSuffixOf_iff_suffix.2 List.suffix_rfl, Bool.true_or]

/-- A token is cancelled with its parent. -/
theorem is_cancelled_cons_of {tree : ScopeTree} {token : Token} (number : Nat)
    (h : tree.isCancelled token = true) : tree.isCancelled (number :: token) = true := by
  unfold isCancelled at h ⊢
  rw [List.any_eq_true] at h ⊢
  obtain ⟨ancestor, hmem, hsuffix⟩ := h
  refine ⟨ancestor, hmem, ?_⟩
  rw [List.isSuffixOf_iff_suffix] at hsuffix ⊢
  exact hsuffix.trans (List.suffix_cons number token)

end ScopeTree

/-- A scope that is done stays so while time passes and tokens are cancelled. -/
theorem Scope.is_done_of_later {scope : Scope} {tree after : ScopeTree} {now later : Clock.Instant}
    (hnow : now ≤ later)
    (hcancelled : ∀ token, tree.isCancelled token = true → after.isCancelled token = true)
    (hdone : scope.isDone tree now = true) : scope.isDone after later = true := by
  simp only [isDone, Bool.or_eq_true, Option.any_eq_true, decide_eq_true_eq] at hdone ⊢
  refine hdone.imp (hcancelled scope.token) fun hexpired => ?_
  obtain ⟨deadline, hdeadline, hpast⟩ := hexpired
  exact ⟨deadline, hdeadline, Nat.le_trans hpast hnow⟩

/-- What the mechanism of the local network holds of the queries that drain its queue: the line they
stand in, the number of tickets that were given out, and the bound on each query. -/
def LocalNet.Service.turns (service : Service) : List Nat × Nat × Clock.Span :=
  (service.queue.line, service.queue.issued, service.queryTimeout)

namespace LocalNet

/-- A peer that is queued does not move the line. -/
theorem Queue.line_offer (queue : Queue) (sighting : Sighting) :
    (queue.offer sighting).2.line = queue.line ∧
      (queue.offer sighting).2.issued = queue.issued := by
  unfold offer
  split_ifs <;> exact ⟨rfl, rfl⟩

/-- Listening does not move the line. -/
theorem Listener.line_step {tag : String} {moment : Moment} {queue after : Noted Queue}
    {listener : Listener} {next : Option Listener}
    (hstep : step tag moment queue listener = some (after, next)) :
    after.state.line = queue.state.line ∧ after.state.issued = queue.state.issued := by
  unfold step at hstep
  split at hstep
  · cases hstep
    exact ⟨rfl, rfl⟩
  · split at hstep
    · cases hstep
      split
      · exact Queue.line_offer _ _
      · exact ⟨rfl, rfl⟩
    · split at hstep <;> cases hstep
      exact ⟨rfl, rfl⟩

/-- Announcing this node does not move the line. -/
theorem Service.turns_start {service started : Service} {swarm after : Option Swarm}
    (hstart : service.start swarm = .ok (started, after)) : started.turns = service.turns := by
  simp only [start, bind, Except.bind] at hstart
  split at hstart
  · cases hstart
  · split at hstart
    · split at hstart <;> cases hstart
      rfl
    · cases hstart

/-- The background work does not move the line. -/
theorem Service.turns_advance (service : Service) (moment : Moment) (journal : Journal) :
    (service.advance moment journal).1.state.turns = service.turns := by
  have hkept := @Activity.run_all_keeps _ _ (Listener.step service.tag moment)
    (fun queue _ => queue.state.line = service.queue.line ∧
      queue.state.issued = service.queue.issued) ?_ ⟨service.queue, journal⟩ []
    service.listeners ⟨rfl, rfl⟩
  · obtain ⟨hline, hissued⟩ := hkept
    exact Prod.ext hline (Prod.ext hissued rfl)
  · intro queue before listener later after next hqueue hstep
    obtain ⟨hline, hissued⟩ := Listener.line_step hstep
    exact ⟨hline.trans hqueue.1, hissued.trans hqueue.2⟩

end LocalNet

/-- What a mechanism holds of queries that stand in line. -/
def Mechanism.turns : Mechanism → Option (List Nat × Nat × Clock.Span)
  | .localNet service => some service.turns
  | .seeds _ | .rendezvous _ | .scripted _ => none

namespace Environment

/-- What the mechanism of a place holds of queries that stand in line. -/
def turns (env : Environment) (place : Nat) : Option (List Nat × Nat × Clock.Span) :=
  env.mechanisms[place]?.bind Mechanism.turns

/-- What may happen to the environment around queries at one instant. -/
structure Allows (before after : Environment) : Prop where
  now : after.now = before.now
  cancelled : ∀ token, before.tree.isCancelled token = true →
    after.tree.isCancelled token = true
  turns : ∀ place, after.turns place = before.turns place

namespace Allows

/-- Nothing may happen. -/
theorem refl (env : Environment) : env.Allows env :=
  ⟨rfl, fun _ h => h, fun _ => rfl⟩

/-- One thing may happen after another. -/
theorem trans {first second third : Environment} (h : first.Allows second)
    (hnext : second.Allows third) : first.Allows third :=
  ⟨hnext.now.trans h.now, fun token hmem => hnext.cancelled token (h.cancelled token hmem),
    fun place => (hnext.turns place).trans (h.turns place)⟩

/-- A mechanism may change if it leaves the queries alone that stand in line. -/
theorem set {env after : Environment} {place : Nat} {old mechanism : Mechanism}
    (hplace : env.mechanisms[place]? = some old)
    (hmechanisms : after.mechanisms = env.mechanisms.set place mechanism)
    (hturns : mechanism.turns = old.turns) (hnow : after.now = env.now)
    (hcancelled : ∀ token, env.tree.isCancelled token = true →
      after.tree.isCancelled token = true) : env.Allows after := by
  refine ⟨hnow, hcancelled, fun other => ?_⟩
  have hlt := (List.getElem?_eq_some_iff.1 hplace).1
  simp only [Environment.turns, hmechanisms, List.getElem?_set]
  split_ifs with heq
  · rw [← heq, hplace]
    exact hturns
  · rfl

end Allows

/-- A mechanism may be started. -/
theorem allows_start (env : Environment) (place : Nat) (token : Token) :
    env.Allows (env.start place token).2 := by
  unfold start
  split
  · exact .refl env
  · rename_i service hplace
    split
    · exact .refl env
    · rename_i started swarm hstart
      exact .set hplace rfl (congrArg some (LocalNet.Service.turns_start hstart)) rfl fun _ h => h
  · rename_i service hplace
    exact .set hplace rfl rfl rfl fun _ h => h
  · rename_i service hplace
    exact .set hplace rfl rfl rfl fun _ h => h
  · rename_i mechanism hplace
    exact .set hplace rfl rfl rfl fun _ h => h

/-- The mechanism of a place may do its background work. -/
theorem allows_advance_mechanism (env : Environment) (place : Nat) :
    env.Allows (env.advanceMechanism place).1 := by
  unfold advanceMechanism
  split
  · rename_i service hplace
    refine .set hplace rfl ?_ rfl fun _ h => h
    exact congrArg some (service.turns_advance _ _)
  · rename_i service hplace
    exact .set hplace rfl rfl rfl fun _ h => h
  · rename_i service hplace
    exact .set hplace rfl rfl rfl fun _ h => h
  · exact .refl env
  · exact .refl env

/-- The mechanisms of several places may do their background work. -/
theorem allows_advance_places (env : Environment) (places : List Nat) :
    env.Allows (env.advancePlaces places).1 := by
  induction places generalizing env with
  | nil => exact .refl env
  | cons place rest ih =>
      exact (env.allows_advance_mechanism place).trans (ih (env.advanceMechanism place).1)

/-- All background work may go on. -/
theorem allows_advance (env : Environment) : env.Allows env.advance.1 := by
  have hlinks := @Activity.run_all_keeps _ _ Link.step
    (fun tree _ => ∀ token, env.tree.isCancelled token = true →
      tree.isCancelled token = true) ?_ env.tree [] env.links fun _ h => h
  · have hlinked : env.Allows { env with
        tree := (Activity.runAll Link.step env.tree env.links).1
        links := (Activity.runAll Link.step env.tree env.links).2.1 } :=
      ⟨rfl, hlinks, fun _ => rfl⟩
    exact hlinked.trans (allows_advance_places _ _)
  · intro tree before link later after next hkept hstep token htoken
    unfold Link.step at hstep
    split_ifs at hstep <;> cases hstep
    · exact ScopeTree.is_cancelled_cancel_of _ (hkept token htoken)
    · exact hkept token htoken

/-- A mechanism may be stopped. -/
theorem allows_stop (env : Environment) (place : Nat) : env.Allows (env.stop place).2 := by
  unfold stop
  split
  · exact .refl env
  · rename_i service hplace
    exact .set hplace rfl rfl rfl fun _ h => ScopeTree.is_cancelled_cancel_of _ h
  · rename_i service hplace
    exact ⟨rfl, fun _ h => ScopeTree.is_cancelled_cancel_of _ h, fun _ => rfl⟩
  · rename_i service hplace
    exact .set hplace rfl rfl rfl fun _ h => ScopeTree.is_cancelled_cancel_of _ h
  · rename_i mechanism hplace
    exact .set hplace rfl rfl rfl fun _ h => h

end Environment

end PeerFinder
