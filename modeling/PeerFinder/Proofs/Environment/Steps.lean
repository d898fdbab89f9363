import Mathlib.Logic.Relation
import PeerFinder.Proofs.Environment.Queries
import PeerFinder.Proofs.Seed.Interleaving

/-!
# The steps of mechanisms

`Mechanism.Step` lists what a mechanism does in one step: the local network hears and forgets peers,
the seeds go on as `Seed.Scene.Step` says, the routing table gets a publisher, loses it or has it go
on. An environment goes on by such steps of its mechanisms and by whatever happens around them
(`Environment.Goes`). The starts, the stops, the queries and the background work of mechanisms are all
of this kind.
-/

namespace PeerFinder

/-- The single steps of a mechanism, given what was cancelled. -/
inductive Mechanism.Step (tree : ScopeTree) : Mechanism → Mechanism → Prop where
  | localNet (service : LocalNet.Service) (queue : LocalNet.Queue)
      (listeners : List LocalNet.Listener) (bound : Bool) :
      Step tree (.localNet service)
        (.localNet { service with queue := queue, listeners := listeners, bound := bound })
  /-- The seeds go on, and are stopped at the end exactly if their token was cancelled. -/
  | seeds (before : Seed.Scene) (labels : List Seed.Scene.Label) (after : Seed.Scene)
      (hpath : before.Path labels after)
      (hstopping : after.stopping = tree.isCancelled before.service.shutdown) :
      Step tree (.seeds before.service) (.seeds after.service)
  | publish (service : Noted Rendezvous.Service) (now : Clock.Instant) :
      Step tree (.rendezvous service.state)
        (.rendezvous (Rendezvous.Service.publish service now).state)
  | publisher (service : Rendezvous.Service) (publisher : Rendezvous.Publisher) (moment : Moment)
      (routing after : Noted (Rendezvous.Routing Rendezvous.SlotAddress))
      (next : Option Rendezvous.Publisher) (hpublisher : service.publisher = some publisher)
      (hstopping : moment.stopping = tree.isCancelled service.shutdown)
      (hstep : publisher.step service.advertisement moment routing = some (after, next)) :
      Step tree (.rendezvous service) (.rendezvous { service with publisher := next })
  | close (service : Rendezvous.Service)
      (routing : Rendezvous.Routing Rendezvous.SlotAddress) :
      Step tree (.rendezvous service) (.rendezvous (service.stop routing).2.1)
  | scripted (before after : Scripted) : Step tree (.scripted before) (.scripted after)

namespace Environment

/-- The single steps of an environment. -/
inductive Step : Environment → Environment → Prop where
  /-- Time passes, tokens are cancelled, mechanisms are added, or anything else happens but for the
  mechanisms that are there. -/
  | around (before after : Environment) (hmechanisms : before.mechanisms <+: after.mechanisms)
      (hcancelled : ∀ token, before.tree.isCancelled token = true →
        after.tree.isCancelled token = true) : Step before after
  | mechanism (env : Environment) (place : Nat) (before after : Mechanism)
      (hplace : env.mechanisms[place]? = some before) (hstep : before.Step env.tree after) :
      Step env (env.setMechanism place after)

/-- Whether an environment may come to be another one, in single steps. -/
def Goes (before after : Environment) : Prop :=
  Relation.ReflTransGen Step before after

namespace Goes

variable {env middle after : Environment} {place : Nat} {old mechanism : Mechanism}

/-- An environment goes on by one step after another. -/
theorem trans (h : env.Goes middle) (hnext : middle.Goes after) : env.Goes after :=
  Relation.ReflTransGen.trans h hnext

/-- What happens around the mechanisms is a step. -/
theorem of_mechanisms (hmechanisms : after.mechanisms = env.mechanisms)
    (hcancelled : ∀ token, env.tree.isCancelled token = true →
      after.tree.isCancelled token = true) : env.Goes after :=
  .single (.around env after (hmechanisms ▸ List.prefix_rfl) hcancelled)

/-- A mechanism may go on while something happens around it. -/
theorem of_set (hplace : env.mechanisms[place]? = some old)
    (hsteps : Relation.ReflTransGen (Mechanism.Step env.tree) old mechanism)
    (hmechanisms : after.mechanisms = env.mechanisms.set place mechanism)
    (hcancelled : ∀ token, env.tree.isCancelled token = true →
      after.tree.isCancelled token = true) : env.Goes after := by
  obtain ⟨hlt, hold⟩ := List.getElem?_eq_some_iff.1 hplace
  have hset : env.Goes (env.setMechanism place mechanism) := by
    clear hmechanisms
    induction hsteps with
    | refl =>
        have hkept := List.set_getElem_self hlt
        rw [hold] at hkept
        exact of_mechanisms hkept fun _ h => h
    | tail hsteps hstep ih =>
        refine ih.trans (.single ?_)
        have hgone := Step.mechanism (env.setMechanism place _) place _ _
          (List.getElem?_set_self hlt) hstep
        rw [setMechanism, setMechanism, List.set_set] at hgone
        exact hgone
  exact hset.trans (of_mechanisms hmechanisms hcancelled)

/-- A mechanism may take one step while something happens around it. -/
theorem of_step (hplace : env.mechanisms[place]? = some old) (hstep : old.Step env.tree mechanism)
    (hmechanisms : after.mechanisms = env.mechanisms.set place mechanism)
    (hcancelled : ∀ token, env.tree.isCancelled token = true →
      after.tree.isCancelled token = true) : env.Goes after :=
  of_set hplace (.single hstep) hmechanisms hcancelled

/-- What was cancelled stays so. -/
theorem cancelled (h : env.Goes after) (token : Token)
    (hcancelled : env.tree.isCancelled token = true) : after.tree.isCancelled token = true := by
  induction h with
  | refl => exact hcancelled
  | tail _ hstep ih =>
      cases hstep with
      | around _ _ hkept => exact hkept token ih
      | mechanism => exact ih

end Goes

end Environment

/-- A mechanism of the local network that starts only gets a listener. -/
theorem LocalNet.Service.eq_of_start {service started : Service} {swarm after : Option Swarm}
    (hstart : service.start swarm = .ok (started, after)) :
    started = { service with listeners := started.listeners } := by
  simp only [start, bind, Except.bind] at hstart
  split at hstart
  · cases hstart
  · split at hstart
    · split at hstart <;> cases hstart
      rfl
    · cases hstart

/-- A mechanism of the routing table that starts begins to publish, unless it cannot join. -/
theorem Rendezvous.Service.start_cases {κ : Type} [DecidableEq κ] (service : Noted Service)
    (now : Clock.Instant) (routing : Routing κ) :
    (start service now routing).2.1 = service ∨
      (start service now routing).2.1 = publish service now := by
  unfold start
  split
  · exact .inl rfl
  · exact .inr rfl

namespace Environment

variable (env : Environment)

/-- The seeds sweep in steps. -/
theorem sweep_step (service : Seed.Service) :
    Mechanism.Step env.tree (.seeds service)
      (.seeds (service.sweep (env.tree.isCancelled service.shutdown))) := by
  obtain ⟨labels, hpath⟩ := Seed.Scene.sweep_path
    { service := service
      transport := env.transport
      stopping := env.tree.isCancelled service.shutdown }
  exact .seeds _ labels _ hpath rfl

/-- A mechanism is started in steps. -/
theorem goes_start (place : Nat) (token : Token) : env.Goes (env.start place token).2 := by
  unfold start
  split
  · exact .of_mechanisms rfl fun _ h => h
  · rename_i service hplace
    split
    · exact .of_mechanisms rfl fun _ h => h
    · rename_i started swarm hstart
      refine .of_step hplace ?_ rfl fun _ h => h
      rw [LocalNet.Service.eq_of_start hstart]
      exact .localNet service service.queue _ service.bound
  · rename_i service hplace
    exact .of_step hplace (env.sweep_step service) rfl fun _ h => h
  · rename_i service hplace
    have hsteps : Relation.ReflTransGen (Mechanism.Step env.tree) (.rendezvous service)
        (.rendezvous
          (Rendezvous.Service.start ⟨service, env.journal⟩ env.now env.routing).2.1.state) := by
      rcases Rendezvous.Service.start_cases ⟨service, env.journal⟩ env.now env.routing with
        hsame | hbegun
      · rw [hsame]
      · rw [hbegun]
        exact .single (.publish ⟨service, env.journal⟩ env.now)
    exact .of_set hplace hsteps rfl fun _ h => h
  · rename_i mechanism hplace
    exact .of_step hplace (.scripted _ _) rfl fun _ h => h

/-- A mechanism is stopped in steps. -/
theorem goes_stop (place : Nat) : env.Goes (env.stop place).2 := by
  unfold stop
  split
  · exact .of_mechanisms rfl fun _ h => h
  · rename_i service hplace
    exact .of_step hplace (.localNet service service.queue [] false) rfl
      fun _ h => ScopeTree.is_cancelled_cancel_of _ h
  · exact .of_mechanisms rfl fun _ h => ScopeTree.is_cancelled_cancel_of _ h
  · rename_i service hplace
    exact .of_step hplace (.close service env.routing) rfl
      fun _ h => ScopeTree.is_cancelled_cancel_of _ h
  · rename_i mechanism hplace
    exact .of_step hplace (.scripted _ _) rfl fun _ h => h

/-- A query begins in steps of the mechanism that it asks. -/
theorem goes_find (place : Nat) (scope : Scope) (limit : Nat) :
    env.Goes (env.find place scope limit).2 := by
  unfold find
  split
  · exact .of_mechanisms rfl fun _ h => h
  · rename_i service hplace
    exact .of_step hplace (.localNet service service.queue.enter.2 _ _) rfl fun _ h => h
  · rename_i service hplace
    exact .of_step hplace (env.sweep_step service) rfl fun _ h => h
  · exact .of_mechanisms rfl fun _ h => h
  · rename_i mechanism hplace
    exact .of_step hplace (.scripted _ _) rfl fun _ h => h

/-- The background work of a mechanism goes on in steps. -/
theorem goes_advance_mechanism (place : Nat) : env.Goes (env.advanceMechanism place).1 := by
  unfold advanceMechanism
  split
  · rename_i service hplace
    exact .of_step hplace (.localNet service _ _ service.bound) rfl fun _ h => h
  · rename_i service hplace
    obtain ⟨labels, hpath⟩ := Seed.Scene.advance_path
      { service := service
        transport := env.transport
        journal := env.journal
        now := env.now
        stopping := env.tree.isCancelled service.shutdown }
      (env.moment service.shutdown) rfl rfl
    exact .of_step hplace (.seeds _ labels _ hpath rfl) rfl fun _ h => h
  · rename_i service hplace
    refine .of_set hplace ?_ rfl fun _ h => h
    refine Activity.run_option_keeps
      (motive := fun _ publisher => Relation.ReflTransGen (Mechanism.Step env.tree)
        (.rendezvous service) (.rendezvous { service with publisher := publisher }))
      ?_ _ service.publisher .refl
    intro routing publisher after next hsteps hstep
    exact hsteps.tail (.publisher _ publisher (env.moment service.shutdown) routing after next rfl rfl
      hstep)
  · exact .of_mechanisms rfl fun _ h => h
  · exact .of_mechanisms rfl fun _ h => h

/-- The background work of several mechanisms goes on in steps. -/
theorem goes_advance_places (places : List Nat) : env.Goes (env.advancePlaces places).1 := by
  induction places generalizing env with
  | nil => exact .of_mechanisms rfl fun _ h => h
  | cons place rest ih =>
      exact (env.goes_advance_mechanism place).trans (ih (env.advanceMechanism place).1)

/-- All background work goes on in steps. -/
theorem goes_advance : env.Goes env.advance.1 := by
  have hlinks := @Activity.run_all_keeps _ _ Link.step
    (fun tree _ => ∀ token, env.tree.isCancelled token = true →
      tree.isCancelled token = true) ?_ env.tree [] env.links fun _ h => h
  · have hlinked : env.Goes { env with
        tree := (Activity.runAll Link.step env.tree env.links).1
        links := (Activity.runAll Link.step env.tree env.links).2.1 } := .of_mechanisms rfl hlinks
    exact hlinked.trans (goes_advance_places _ _)
  · intro tree before link later after next hkept hstep token htoken
    unfold Link.step at hstep
    split_ifs at hstep <;> cases hstep
    · exact ScopeTree.is_cancelled_cancel_of _ (hkept token htoken)
    · exact hkept token htoken

end Environment

namespace Search

variable {env after : Environment}

/-- A query goes on in steps of mechanisms. -/
theorem goes_step {search : Search} {next : Search ⊕ Except Error (List Sighting)}
    (hstep : search.step env = some (after, next)) : env.Goes after := by
  cases search with
  | answered result =>
      cases hstep
      exact .of_mechanisms rfl fun _ h => h
  | scripted due result =>
      simp only [step] at hstep
      split_ifs at hstep
      cases hstep
      exact .of_mechanisms rfl fun _ h => h
  | drain place call =>
      simp only [step] at hstep
      split at hstep
      · cases hstep
        exact .of_mechanisms rfl fun _ h => h
      · rename_i service hservice
        obtain ⟨_, -, heq⟩ := Option.map_eq_some_iff.1 hstep
        cases heq
        exact .of_step (Environment.mechanism_of_local_net hservice) (.localNet service _ _ _) rfl
          fun _ h => h
  | lookup call =>
      obtain ⟨_, -, heq⟩ := Option.map_eq_some_iff.1 hstep
      cases heq
      exact .of_mechanisms rfl fun _ h => h

/-- A query is given up in steps of mechanisms. -/
theorem goes_abandon (search : Search) (env : Environment) : env.Goes (search.abandon env) := by
  cases search with
  | answered | scripted | lookup => exact .of_mechanisms rfl fun _ h => h
  | drain place call =>
      simp only [abandon]
      split
      · exact .of_mechanisms rfl fun _ h => h
      · rename_i service hservice
        exact .of_step (Environment.mechanism_of_local_net hservice) (.localNet service _ _ _) rfl
          fun _ h => h

end Search

end PeerFinder
