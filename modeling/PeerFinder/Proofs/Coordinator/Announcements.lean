import Mathlib.Data.List.Count
import PeerFinder.Proofs.Coordinator.Interleaving

/-!
# Announcements of new peers

A peer is announced exactly when a record of it is created. `Node.Ledger` is a path of a coordinator
with what was created and what was evicted along it, read off the stores before and after every step.
`Node.announced_once_per_creation` says that an observer which was there from the beginning is told
of each creation, in order and of nothing else, and that this node itself is never taken in.
-/

namespace PeerFinder

namespace PeerStore

variable {store : PeerStore} {sighting : Sighting} {source : String} {now : Clock.Instant}

/-- Whether a store holds a record of a peer. -/
def Has (store : PeerStore) (id : PeerId) : Prop :=
  (store.get? id).isSome = true

/-- Whether a store holds a record can be looked up. -/
instance (store : PeerStore) (id : PeerId) : Decidable (store.Has id) :=
  inferInstanceAs (Decidable (_ = true))

/-- With a record put in, a store holds that one and those it held. -/
theorem has_insert (store : PeerStore) (id other : PeerId) (record : PeerRecord) :
    Has { store with records := store.records.insert id record } other ↔
      other = id ∨ store.Has other := by
  unfold Has get?
  rw [Std.ExtTreeMap.getElem?_insert]
  by_cases heq : compare id other = .eq
  · have hsame := Std.LawfulEqOrd.eq_of_compare heq
    simp [hsame]
  · have hne : other ≠ id := by
      intro hsame
      exact heq (hsame ▸ Std.ReflCmp.compare_self)
    simp [heq, hne]

/-- With a record put in place of another one of the same peer, a store holds what it held. -/
theorem has_insert_of_has {id : PeerId} (hhas : store.Has id) (other : PeerId)
    (record : PeerRecord) :
    Has { store with records := store.records.insert id record } other ↔ store.Has other := by
  rw [has_insert]
  constructor
  · intro h
    rcases h with rfl | hother
    · exact hhas
    · exact hother
  · exact Or.inr

/-- A connection outcome adds and removes no peer. -/
theorem has_update_status (store : PeerStore) (id other : PeerId) (status : PeerStatus)
    (error : Option String) (now : Clock.Instant) :
    (store.updateStatus id status error now).2.Has other ↔ store.Has other := by
  unfold updateStatus
  cases hrecord : store.get? id with
  | none => rfl
  | some record =>
      exact has_insert_of_has (by rw [Has, hrecord]; rfl) other _

/-- An eviction adds no peer. -/
theorem has_of_has_evict {id : PeerId} (h : (store.evict now).2.Has id) : store.Has id := by
  unfold Has get? evict at *
  rw [Std.ExtTreeMap.getElem?_filter'] at h
  cases hrecord : store.records[id]? with
  | none => rw [hrecord] at h; cases h
  | some record => rfl

/-- The peers of a store are those it holds a record of. -/
theorem mem_keys_iff (store : PeerStore) (id : PeerId) :
    id ∈ store.records.keys ↔ store.Has id := by
  rw [Std.ExtTreeMap.mem_keys, Has, get?, Std.ExtTreeMap.isSome_getElem?_iff_mem]

/-- What becomes of a sighting: a record is created, or none is added. -/
theorem add_or_update_cases (store : PeerStore) (sighting : Sighting) (source : String)
    (now : Clock.Instant) :
    ((store.addOrUpdate sighting source now).1 = .inserted ∧ ¬ store.Has sighting.id ∧
        ∀ id, (store.addOrUpdate sighting source now).2.Has id ↔
          id = sighting.id ∨ store.Has id) ∨
      ((store.addOrUpdate sighting source now).1 ≠ .inserted ∧
        ∀ id, (store.addOrUpdate sighting source now).2.Has id ↔ store.Has id) := by
  unfold addOrUpdate
  cases hrecord : store.get? sighting.id with
  | some record =>
      have hhas : store.Has sighting.id := by
        rw [Has, hrecord]
        rfl
      exact .inr ⟨nofun, fun id => has_insert_of_has hhas id _⟩
  | none =>
      by_cases hfull : store.limits.maxPeers ≤ store.size
      · dsimp only
        rw [if_pos hfull]
        exact .inr ⟨nofun, fun id => Iff.rfl⟩
      · dsimp only
        rw [if_neg hfull]
        refine .inl ⟨rfl, ?_, fun id => has_insert store sighting.id id _⟩
        rw [Has, hrecord]
        nofun

end PeerStore

namespace Coordinator.Intake

/-- Whether an intake came from another one without taking a peer in or announcing one. -/
structure Follows (before after : Intake) : Prop where
  local_eq : after.localId = before.localId
  has_of_has : ∀ id, after.store.Has id → before.store.Has id
  observers_mono : ∃ more, after.observers = before.observers ++ more
  observations_eq : after.observations = before.observations
  events : ∀ subscription ∈ after.subscriptions, ∀ event ∈ subscription.events,
    ∃ held ∈ before.subscriptions, event ∈ held.events
  dials : ∀ dial ∈ after.dials, ∃ held ∈ before.dials, dial.peer = held.peer

/-- An intake follows itself. -/
theorem Follows.refl (intake : Intake) : Follows intake intake where
  local_eq := rfl
  has_of_has _ h := h
  observers_mono := ⟨[], (List.append_nil _).symm⟩
  observations_eq := rfl
  events subscription h _ hevent := ⟨subscription, h, hevent⟩
  dials dial h := ⟨dial, h, rfl⟩

/-- An intake follows one that differs from it only by a store with no more peers. -/
theorem Follows.of_store {intake : Intake} {store : PeerStore}
    (hstore : ∀ id, store.Has id → intake.store.Has id) :
    Follows intake { intake with store := store } where
  local_eq := rfl
  has_of_has := hstore
  observers_mono := ⟨[], (List.append_nil _).symm⟩
  observations_eq := rfl
  events subscription h _ hevent := ⟨subscription, h, hevent⟩
  dials dial h := ⟨dial, h, rfl⟩

/-- What a recorder writes down of an event. -/
def noted? (now : Clock.Instant) (event : Event) : Observer → Option Observation
  | .recorder name => some ⟨name, now, event⟩
  | .autoConnect _ => none

/-- The dial that an observer begins for an event. -/
def dialed? (event : Event) : Observer → Option AutoConnect
  | .autoConnect timeout => some { peer := event.sighting.info, timeout := timeout }
  | .recorder _ => none

/-- Telling observers writes the event down and begins dials, and changes nothing else. -/
theorem foldl_tell (now : Clock.Instant) (event : Event) (observers : List Observer)
    (intake : Intake) :
    observers.foldl (tell now event) intake =
      { intake with
        observations := intake.observations ++ observers.filterMap (noted? now event)
        dials := intake.dials ++ observers.filterMap (dialed? event) } := by
  induction observers generalizing intake with
  | nil => simp
  | cons observer rest ih =>
      rw [List.foldl_cons, ih]
      cases observer with
      | autoConnect timeout => simp [tell, noted?, dialed?, List.filterMap_cons]
      | recorder name => simp [tell, noted?, dialed?, List.filterMap_cons]

/-- An announcement writes the event down and begins dials, and hands the event over to every
subscription. -/
theorem announce_eq (intake : Intake) (now : Clock.Instant) (event : Event) :
    intake.announce now event =
      { intake with
        observations := intake.observations ++ intake.observers.filterMap (noted? now event)
        dials := intake.dials ++ intake.observers.filterMap (dialed? event)
        subscriptions := intake.subscriptions.map (·.deliver event) } := by
  rw [announce, foldl_tell]

/-- A subscription holds what it held and what is handed over to it. -/
theorem mem_deliver {subscription : Subscription} {event other : Event}
    (h : other ∈ (subscription.deliver event).events) :
    other = event ∨ other ∈ subscription.events := by
  simp only [Subscription.deliver] at h
  have hmem := List.mem_of_mem_drop h
  rw [List.mem_append, List.mem_singleton] at hmem
  exact hmem.symm

/-- Whether an intake came from another one by the creation of a record and its announcement. -/
structure Creates (before after : Intake) (now : Clock.Instant) (event : Event) : Prop where
  ne_local : event.sighting.id ≠ before.localId
  absent : ¬ before.store.Has event.sighting.id
  local_eq : after.localId = before.localId
  has_iff : ∀ id, after.store.Has id ↔ id = event.sighting.id ∨ before.store.Has id
  observers_eq : after.observers = before.observers
  observations_eq : after.observations =
    before.observations ++ before.observers.filterMap (noted? now event)
  events : ∀ subscription ∈ after.subscriptions, ∀ other ∈ subscription.events,
    other = event ∨ ∃ held ∈ before.subscriptions, other ∈ held.events
  dials : ∀ dial ∈ after.dials,
    dial.peer = event.sighting.info ∨ ∃ held ∈ before.dials, dial.peer = held.peer

/-- A store with a new record and its announcement are a creation. -/
theorem creates_announce {intake : Intake} {now : Clock.Instant} {event : Event}
    {store : PeerStore} (hlocal : event.sighting.id ≠ intake.localId)
    (habsent : ¬ intake.store.Has event.sighting.id)
    (hstore : ∀ id, store.Has id ↔ id = event.sighting.id ∨ intake.store.Has id) :
    Creates intake (announce { intake with store := store } now event) now event := by
  rw [announce_eq]
  refine ⟨hlocal, habsent, rfl, hstore, rfl, rfl, ?_, ?_⟩
  · intro subscription hsubscription other hother
    obtain ⟨held, hheld, rfl⟩ := List.mem_map.1 hsubscription
    exact (mem_deliver hother).imp_right fun hmem => ⟨held, hheld, hmem⟩
  · intro dial hdial
    rcases List.mem_append.1 hdial with hheld | hbegun
    · exact .inr ⟨dial, hheld, rfl⟩
    · obtain ⟨observer, -, hdialed⟩ := List.mem_filterMap.1 hbegun
      cases observer with
      | autoConnect timeout =>
          cases hdialed
          exact .inl rfl
      | recorder name => cases hdialed

/-- A sighting is rejected or merged, and then no peer is added or removed and nobody is told, or a
record of it is created. -/
theorem accept_cases (intake : Intake) (now : Clock.Instant) (sighting : Sighting)
    (source : String) :
    (Follows intake (intake.accept now sighting source).2 ∧
        ∀ id, intake.store.Has id → (intake.accept now sighting source).2.store.Has id) ∨
      Creates intake (intake.accept now sighting source).2 now ⟨sighting, source⟩ := by
  unfold accept
  by_cases hlocal : sighting.id = intake.localId
  · rw [if_pos hlocal]
    exact .inl ⟨.refl intake, fun id h => h⟩
  rw [if_neg hlocal]
  rcases intake.store.add_or_update_cases sighting source now with
    ⟨hinserted, habsent, hhas⟩ | ⟨hinserted, hhas⟩
  · simp only [hinserted, if_true]
    exact .inr (creates_announce hlocal habsent hhas)
  · simp only [hinserted, if_false]
    exact .inl ⟨.of_store fun id => (hhas id).1, fun id => (hhas id).2⟩

/-- Taking a sighting in removes no peer. -/
theorem has_accept {intake : Intake} {id : PeerId} (now : Clock.Instant) (sighting : Sighting)
    (source : String) (hhas : intake.store.Has id) :
    (intake.accept now sighting source).2.store.Has id := by
  rcases intake.accept_cases now sighting source with ⟨-, hkept⟩ | hcreates
  · exact hkept id hhas
  · exact (hcreates.has_iff id).2 (.inr hhas)

end Coordinator.Intake

/-- A step of a search takes no time. -/
theorem Search.step_now {search : Search} {env after : Environment}
    {next : Search ⊕ Except Error (List Sighting)}
    (hstep : search.step env = some (after, next)) : after.now = env.now := by
  unfold step at hstep
  cases search with
  | answered result =>
      cases hstep
      rfl
  | scripted due result =>
      dsimp only at hstep
      split at hstep <;> cases hstep
      rfl
  | drain place call =>
      dsimp only at hstep
      split at hstep
      · cases hstep
        rfl
      · obtain ⟨_, -, heq⟩ := Option.map_eq_some_iff.1 hstep
        cases heq
        rfl
  | lookup call =>
      obtain ⟨_, -, heq⟩ := Option.map_eq_some_iff.1 hstep
      cases heq
      rfl

/-- A step of an evictor adds no peer to the store. -/
theorem Evictor.step_has {moment : Moment} {evictor : Evictor} {store after : Noted PeerStore}
    {next : Option Evictor} (hstep : evictor.step moment store = some (after, next)) (id : PeerId)
    (hhas : after.state.Has id) : store.state.Has id := by
  unfold step at hstep
  cases evictor with
  | ready =>
      dsimp only at hstep
      split at hstep <;> cases hstep <;> exact hhas
  | waiting ticker =>
      dsimp only at hstep
      split at hstep
      · cases hstep
        exact hhas
      · obtain ⟨_, -, heq⟩ := Option.map_eq_some_iff.1 hstep
        cases heq
        exact PeerStore.has_of_has_evict hhas

/-- A step of a dial adds and removes no peer, and the dial stays one of the same peer. -/
theorem AutoConnect.step_has {now : Clock.Instant} {dial : AutoConnect}
    {noted after : Noted (Transport × PeerStore)} {next : Option AutoConnect}
    (hstep : dial.step now noted = some (after, next)) :
    (∀ id, after.state.2.Has id ↔ noted.state.2.Has id) ∧
      ∀ moved, next = some moved → moved.peer = dial.peer := by
  unfold step at hstep
  cases hcall : dial.call with
  | none =>
      simp only [hcall] at hstep
      cases hstep
      refine ⟨fun id => Iff.rfl, ?_⟩
      intro moved hmoved
      cases hmoved
      rfl
  | some call =>
      simp only [hcall] at hstep
      obtain ⟨_, -, heq⟩ := Option.map_eq_some_iff.1 hstep
      cases heq
      exact ⟨fun id => PeerStore.has_update_status _ _ id _ _ _, nofun⟩

namespace Coordinator

/-- A step of a reporter leaves the store alone. -/
theorem Reporter.step_state {schedule : Schedule} {moment : Moment} {reporter : Reporter}
    {store after : Noted PeerStore} {next : Option Reporter}
    (hstep : reporter.step schedule moment store = some (after, next)) :
    after.state = store.state := by
  unfold step at hstep
  cases hloop : reporter.loop with
  | ready =>
      simp only [hloop] at hstep
      split at hstep <;> cases hstep <;> rfl
  | waiting ticker =>
      simp only [hloop] at hstep
      split at hstep
      · cases hstep
        rfl
      · obtain ⟨_, -, heq⟩ := Option.map_eq_some_iff.1 hstep
        cases heq
        rfl

/-- A step of a query leaves the intake alone, but for the sighting it was about to take in. -/
theorem Query.step_intake {query : Query} {moment : Moment}
    {answer? : Option (Except Error (List Sighting))} {intake after : Noted Intake}
    {next : Option Query} (hstep : query.step moment answer? intake = some (after, next)) :
    after.state = intake.state ∨ ∃ sighting rest found new,
      query.point = .accepting sighting rest found new ∧
        after.state = (intake.state.accept moment.now sighting query.mechanism).2 := by
  unfold step at hstep
  cases hpoint : query.point with
  | ready =>
      simp only [hpoint] at hstep
      split at hstep <;> cases hstep <;> exact .inl rfl
  | asking expires =>
      simp only [hpoint] at hstep
      split at hstep
      · cases hstep
        exact .inl rfl
      · split at hstep
        · cases hstep
          exact .inl rfl
        · cases hstep
          exact .inl rfl
        · split at hstep <;> cases hstep
          exact .inl rfl
  | ingesting rest found new =>
      cases rest with
      | nil =>
          simp only [hpoint] at hstep
          split at hstep <;> cases hstep <;> exact .inl rfl
      | cons sighting rest =>
          simp only [hpoint] at hstep
          split at hstep <;> cases hstep <;> exact .inl rfl
  | accepting sighting rest found new =>
      simp only [hpoint] at hstep
      cases hstep
      exact .inr ⟨sighting, rest, found, new, rfl, rfl⟩

namespace Errand

variable {errand : Errand} {token : Token} {env after : Environment} {intake taken : Intake}
  {next : Option Errand}

/-- What a query does to the intake of its errand. -/
theorem step_query_intake {answer? : Option (Except Error (List Sighting))}
    (hstep : errand.stepQuery token answer? (env, intake) = some ((after, taken), next)) :
    taken = intake ∨ ∃ sighting source, errand.taking? = some (sighting, source) ∧
      taken = (intake.accept env.now sighting source).2 := by
  obtain ⟨⟨noted, query?⟩, hquery, heq⟩ := Option.map_eq_some_iff.1 hstep
  have htaken : taken = noted.state := by
    dsimp only at heq
    split at heq
    · cases heq
      rfl
    · cases heq
      rfl
  rw [htaken]
  refine (Query.step_intake hquery).imp_right ?_
  intro haccept
  obtain ⟨sighting, rest, found, new, hpoint, hstate⟩ := haccept
  exact ⟨sighting, errand.query.mechanism, by rw [taking?, hpoint], hstate⟩

/-- A step of an errand leaves the intake alone, but for the sighting it was about to take in. -/
theorem step_intake
    (hstep : errand.step token (env, intake) = some ((after, taken), next)) :
    taken = intake ∨ ∃ sighting source, errand.taking? = some (sighting, source) ∧
      taken = (intake.accept env.now sighting source).2 := by
  unfold step at hstep
  cases hsearch : errand.search with
  | none =>
      simp only [hsearch] at hstep
      exact step_query_intake hstep
  | some search =>
      simp only [hsearch] at hstep
      split at hstep
      · exact step_query_intake hstep
      · split at hstep
        · exact step_query_intake hstep
        · cases hstep
          exact .inl rfl
        · rename_i hanswer
          rw [← Search.step_now hanswer]
          exact step_query_intake hstep

end Errand

namespace Node

variable {node middle after : Node} {label : Label}

/-- A step takes nothing in and announces nothing, or a record is created of the sighting that it is
about. -/
theorem Step.intake_cases (hstep : Step node label after) :
    node.intake.Follows after.intake ∨ ∃ sighting source,
      label.sighting? = some (sighting, source) ∧
        node.intake.Creates after.intake node.env.now ⟨sighting, source⟩ := by
  cases hstep with
  | query before errand later env intake next herrands hnext =>
      rcases Errand.step_intake hnext with hsame | ⟨sighting, source, htaking, htaken⟩
      · subst hsame
        exact .inl (.refl node.intake)
      · subst htaken
        exact (node.intake.accept_cases node.env.now sighting source).imp And.left
          fun hcreates => ⟨sighting, source, htaking, hcreates⟩
  | found sighting source =>
      exact (node.intake.accept_cases node.env.now sighting source).imp And.left
        fun hcreates => ⟨sighting, source, rfl, hcreates⟩
  | evictor heedsStop evictor store next hevictor hnext =>
      exact .inl (.of_store (Evictor.step_has hnext))
  | reporter heedsStop reporter store next hreporter hnext =>
      have hstate : store.state = node.intake.store := Reporter.step_state hnext
      exact .inl (.of_store fun id hhas => hstate ▸ hhas)
  | dial before dial later noted next hdials hnext =>
      obtain ⟨hhas, hpeer⟩ := AutoConnect.step_has hnext
      have hkept := Intake.Follows.of_store fun id => (hhas id).1
      refine .inl { hkept with dials := ?_ }
      intro other hother
      rw [hdials]
      rcases List.mem_append.1 hother with hother | hother
      · rcases List.mem_append.1 hother with hother | hother
        · exact ⟨other, List.mem_append_left _ hother, rfl⟩
        · exact ⟨dial, List.mem_append_right _ List.mem_cons_self,
            hpeer other (Option.mem_toList.1 hother)⟩
      · exact ⟨other, List.mem_append_right _ (List.mem_cons_of_mem _ hother), rfl⟩
  | status id status error =>
      exact .inl (.of_store fun other => (PeerStore.has_update_status _ id other _ _ _).1)
  | evict => exact .inl (.of_store fun id => PeerStore.has_of_has_evict)
  | observe observer =>
      exact .inl { Intake.Follows.refl node.intake with observers_mono := ⟨[observer], rfl⟩ }
  | subscriptions subscriptions hevents =>
      exact .inl { Intake.Follows.refl node.intake with events := hevents }
  | surroundings | sweep | start | startup | stop | shutdown => exact .inl (.refl node.intake)

/-- Only evictions remove records. -/
theorem Step.has_of_has (hstep : Step node label after) (hlabel : label ≠ .eviction) {id : PeerId}
    (hhas : node.intake.store.Has id) : after.intake.store.Has id := by
  cases hstep with
  | query before errand later env intake next herrands hnext =>
      rcases Errand.step_intake hnext with hsame | ⟨sighting, source, -, htaken⟩
      · subst hsame
        exact hhas
      · subst htaken
        exact Intake.has_accept node.env.now sighting source hhas
  | found sighting source => exact Intake.has_accept node.env.now sighting source hhas
  | evictor | evict => exact absurd rfl hlabel
  | reporter heedsStop reporter store next hreporter hnext =>
      have hstate : store.state = node.intake.store := Reporter.step_state hnext
      show store.state.Has id
      rw [hstate]
      exact hhas
  | dial before dial later noted next hdials hnext =>
      exact ((AutoConnect.step_has hnext).1 id).2 hhas
  | status other status error => exact (PeerStore.has_update_status _ other id _ _ _).2 hhas
  | surroundings | sweep | observe | subscriptions | start | startup | stop | shutdown => exact hhas

/-- What a step creates, with the time: the sighting that it is about, if there is no record of the
peer before it and one after it. -/
def creation? (before : Node) (label : Label) (after : Node) : Option (Clock.Instant × Event) :=
  label.sighting?.bind fun (sighting, source) =>
    if before.intake.store.Has sighting.id ∨ ¬ after.intake.store.Has sighting.id then none
    else some (before.env.now, ⟨sighting, source⟩)

/-- The peers of which there is a record before a step and none after it. -/
def removals (before after : Node) : List PeerId :=
  before.intake.store.records.keys.filter fun id => ¬ after.intake.store.Has id

/-- Only evictions have removals. -/
theorem Step.removals_eq_nil (hstep : Step node label after) (hlabel : label ≠ .eviction) :
    removals node after = [] := by
  rw [removals, List.filter_eq_nil_iff]
  intro id hid
  have hhas := hstep.has_of_has hlabel ((PeerStore.mem_keys_iff _ id).1 hid)
  simpa using hhas

/-- A path with all that was created, in order, and all peers whose records were removed. -/
inductive Ledger : Node → List (Clock.Instant × Event) → List PeerId → Node → Prop where
  | refl (node : Node) : Ledger node [] [] node
  | step (node : Node) (created : List (Clock.Instant × Event)) (removed : List PeerId)
      (middle : Node) (label : Label) (after : Node)
      (hledger : Ledger node created removed middle) (hstep : Step middle label after) :
      Ledger node (created ++ (creation? middle label after).toList)
        (removed ++ removals middle after) after

/-- Every path has a ledger. -/
theorem Path.exists_ledger {labels : List Label} (hpath : Path node labels after) :
    ∃ created removed, Ledger node created removed after := by
  induction hpath with
  | refl => exact ⟨[], [], .refl node⟩
  | step _ _ _ _ _ hstep ih =>
      obtain ⟨created, removed, hledger⟩ := ih
      exact ⟨_, _, .step _ _ _ _ _ _ hledger hstep⟩

/-- Nothing is created by a step that takes nothing in. -/
theorem creation_of_follows (hfollows : middle.intake.Follows after.intake) (label : Label) :
    creation? middle label after = none := by
  unfold creation?
  cases label.sighting? with
  | none => rfl
  | some taking =>
      refine if_pos ?_
      by_cases hhas : after.intake.store.Has taking.1.id
      · exact .inl (hfollows.has_of_has _ hhas)
      · exact .inr hhas

/-- The creation of a record is what a step creates. -/
theorem creation_of_creates {sighting : Sighting} {source : String}
    (hsighting : label.sighting? = some (sighting, source))
    (hcreates : middle.intake.Creates after.intake middle.env.now ⟨sighting, source⟩) :
    creation? middle label after = some (middle.env.now, ⟨sighting, source⟩) := by
  unfold creation?
  rw [hsighting, Option.bind_some]
  refine if_neg ?_
  rw [not_or, not_not]
  exact ⟨hcreates.absent, (hcreates.has_iff _).2 (.inl rfl)⟩

/-- A peer is removed at most once by a step. -/
theorem count_removals (before after : Node) (id : PeerId) :
    (removals before after).count id =
      if before.intake.store.Has id ∧ ¬ after.intake.store.Has id then 1 else 0 := by
  have hnodup : (removals before after).Nodup :=
    (Std.ExtTreeMap.nodup_keys (t := before.intake.store.records)).filter _
  rw [List.Nodup.count hnodup]
  simp only [removals, List.mem_filter, PeerStore.mem_keys_iff, decide_eq_true_eq]

/-- Whether nothing was taken in or announced yet. -/
structure IsUnused (node : Node) : Prop where
  absent : ∀ id, ¬ node.intake.store.Has id
  observations_eq : node.intake.observations = []
  events_eq : ∀ subscription ∈ node.intake.subscriptions, subscription.events = []
  dials_eq : node.intake.dials = []

/-- How a ledger and what was announced along it fit together. -/
structure Balances (node : Node) (created : List (Clock.Instant × Event)) (removed : List PeerId)
    (after : Node) : Prop where
  local_eq : after.intake.localId = node.intake.localId
  observers_mono : ∃ more, after.intake.observers = node.intake.observers ++ more
  not_local : ∀ entry ∈ created, entry.2.sighting.id ≠ node.intake.localId
  balance : ∀ id, created.countP (fun entry => entry.2.sighting.id = id) =
    removed.count id + if after.intake.store.Has id then 1 else 0
  observed : ∀ observation ∈ after.intake.observations,
    (observation.time, observation.event) ∈ created
  events : ∀ subscription ∈ after.intake.subscriptions, ∀ event ∈ subscription.events,
    ∃ time, (time, event) ∈ created
  dials : ∀ dial ∈ after.intake.dials, ∃ entry ∈ created, dial.peer = entry.2.sighting.info
  heard : ∀ name, node.intake.observers.count (.recorder name) = 1 →
    after.intake.observers.count (.recorder name) = 1 →
    after.intake.observations.filter (·.observer = name) =
      created.map fun entry => ⟨name, entry.1, entry.2⟩

namespace Balances

/-- Nothing was created or announced by a node that was not used. -/
theorem refl (hunused : node.IsUnused) : Balances node [] [] node where
  local_eq := rfl
  observers_mono := ⟨[], (List.append_nil _).symm⟩
  not_local := nofun
  balance id := by simp [hunused.absent id]
  observed := by simp [hunused.observations_eq]
  events subscription hsubscription event hevent := by
    rw [hunused.events_eq subscription hsubscription] at hevent
    cases hevent
  dials := by simp [hunused.dials_eq]
  heard := by simp [hunused.observations_eq]

variable {created : List (Clock.Instant × Event)} {removed : List PeerId}

/-- A step that takes nothing in keeps the balance. -/
theorem of_follows (h : Balances node created removed middle)
    (hfollows : middle.intake.Follows after.intake) :
    Balances node created (removed ++ removals middle after) after where
  local_eq := hfollows.local_eq.trans h.local_eq
  observers_mono := by
    obtain ⟨first, hfirst⟩ := h.observers_mono
    obtain ⟨more, hmore⟩ := hfollows.observers_mono
    exact ⟨first ++ more, by rw [hmore, hfirst, List.append_assoc]⟩
  not_local := h.not_local
  balance id := by
    -- A record that is gone after the step counts as removed instead of present.
    rw [h.balance id, List.count_append, count_removals, Nat.add_assoc]
    congr 1
    have hmono := hfollows.has_of_has id
    by_cases hbefore : middle.intake.store.Has id <;>
      by_cases hafter : after.intake.store.Has id <;> simp [hbefore, hafter]
    exact hbefore (hmono hafter)
  observed := by rw [hfollows.observations_eq]; exact h.observed
  events subscription hsubscription event hevent := by
    obtain ⟨held, hheld, hmem⟩ := hfollows.events subscription hsubscription event hevent
    exact h.events held hheld event hmem
  dials dial hdial := by
    obtain ⟨held, hheld, hpeer⟩ := hfollows.dials dial hdial
    obtain ⟨entry, hentry, heq⟩ := h.dials held hheld
    exact ⟨entry, hentry, hpeer.trans heq⟩
  heard name hname honce := by
    -- Observers are only added, so a name that occurs once at the end did so in between.
    rw [hfollows.observations_eq]
    refine h.heard name hname ?_
    obtain ⟨first, hfirst⟩ := h.observers_mono
    obtain ⟨more, hmore⟩ := hfollows.observers_mono
    rw [hmore, List.count_append] at honce
    rw [hfirst, List.count_append] at honce ⊢
    omega

/-- A recorder writes an event down as often as it is registered. -/
theorem filter_noted (now : Clock.Instant) (event : Event) (name : String)
    (observers : List Observer) :
    (observers.filterMap (Intake.noted? now event)).filter (·.observer = name) =
      List.replicate (observers.count (.recorder name)) ⟨name, now, event⟩ := by
  induction observers with
  | nil => rfl
  | cons observer rest ih =>
      cases observer with
      | autoConnect timeout =>
          have hne : Observer.autoConnect timeout ≠ .recorder name := nofun
          rw [List.filterMap_cons_none rfl, ih, List.count_cons_of_ne hne]
      | recorder other =>
          have hnoted : Intake.noted? now event (.recorder other) = some ⟨other, now, event⟩ := rfl
          rw [List.filterMap_cons_some hnoted, List.filter_cons]
          by_cases hother : other = name
          · subst hother
            simp [ih, List.replicate_succ]
          · simp [hother, ih]

/-- The creation of a record and its announcement keep the balance. -/
theorem of_creates (h : Balances node created removed middle) {now : Clock.Instant} {event : Event}
    (hcreates : middle.intake.Creates after.intake now event) :
    Balances node (created ++ [(now, event)]) (removed ++ removals middle after) after where
  local_eq := hcreates.local_eq.trans h.local_eq
  observers_mono := by
    rw [hcreates.observers_eq]
    exact h.observers_mono
  not_local entry hentry := by
    rcases List.mem_append.1 hentry with hentry | hentry
    · exact h.not_local entry hentry
    · obtain rfl := List.mem_singleton.1 hentry
      rw [← h.local_eq]
      exact hcreates.ne_local
  balance id := by
    rw [List.countP_append, h.balance id, List.count_append, count_removals]
    have hhas := hcreates.has_iff id
    have habsent := hcreates.absent
    by_cases hid : id = event.sighting.id
    · subst hid
      simp [hhas, habsent]
    · have hne : event.sighting.id ≠ id := Ne.symm hid
      by_cases hbefore : middle.intake.store.Has id <;> simp [hhas, hid, hne, hbefore]
  observed observation hobservation := by
    rw [hcreates.observations_eq] at hobservation
    rcases List.mem_append.1 hobservation with hold | hnew
    · exact List.mem_append_left _ (h.observed observation hold)
    · obtain ⟨observer, -, hnoted⟩ := List.mem_filterMap.1 hnew
      cases observer with
      | autoConnect timeout => cases hnoted
      | recorder name =>
          cases hnoted
          exact List.mem_append_right _ (List.mem_singleton_self _)
  events subscription hsubscription other hother := by
    rcases hcreates.events subscription hsubscription other hother with rfl | ⟨held, hheld, hmem⟩
    · exact ⟨now, List.mem_append_right _ (List.mem_singleton_self _)⟩
    · obtain ⟨time, htime⟩ := h.events held hheld other hmem
      exact ⟨time, List.mem_append_left _ htime⟩
  dials dial hdial := by
    rcases hcreates.dials dial hdial with hpeer | ⟨held, hheld, hpeer⟩
    · exact ⟨_, List.mem_append_right _ (List.mem_singleton_self _), hpeer⟩
    · obtain ⟨entry, hentry, heq⟩ := h.dials held hheld
      exact ⟨entry, List.mem_append_left _ hentry, hpeer.trans heq⟩
  heard name hname honce := by
    rw [hcreates.observers_eq] at honce
    rw [hcreates.observations_eq, List.filter_append, h.heard name hname honce, filter_noted,
      honce, List.map_append]
    rfl

end Balances

/-- Every ledger of a node that was not used before balances. -/
theorem Ledger.balances {created : List (Clock.Instant × Event)} {removed : List PeerId}
    (hledger : Ledger node created removed after) (hunused : node.IsUnused) :
    Balances node created removed after := by
  induction hledger with
  | refl => exact .refl hunused
  | step created removed middle label after hledger hstep ih =>
      rcases hstep.intake_cases with hfollows | ⟨sighting, source, hsighting, hcreates⟩
      · rw [creation_of_follows hfollows, Option.toList_none, List.append_nil]
        exact ih.of_follows hfollows
      · rw [creation_of_creates hsighting hcreates, Option.toList_some]
        exact ih.of_creates hcreates

/-- An observer that is there from the beginning is told exactly of what was created, in order. For
every peer it is told as often as a record of the peer was removed, and once more if there is one
now. A step that creates nothing announces nothing, and only evictions remove records. This node
itself is neither in the store nor announced. -/
theorem announced_once_per_creation (hunused : node.IsUnused)
    {created : List (Clock.Instant × Event)} {removed : List PeerId}
    (hledger : Ledger node created removed after) :
    (∀ name, node.intake.observers.count (.recorder name) = 1 →
      after.intake.observers.count (.recorder name) = 1 →
      after.intake.observations.filter (·.observer = name) =
          created.map (fun entry => ⟨name, entry.1, entry.2⟩) ∧
        ∀ id, (after.intake.observations.filter (·.observer = name)).countP
            (fun observation => observation.event.sighting.id = id) =
          removed.count id + if after.intake.store.Has id then 1 else 0) ∧
      (∀ label next, Step after label next → creation? after label next = none →
        after.intake.Follows next.intake) ∧
      (∀ label next, Step after label next → label ≠ .eviction → removals after next = []) ∧
      ¬ after.intake.store.Has node.intake.localId ∧
      (∀ observation ∈ after.intake.observations,
        observation.event.sighting.id ≠ node.intake.localId) ∧
      (∀ subscription ∈ after.intake.subscriptions, ∀ event ∈ subscription.events,
        event.sighting.id ≠ node.intake.localId) ∧
      (∀ dial ∈ after.intake.dials, dial.peer.id ≠ node.intake.localId) := by
  have h := hledger.balances hunused
  refine ⟨?_, ?_, ?_, ?_, ?_, ?_, ?_⟩
  · intro name hname honce
    have hheard := h.heard name hname honce
    refine ⟨hheard, fun id => ?_⟩
    rw [hheard, List.countP_map, ← h.balance id]
    rfl
  · intro label next hstep hnone
    rcases hstep.intake_cases with hfollows | ⟨sighting, source, hsighting, hcreates⟩
    · exact hfollows
    · rw [creation_of_creates hsighting hcreates] at hnone
      cases hnone
  · intro label next hstep hlabel
    exact hstep.removals_eq_nil hlabel
  · intro hhas
    -- A record of this node would have been created, as there was none at the beginning.
    have hbalance := h.balance node.intake.localId
    have hnone : created.countP (fun entry => entry.2.sighting.id = node.intake.localId) = 0 := by
      rw [List.countP_eq_zero]
      intro entry hentry
      simpa using h.not_local entry hentry
    rw [hnone, if_pos hhas] at hbalance
    omega
  · intro observation hobservation
    exact h.not_local _ (h.observed observation hobservation)
  · intro subscription hsubscription event hevent
    obtain ⟨time, htime⟩ := h.events subscription hsubscription event hevent
    exact h.not_local _ htime
  · intro dial hdial
    obtain ⟨entry, hentry, hpeer⟩ := h.dials dial hdial
    rw [hpeer]
    exact h.not_local entry hentry

/-- The node after two mechanisms found the peer, one after the other. -/
def foundTwice : Node :=
  let once : Node := { fresh with intake := (fresh.intake.accept 0 peer "canned").2 }
  { once with intake := (once.intake.accept 0 peer "other").2 }

/-- A peer that two mechanisms find is announced once, with the name of the first one. -/
theorem announced_once_per_creation_found_twice :
    fresh.IsUnused ∧ Ledger fresh [(0, ⟨peer, "canned"⟩)] [] foundTwice ∧
      foundTwice.intake.observations.filter (·.observer = "observer") =
        [⟨"observer", 0, ⟨peer, "canned"⟩⟩] := by
  have hunused : fresh.IsUnused := by
    refine ⟨fun id => ?_, rfl, nofun, rfl⟩
    simp [PeerStore.Has, PeerStore.get?, fresh]
  have hledger : Ledger fresh [(0, ⟨peer, "canned"⟩)] [] foundTwice :=
    .step _ _ _ _ _ _ (.step _ _ _ _ _ _ (.refl fresh) (.found fresh peer "canned"))
      (.found _ peer "other")
  refine ⟨hunused, hledger, ?_⟩
  exact ((announced_once_per_creation hunused hledger).1 "observer" (by decide) (by decide)).1

end Node

end Coordinator

end PeerFinder
