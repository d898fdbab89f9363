import Mathlib.Data.Nat.Find
import Mathlib.Order.WellFounded
import PeerFinder.Evictor
import PeerFinder.Proofs.PeerStore.Retention
import PeerFinder.Proofs.Ticks

/-!
# When stale records are evicted

An evictor works on a store that others use, until its scope is cancelled. `Upkeep.Step` is what can
happen, the passing of time included: time does not run past an instant at which the evictor goes on.
`Upkeep.Stage` says how many passes were made so far, and every step keeps it. So the passes are at the
ticks of the interval and each one is made, and a record that is stale and of low trust is evicted by
the first pass that is due after its retention, and not before (`Upkeep.Path.evicts_when_due`).
-/

namespace PeerFinder

namespace Evictor

variable {moment : Moment} {store after : Noted PeerStore} {ticker : Ticker} {next : Option Evictor}

/-- An evictor with an interval begins with a tick that is due after one interval. -/
theorem step_ready (hinterval : 0 < store.state.limits.evictionInterval) :
    step moment store .ready = some (store, some (.waiting
      (Ticker.deferred moment.now store.state.limits.evictionInterval .delay))) :=
  if_neg hinterval.ne'

/-- An evictor that waits ends by its stop, or makes a pass when a tick is due. -/
theorem step_waiting (hstep : step moment store (.waiting ticker) = some (after, next)) :
    next = none ∧ moment.stopping = true ∧ after.state = store.state ∨
      next = some (.waiting { ticker with due := ticker.next moment.now }) ∧
        ticker.due ≤ moment.now ∧ after.state = store.state.apply (.evicted moment.now) := by
  simp only [step] at hstep
  split at hstep
  · rename_i hstops
    cases hstep
    exact .inl ⟨rfl, (Bool.and_eq_true_iff.1 hstops).1, rfl⟩
  · obtain ⟨fired, hfired, heq⟩ := Option.map_eq_some_iff.1 hstep
    cases heq
    unfold Ticker.fire? at hfired
    split at hfired
    · rename_i hdue
      cases hfired
      exact .inr ⟨rfl, hdue, rfl⟩
    · cases hfired

/-- An evictor whose tick falls due makes a pass, unless it is stopped and heeds that. -/
theorem step_of_due {interval : Clock.Span} (hruns : moment.stops true = false)
    (store : Noted PeerStore) :
    step moment store (.waiting ⟨moment.now, interval, .delay⟩) =
      some ((pass moment.now store).2,
        some (.waiting ⟨Clock.after moment.now interval, interval, .delay⟩)) := by
  have hfire : Ticker.fire? ⟨moment.now, interval, .delay⟩ moment.now =
      some ⟨Clock.after moment.now interval, interval, .delay⟩ := by
    rw [Ticker.fire?, if_pos le_rfl, Ticker.next_of_due]
  simp only [step, hfire, Option.isSome_some, hruns]
  rfl

/-- An evictor waits exactly while it was not stopped and its tick is still to come. -/
theorem step_waiting_eq_none_iff :
    step moment store (.waiting ticker) = none ↔
      moment.stopping = false ∧ moment.now < ticker.due := by
  rw [← Ticker.fire_eq_none_iff]
  simp only [step]
  cases ticker.fire? moment.now <;> cases hstopping : moment.stopping <;>
    cases hheeds : moment.heedsStop <;> simp [Moment.stops, hstopping, hheeds]

end Evictor

/-- An evictor, if it has not ended, and its store, and when its scope was cancelled. -/
structure Upkeep where
  now : Clock.Instant
  store : Noted PeerStore
  evictor : Option Evictor
  cancelled : Option Clock.Instant := none

namespace Upkeep

open PeerStore (Change IsSpared)

/-- What happens to a store: others use it, or the evictor makes a pass. -/
inductive Event where
  | used (change : Change)
  | passed (now : Clock.Instant)

namespace Event

/-- What an event changes. -/
def change : Event → Change
  | .used change => change
  | .passed now => .evicted now

/-- When a pass is made. -/
def pass? : Event → Option Clock.Instant
  | .used _ => none
  | .passed now => some now

/-- Whether nothing is heard of a peer by an event, and nothing evicted but by a pass. -/
def IsQuiet (id : PeerId) : Event → Prop
  | .used change => change.entry? id = none ∧ ∀ now, change ≠ .evicted now
  | .passed _ => True

/-- By a quiet event nothing is heard of the peer. -/
theorem IsQuiet.entry_eq_none {id : PeerId} {event : Event} (h : event.IsQuiet id) :
    event.change.entry? id = none := by
  cases event with
  | used change => exact h.1
  | passed now => rfl

/-- A quiet event that evicts is a pass. -/
theorem IsQuiet.pass_of_evicted {id : PeerId} {event : Event} (h : event.IsQuiet id)
    {now : Clock.Instant} (hchange : event.change = .evicted now) : event.pass? = some now := by
  cases event with
  | used change => exact absurd hchange (h.2 now)
  | passed now =>
      cases hchange
      rfl

end Event

/-- When passes were made. -/
def passes (events : List Event) : List Clock.Instant :=
  events.filterMap Event.pass?

/-- The pass that a step of an evictor makes, given what is left of it. -/
def made (now : Clock.Instant) : Evictor → Option Evictor → List Event
  | .waiting _, some _ => [.passed now]
  | .waiting _, none | .ready, _ => []

/-- When the evictor was told to stop, or now. -/
def stop (upkeep : Upkeep) : Clock.Instant :=
  upkeep.cancelled.getD upkeep.now

/-- Whether a moment is now. -/
structure IsAt (upkeep : Upkeep) (moment : Moment) : Prop where
  now_eq : moment.now = upkeep.now
  stopping_eq : moment.stopping = upkeep.cancelled.isSome

/-- A moment that is now. -/
theorem is_at_present (upkeep : Upkeep) :
    upkeep.IsAt { now := upkeep.now, stopping := upkeep.cancelled.isSome } :=
  ⟨rfl, rfl⟩

/-- What can happen, with the events. -/
inductive Step : Upkeep → List Event → Upkeep → Prop where
  /-- The store is used. -/
  | use (upkeep : Upkeep) (change : Change) (journal : Journal) (hnow : change.now = upkeep.now) :
      Step upkeep [.used change] { upkeep with store := ⟨upkeep.store.state.apply change, journal⟩ }
  /-- The scope is cancelled, unless it was before. -/
  | cancel (upkeep : Upkeep) : Step upkeep [] { upkeep with cancelled := some upkeep.stop }
  /-- The evictor takes its next step. -/
  | go (upkeep : Upkeep) (moment : Moment) (evictor : Evictor) (store : Noted PeerStore)
      (next : Option Evictor) (hmoment : upkeep.IsAt moment) (hevictor : upkeep.evictor = some evictor)
      (hstep : evictor.step moment upkeep.store = some (store, next)) :
      Step upkeep (made moment.now evictor next) { upkeep with store := store, evictor := next }
  /-- Time passes while the evictor waits, up to when it goes on. -/
  | pass (upkeep : Upkeep) (later : Clock.Instant) (hlater : upkeep.now ≤ later)
      (hwaits : ∀ evictor ∈ upkeep.evictor, ∀ moment, upkeep.IsAt moment →
        evictor.step moment upkeep.store = none)
      (hwake : ∀ evictor ∈ upkeep.evictor, ∀ due ∈ evictor.wake, later ≤ due) :
      Step upkeep [] { upkeep with now := later }

/-- What happens one after another. -/
inductive Path (start : Upkeep) : List Event → Upkeep → Prop where
  | refl : Path start [] start
  | step (events : List Event) (middle : Upkeep) (more : List Event) (after : Upkeep)
      (hpath : Path start events middle) (hstep : Step middle more after) :
      Path start (events ++ more) after

/-- Whether an evictor is about to begin. -/
structure IsBegun (upkeep : Upkeep) : Prop where
  evictor : upkeep.evictor = some .ready
  cancelled : upkeep.cancelled = none

section Steps

variable {upkeep after : Upkeep} {events : List Event}

/-- A step changes the store as its events say. -/
theorem Step.state_eq (hstep : Step upkeep events after)
    (hinterval : 0 < upkeep.store.state.limits.evictionInterval) :
    after.store.state = upkeep.store.state.run (events.map Event.change) := by
  cases hstep with
  | use change | cancel | pass => rfl
  | go moment evictor store next hmoment hevictor hnext =>
      cases evictor with
      | ready =>
          rw [Evictor.step_ready hinterval] at hnext
          cases hnext
          rfl
      | waiting ticker =>
          rcases Evictor.step_waiting hnext with ⟨rfl, -, hstate⟩ | ⟨rfl, -, hstate⟩
          · exact hstate
          · exact hstate

/-- What happens by a step happens now, and time does not run back. -/
theorem Step.now_of_mem (hstep : Step upkeep events after) :
    upkeep.now ≤ after.now ∧ ∀ event ∈ events, event.change.now = upkeep.now := by
  cases hstep with
  | use change _ hnow => exact ⟨le_rfl, List.forall_mem_singleton.2 hnow⟩
  | cancel => exact ⟨le_rfl, nofun⟩
  | pass later hlater => exact ⟨hlater, nofun⟩
  | go moment evictor store next hmoment =>
      refine ⟨le_rfl, fun event hevent => ?_⟩
      cases evictor with
      | ready => cases hevent
      | waiting ticker =>
          cases next with
          | none => cases hevent
          | some next =>
              obtain rfl := List.mem_singleton.1 hevent
              exact hmoment.now_eq

/-- By a step at most one thing happens. -/
theorem Step.length_le (hstep : Step upkeep events after) : events.length ≤ 1 := by
  cases hstep with
  | use | cancel | pass => simp
  | go moment evictor store next => cases evictor <;> cases next <;> simp [made]

end Steps

/-- How far an evictor has got that began at an instant: the passes so far, and when it goes on. -/
inductive Stage (begun : Clock.Instant) (interval : Clock.Span) (passes : List Clock.Instant)
    (upkeep : Upkeep) : Prop where
  /-- It is about to begin. -/
  | ready (hevictor : upkeep.evictor = some .ready) (hnow : upkeep.now = begun)
      (hstop : upkeep.stop = begun) (hpasses : passes = [])
  /-- It waits after so many passes. -/
  | waiting (count : Nat)
      (hevictor : upkeep.evictor =
        some (.waiting ⟨Clock.tickTime begun interval (count + 1), interval, .delay⟩))
      (hstop : upkeep.stop = upkeep.now)
      (hpast : Clock.tickTime begun interval count ≤ upkeep.now)
      (hahead : upkeep.now ≤ Clock.tickTime begun interval (count + 1))
      (hpasses : passes = (List.range count).map fun index =>
        Clock.tickTime begun interval (index + 1))
  /-- It was stopped after so many passes. -/
  | ended (count : Nat) (hevictor : upkeep.evictor = none) (hcancelled : upkeep.cancelled.isSome)
      (hpast : Clock.tickTime begun interval count ≤ upkeep.stop)
      (hahead : upkeep.stop ≤ Clock.tickTime begun interval (count + 1))
      (hpasses : passes = (List.range count).map fun index =>
        Clock.tickTime begun interval (index + 1))

namespace Stage

variable {begun : Clock.Instant} {interval : Clock.Span} {passes : List Clock.Instant}
  {upkeep : Upkeep}

/-- A stage is not one of the store. -/
theorem with_store (h : Stage begun interval passes upkeep) (store : Noted PeerStore) :
    Stage begun interval passes { upkeep with store := store } := by
  cases h with
  | ready hevictor hnow hstop hpasses => exact .ready hevictor hnow hstop hpasses
  | waiting count hevictor hstop hpast hahead hpasses =>
      exact .waiting count hevictor hstop hpast hahead hpasses
  | ended count hevictor hcancelled hpast hahead hpasses =>
      exact .ended count hevictor hcancelled hpast hahead hpasses

/-- A cancelled scope changes nothing before the evictor goes on. -/
theorem cancel (h : Stage begun interval passes upkeep) :
    Stage begun interval passes { upkeep with cancelled := some upkeep.stop } := by
  cases h with
  | ready hevictor hnow hstop hpasses => exact .ready hevictor hnow hstop hpasses
  | waiting count hevictor hstop hpast hahead hpasses =>
      exact .waiting count hevictor hstop hpast hahead hpasses
  | ended count hevictor hcancelled hpast hahead hpasses =>
      exact .ended count hevictor rfl hpast hahead hpasses

/-- A step of the evictor makes the next pass, or ends it. -/
theorem go (h : Stage begun interval passes upkeep) (hinterval : 0 < interval)
    (hlimits : upkeep.store.state.limits.evictionInterval = interval) {moment : Moment}
    (hmoment : upkeep.IsAt moment) {evictor : Evictor} (hevictor : upkeep.evictor = some evictor)
    {store : Noted PeerStore} {next : Option Evictor}
    (hstep : evictor.step moment upkeep.store = some (store, next)) :
    Stage begun interval (passes ++ Upkeep.passes (made moment.now evictor next))
      { upkeep with store := store, evictor := next } := by
  cases h with
  | ready hready hnow hstop hpasses =>
      cases hready.symm.trans hevictor
      rw [Evictor.step_ready (hlimits ▸ hinterval)] at hstep
      cases hstep
      refine .waiting 0 ?_ (hstop.trans hnow.symm) hnow.ge ?_ (by rw [hpasses]; rfl)
      · rw [hlimits, hmoment.now_eq, hnow]
        rfl
      · rw [hnow]
        exact Clock.le_after begun interval
  | waiting count hwaiting hstop hpast hahead hpasses =>
      cases hwaiting.symm.trans hevictor
      rcases Evictor.step_waiting hstep with ⟨rfl, hstopping, -⟩ | ⟨rfl, hdue, -⟩
      · rw [← hstop] at hpast hahead
        exact .ended count rfl (hmoment.stopping_eq ▸ hstopping) hpast hahead
          ((List.append_nil _).trans hpasses)
      · -- Time did not run past the tick, so that it is fired on time.
        have hnow : upkeep.now = Clock.tickTime begun interval (count + 1) :=
          le_antisymm hahead (hmoment.now_eq ▸ hdue)
        refine .waiting (count + 1) ?_ hstop hnow.ge ?_ ?_
        · rw [hmoment.now_eq, hnow, Ticker.next_of_due]
          rfl
        · exact hnow.le.trans (Clock.le_after _ interval)
        · rw [hpasses, hmoment.now_eq, hnow, List.range_succ, List.map_append]
          rfl
  | ended count hnone =>
      rw [hnone] at hevictor
      cases hevictor

/-- Time that passes while the evictor waits keeps its stage. -/
theorem pass (h : Stage begun interval passes upkeep) (hinterval : 0 < interval)
    (hlimits : upkeep.store.state.limits.evictionInterval = interval) {later : Clock.Instant}
    (hlater : upkeep.now ≤ later)
    (hwaits : ∀ evictor ∈ upkeep.evictor, ∀ moment, upkeep.IsAt moment →
      evictor.step moment upkeep.store = none)
    (hwake : ∀ evictor ∈ upkeep.evictor, ∀ due ∈ evictor.wake, later ≤ due) :
    Stage begun interval passes { upkeep with now := later } := by
  cases h with
  | ready hevictor =>
      have hnone := hwaits _ hevictor _ upkeep.is_at_present
      rw [Evictor.step_ready (hlimits ▸ hinterval)] at hnone
      cases hnone
  | waiting count hevictor hstop hpast hahead hpasses =>
      have hnone := hwaits _ hevictor _ upkeep.is_at_present
      have hrunning := Option.isSome_eq_false_iff.1 (Evictor.step_waiting_eq_none_iff.1 hnone).1
      refine .waiting count hevictor ?_ (hpast.trans hlater) (hwake _ hevictor _ rfl) hpasses
      rw [stop, Option.isNone_iff_eq_none.1 hrunning, Option.getD_none]
  | ended count hevictor hcancelled hpast hahead hpasses =>
      obtain ⟨instant, hinstant⟩ := Option.isSome_iff_exists.1 hcancelled
      rw [stop, hinstant] at hpast hahead
      refine .ended count hevictor hcancelled ?_ ?_ hpasses <;> rw [stop, hinstant]
      · exact hpast
      · exact hahead

/-- Every step keeps the stage. -/
theorem next (h : Stage begun interval passes upkeep) (hinterval : 0 < interval)
    (hlimits : upkeep.store.state.limits.evictionInterval = interval) {events : List Event}
    {after : Upkeep} (hstep : Step upkeep events after) :
    Stage begun interval (passes ++ Upkeep.passes events) after := by
  cases hstep with
  | use change journal hnow =>
      rw [show Upkeep.passes [.used change] = [] from rfl, List.append_nil]
      exact h.with_store _
  | cancel =>
      rw [show Upkeep.passes [] = [] from rfl, List.append_nil]
      exact h.cancel
  | go moment evictor store next hmoment hevictor hnext =>
      exact h.go hinterval hlimits hmoment hevictor hnext
  | pass later hlater hwaits hwake =>
      rw [show Upkeep.passes [] = [] from rfl, List.append_nil]
      exact h.pass hinterval hlimits hlater hwaits hwake

/-- At every stage the passes so far are those that were due. -/
theorem passes_eq (h : Stage begun interval passes upkeep) :
    ∃ count, passes = ((List.range count).map fun index =>
        Clock.tickTime begun interval (index + 1)) ∧
      Clock.tickTime begun interval count ≤ upkeep.stop ∧
      upkeep.stop ≤ Clock.tickTime begun interval (count + 1) := by
  cases h with
  | ready hevictor hnow hstop hpasses =>
      exact ⟨0, hpasses, hstop.ge, hstop.trans_le (Clock.le_after begun interval)⟩
  | waiting count hevictor hstop hpast hahead hpasses =>
      exact ⟨count, hpasses, hstop ▸ hpast, hstop.trans_le hahead⟩
  | ended count hevictor hcancelled hpast hahead hpasses => exact ⟨count, hpasses, hpast, hahead⟩

/-- Past the instant at which it is told to stop an evictor has ended. -/
theorem evictor_eq_none (h : Stage begun interval passes upkeep) (hpast : upkeep.stop < upkeep.now) :
    upkeep.evictor = none := by
  cases h with
  | ready hevictor hnow hstop => exact absurd (hstop.trans hnow.symm) hpast.ne
  | waiting count hevictor hstop => exact absurd hstop hpast.ne
  | ended count hevictor => exact hevictor

end Stage

namespace Path

variable {start middle after : Upkeep} {before events later : List Event}

/-- What happens after something else happens after it all. -/
theorem trans (hbefore : Path start before middle) (hlater : Path middle later after) :
    Path start (before ++ later) after := by
  induction hlater with
  | refl => rwa [List.append_nil]
  | step later upkeep more after hpath hstep ih =>
      rw [← List.append_assoc]
      exact .step _ _ _ _ ih hstep

/-- What happens changes the store as the events say. -/
theorem state_eq (hpath : Path start events after)
    (hinterval : 0 < start.store.state.limits.evictionInterval) :
    after.store.state = start.store.state.run (events.map Event.change) := by
  induction hpath with
  | refl => rfl
  | step events middle more after hpath hstep ih =>
      rw [hstep.state_eq (by rwa [ih, PeerStore.limits_run]), ih, List.map_append]
      exact (List.foldl_append ..).symm

/-- The limits of the store stay as they are. -/
theorem limits_eq (hpath : Path start events after)
    (hinterval : 0 < start.store.state.limits.evictionInterval) :
    after.store.state.limits = start.store.state.limits := by
  rw [hpath.state_eq hinterval, PeerStore.limits_run]

/-- Whatever happens, happens in order and not later than now. -/
theorem ordered (hpath : Path start events after) :
    ((events.map Event.change).map Change.now).Pairwise (· ≤ ·) ∧
      ∀ event ∈ events, event.change.now ≤ after.now := by
  induction hpath with
  | refl => exact ⟨List.Pairwise.nil, nofun⟩
  | step events middle more after hpath hstep ih =>
      obtain ⟨hordered, hpast⟩ := ih
      obtain ⟨hnow, hmore⟩ := hstep.now_of_mem
      refine ⟨?_, fun event hevent => ?_⟩
      · rw [List.map_append, List.map_append, List.pairwise_append]
        refine ⟨hordered, ?_, ?_⟩
        · have hsingle := hstep.length_le
          match more, hsingle with
          | [], _ => exact List.Pairwise.nil
          | [event], _ => exact List.pairwise_singleton _ _
        · simp only [List.map_map, List.mem_map, forall_exists_index, and_imp,
            forall_apply_eq_imp_iff₂]
          exact fun earlier hearlier event hevent =>
            (hpast earlier hearlier).trans (hmore event hevent).ge
      · rcases List.mem_append.1 hevent with hearlier | hlast
        · exact (hpast event hearlier).trans hnow
        · exact (hmore event hlast).trans_le hnow

/-- An evictor that has begun is at some stage. -/
theorem stage (hpath : Path start events after) (hbegun : start.IsBegun)
    (hinterval : 0 < start.store.state.limits.evictionInterval) :
    Stage start.now start.store.state.limits.evictionInterval (passes events) after := by
  induction hpath with
  | refl =>
      refine .ready hbegun.evictor rfl ?_ rfl
      rw [stop, hbegun.cancelled, Option.getD_none]
  | step events middle more after hpath hstep ih =>
      rw [passes, List.filterMap_append]
      exact ih.next hinterval (by rw [hpath.limits_eq hinterval]) hstep

end Path

/-- Whether a tick is the first one, after the beginning, that is due more than the retention after a
record was seen. -/
structure IsFirstStale (due : Nat → Clock.Instant) (retention : Clock.Span) (record : PeerRecord)
    (index : Nat) : Prop where
  pos : 0 < index
  stale : retention < due index - record.lastSeen
  fresh : ∀ earlier, 0 < earlier → earlier < index → due earlier - record.lastSeen ≤ retention

/-- There is a first tick at which a record is stale. -/
theorem exists_first_stale {due : Nat → Clock.Instant} (hdue : StrictMono due)
    (retention : Clock.Span) (record : PeerRecord) :
    ∃ index, IsFirstStale due retention record index := by
  have hexists : ∃ index, 0 < index ∧ retention < due index - record.lastSeen := by
    refine ⟨retention + record.lastSeen + 1, Nat.succ_pos _, ?_⟩
    have hle : retention + record.lastSeen + 1 ≤ due (retention + record.lastSeen + 1) :=
      hdue.le_apply
    exact Nat.lt_sub_of_add_lt hle
  refine ⟨Nat.find hexists, (Nat.find_spec hexists).1, (Nat.find_spec hexists).2, ?_⟩
  intro earlier hpos hlt
  have hnot := Nat.find_min hexists hlt
  exact Nat.not_lt.1 fun hstale => hnot ⟨hpos, hstale⟩

/-- A tick at which a record is stale is the first of them or comes after it. -/
theorem IsFirstStale.le_of_stale {due : Nat → Clock.Instant} {retention : Clock.Span}
    {record : PeerRecord} {index tick : Nat} (h : IsFirstStale due retention record index)
    (htick : 0 < tick) (hstale : retention < due tick - record.lastSeen) : index ≤ tick := by
  by_contra hlt
  exact absurd hstale (Nat.not_lt.2 (h.fresh tick htick (Nat.lt_of_not_le hlt)))

/-- When passes are made at so many ticks, one is made at each of these. -/
theorem due_mem_passes {events : List Event} {due : Nat → Clock.Instant} {count index : Nat}
    (hpasses : passes events = (List.range count).map fun index => due (index + 1))
    (hpos : 0 < index) (hle : index ≤ count) : due index ∈ passes events := by
  rw [hpasses, List.mem_map]
  exact ⟨index - 1, List.mem_range.2 (Nat.sub_one_lt_of_le hpos hle),
    congrArg due (Nat.sub_add_cancel hpos)⟩

namespace Path

variable {start middle after : Upkeep} {before later : List Event} {id : PeerId}
  {record : PeerRecord}

/-- No record that is there was evictable at a pass made before. -/
theorem not_evictable_of_passed (hpath : Path start before middle)
    (hinterval : 0 < start.store.state.limits.evictionInterval)
    (hrecord : middle.store.state.get? id = some record) {now : Clock.Instant}
    (hpassed : now ∈ passes before) :
    record.isEvictable now start.store.state.limits.retention = false := by
  obtain ⟨event, hevent, hpass⟩ := List.mem_filterMap.1 hpassed
  rw [hpath.state_eq hinterval] at hrecord
  refine PeerStore.not_evictable_of_evicted hpath.ordered.1 hrecord ?_
  cases event with
  | used change => cases hpass
  | passed instant =>
      cases hpass
      exact List.mem_map_of_mem hevent

/-- A record of low trust of which nothing more is heard is there until the first pass that is made
more than the retention after it was seen, and not from then on. -/
theorem get_of_quiet (hbefore : Path start before middle) (hlater : Path middle later after)
    (hinterval : 0 < start.store.state.limits.evictionInterval) {due : Nat → Clock.Instant}
    {count : Nat}
    (hpasses : passes (before ++ later) = (List.range count).map fun index => due (index + 1))
    (hrecord : middle.store.state.get? id = some record)
    (hlow : record.reliability < PeerRecord.lowTrust) (hquiet : ∀ event ∈ later, event.IsQuiet id)
    {index : Nat} (hfirst : IsFirstStale due start.store.state.limits.retention record index) :
    after.store.state.get? id = if index ≤ count then none else some record := by
  have hlimits := hbefore.limits_eq hinterval
  have hentries : ∀ change ∈ later.map Event.change, change.entry? id = none := by
    intro change hchange
    obtain ⟨event, hevent, rfl⟩ := List.mem_map.1 hchange
    exact (hquiet event hevent).entry_eq_none
  have hleft := PeerStore.get_run_of_quiet hrecord hentries
  rw [← hlater.state_eq (hlimits ▸ hinterval)] at hleft
  rcases hleft with ⟨hstays, -⟩ | ⟨hgone, now, hmem, hnow⟩
  · rw [hstays, if_neg]
    intro hle
    -- The pass of that tick was made and would have evicted the record.
    have hspared := (hbefore.trans hlater).not_evictable_of_passed hinterval hstays
      (due_mem_passes hpasses hfirst.pos hle)
    have hevictable : record.isEvictable (due index) start.store.state.limits.retention = true :=
      PeerRecord.is_evictable_iff.2 ⟨hfirst.stale, hlow⟩
    rw [hspared] at hevictable
    cases hevictable
  · rw [hgone, if_pos]
    -- The record was evicted at a tick at which it was stale.
    obtain ⟨event, hevent, hchange⟩ := List.mem_map.1 hmem
    have hpassed : now ∈ passes (before ++ later) :=
      List.mem_filterMap.2 ⟨event, List.mem_append_right _ hevent,
        (hquiet event hevent).pass_of_evicted hchange⟩
    rw [hpasses, List.mem_map] at hpassed
    obtain ⟨tick, htick, rfl⟩ := hpassed
    rw [hlimits] at hnow
    have hstale := (PeerRecord.is_evictable_iff.1 hnow).1
    exact (hfirst.le_of_stale (Nat.succ_pos tick) hstale).trans (List.mem_range.1 htick)

/-- An evictor makes its passes when they are due, one for every tick of its interval up to when its
scope is cancelled. A record of low trust of which nothing more is heard is there until the first of
them that comes more than the retention after it was last seen, and not from then on. A record that is
trusted at every pass, or of which something was heard within the retention before it, is kept with all
that was heard of its peer. -/
theorem evicts_when_due (hbegun : start.IsBegun)
    (hinterval : 0 < start.store.state.limits.evictionInterval)
    (hbefore : Path start before middle) (hlater : Path middle later after) :
    let limits := start.store.state.limits
    let due := Clock.tickTime start.now limits.evictionInterval
    ∃ count, passes (before ++ later) = ((List.range count).map fun index => due (index + 1)) ∧
      due count ≤ after.stop ∧ after.stop ≤ due (count + 1) ∧
      (after.stop < after.now → after.evictor = none) ∧
      (∀ index, start.now + index * limits.evictionInterval < Clock.horizon →
        due index = start.now + index * limits.evictionInterval) ∧
      (∀ id record, middle.store.state.get? id = some record →
        record.reliability < PeerRecord.lowTrust → (∀ event ∈ later, event.IsQuiet id) →
        ∃ index, IsFirstStale due limits.retention record index ∧
          after.store.state.get? id = if index ≤ count then none else some record) ∧
      ∀ id record, middle.store.state.get? id = some record →
        (∀ part now rest, later.map Event.change = part ++ .evicted now :: rest →
          IsSpared limits.retention id record part now) →
        after.store.state.get? id = some
          (((later.map Event.change).filterMap (Change.entry? id)).foldl PeerRecord.enter
            record) := by
  intro limits due
  have hstage := (hbefore.trans hlater).stage hbegun hinterval
  have hlimits := hbefore.limits_eq hinterval
  have hdue : StrictMono due := Clock.tick_time_strict_mono start.now hinterval
  obtain ⟨count, hpasses, hpast, hahead⟩ := hstage.passes_eq
  refine ⟨count, hpasses, hpast, hahead, hstage.evictor_eq_none, ?_, ?_, ?_⟩
  · exact Clock.tick_time_eq start.now limits.evictionInterval
  · intro id record hrecord hlow hquiet
    obtain ⟨index, hfirst⟩ := exists_first_stale hdue limits.retention record
    exact ⟨index, hfirst,
      hbefore.get_of_quiet hlater hinterval hpasses hrecord hlow hquiet hfirst⟩
  · intro id record hrecord hspared
    rw [hlater.state_eq (hlimits ▸ hinterval)]
    exact PeerStore.get_run_of_spared hrecord hlater.ordered.1 (by rwa [hlimits])

end Path

section Passes

/-- An evictor that is about to begin, with two peers in its store that were seen just now. One of them
could not be dialed, twice. -/
def fresh (retention interval : Clock.Span) : Upkeep where
  now := 0
  store :=
    ⟨PeerStore.run { limits := ⟨10, retention, interval⟩ } [.seen 0 (PeerStore.sightingAt 1) "mdns",
      .dialed 0 PeerStore.peerId .unreachable none, .dialed 0 PeerStore.peerId .unreachable none,
      .seen 0 PeerStore.otherSighting "mdns"], []⟩
  evictor := some .ready

/-- Both of them were last seen at the beginning, and the one that could not be dialed is of low
trust. -/
theorem records_fresh (retention interval : Clock.Span) :
    (∃ record, (fresh retention interval).store.state.get? PeerStore.peerId = some record ∧
      record.lastSeen = 0 ∧ record.reliability < PeerRecord.lowTrust) ∧
    ∃ record, (fresh retention interval).store.state.get? PeerStore.otherSighting.id = some record ∧
      record.lastSeen = 0 := by
  have hlow : PeerRecord.penalty (PeerRecord.penalty PeerRecord.initialReliability) <
      PeerRecord.lowTrust := by decide
  exact ⟨⟨_, rfl, rfl, hlow⟩, _, rfl, rfl⟩

/-- Whether an evictor waits for a tick and is not stopped. -/
structure Awaits (upkeep : Upkeep) (due : Clock.Instant) (interval : Clock.Span) : Prop where
  evictor : upkeep.evictor = some (.waiting ⟨due, interval, .delay⟩)
  cancelled : upkeep.cancelled = none
  ahead : upkeep.now < due

/-- The evictor begins and waits for one interval. -/
theorem path_fresh (retention : Clock.Span) {interval : Clock.Span} (hinterval : 0 < interval) :
    ∃ after, Path (fresh retention interval) [] after ∧
      after.store.state = (fresh retention interval).store.state ∧
      after.Awaits (Clock.after 0 interval) interval :=
  ⟨_, .step _ _ _ _ .refl (.go (fresh retention interval) ⟨0, 0, false, true⟩ .ready _ _ ⟨rfl, rfl⟩
    rfl (Evictor.step_ready hinterval)), rfl, rfl, rfl, Clock.lt_after 0 hinterval⟩

/-- Time passes until the tick that an evictor waits for. -/
theorem Awaits.pass {upkeep : Upkeep} {due : Clock.Instant} {interval : Clock.Span}
    (hawaits : upkeep.Awaits due interval) : Step upkeep [] { upkeep with now := due } := by
  obtain ⟨hevictor, hcancelled, hahead⟩ := hawaits
  refine .pass upkeep due hahead.le (fun evictor hmem moment hmoment => ?_)
    (fun evictor hmem wake hwake => ?_)
  · cases hevictor.symm.trans hmem
    refine Evictor.step_waiting_eq_none_iff.2 ⟨?_, by rwa [hmoment.now_eq]⟩
    rw [hmoment.stopping_eq, hcancelled]
    rfl
  · cases hevictor.symm.trans hmem
    cases hwake
    exact le_rfl

/-- An evictor that waits for a tick makes a pass then and waits for the next one. -/
theorem Path.tick {start upkeep : Upkeep} {events : List Event} {due : Clock.Instant}
    {interval : Clock.Span} (hpath : Path start events upkeep) (hinterval : 0 < interval)
    (hawaits : upkeep.Awaits due interval) :
    ∃ after, Path start (events ++ [.passed due]) after ∧
      after.store.state = upkeep.store.state.apply (.evicted due) ∧ after.now = due ∧
      after.Awaits (Clock.after due interval) interval := by
  have hpassed := Path.step _ _ _ _ hpath hawaits.pass
  rw [List.append_nil] at hpassed
  have hstep := @Evictor.step_of_due { now := due } interval rfl upkeep.store
  exact ⟨_, .step _ _ _ _ hpassed (.go { upkeep with now := due } { now := due } _ _ _
    ⟨rfl, by rw [hawaits.cancelled]; rfl⟩ hawaits.evictor hstep), rfl, rfl, rfl, hawaits.cancelled,
    Clock.lt_after due hinterval⟩

/-- Three passes every five seconds, and one of the peers is seen after the first. -/
def thirdPass : List Event :=
  [.passed 5000, .used (.seen 5000 PeerStore.otherSighting "mdns"), .passed 10000, .passed 15000]

/-- An evictor with an interval of five seconds makes them. -/
theorem exists_third_pass (retention : Clock.Span) :
    ∃ after, Path (fresh retention 5000) thirdPass after := by
  have hperiod : 0 < 5000 := by decide
  obtain ⟨ready, hready, -, hawaits⟩ := path_fresh retention hperiod
  obtain ⟨once, honce, -, hnow, hevictor, hcancelled, hahead⟩ := hready.tick hperiod hawaits
  have hseen := Path.step _ _ _ _ honce
    (.use once (.seen 5000 PeerStore.otherSighting "mdns") [] hnow.symm)
  obtain ⟨twice, htwice, -, -, hagain⟩ := hseen.tick hperiod ⟨hevictor, hcancelled, hahead⟩
  obtain ⟨after, hthird, -⟩ := htwice.tick hperiod hagain
  exact ⟨after, hthird⟩

/-- With a retention of ten seconds each of them spares that peer. -/
theorem is_spared_third_pass {record : PeerRecord} (hlast : record.lastSeen = 0)
    {part rest : List Change} {now : Clock.Instant}
    (hsplit : thirdPass.map Event.change = part ++ .evicted now :: rest) :
    IsSpared 10000 PeerStore.otherSighting.id record part now := by
  have hentry : Change.entry? PeerStore.otherSighting.id
      (.seen 5000 PeerStore.otherSighting "mdns") =
        some (.seen 5000 PeerStore.otherSighting "mdns") := by
    rw [Change.entry?, if_pos rfl]
  -- What comes before each of the three passes.
  rcases part with _ | ⟨first, _ | ⟨second, _ | ⟨third, _ | ⟨fourth, part⟩⟩⟩⟩
  · cases hsplit
    exact .inr (.inr ⟨rfl, by rw [hlast]; decide⟩)
  · cases hsplit
  · cases hsplit
    exact .inr (.inl ⟨_, List.mem_filterMap.2 ⟨_, .tail _ (.head _), hentry⟩, by decide⟩)
  · cases hsplit
    exact .inr (.inl ⟨_, List.mem_filterMap.2 ⟨_, .tail _ (.head _), hentry⟩, by decide⟩)
  · have hlength : 4 = (first :: second :: third :: fourth :: part ++ .evicted now :: rest).length :=
      congrArg List.length hsplit
    simp only [List.length_append, List.length_cons] at hlength
    omega

/-- With passes every five seconds and a retention of ten, the third pass evicts the peer that could
not be dialed and of which nothing more was heard, and keeps the one that was seen in between. -/
theorem evicts_when_due_third_pass :
    (fresh 10000 5000).IsBegun ∧
      0 < (fresh 10000 5000).store.state.limits.evictionInterval ∧
      ∃ later after, Path (fresh 10000 5000) later after ∧ passes later = [5000, 10000, 15000] ∧
        (fresh 10000 5000).store.state.get? PeerStore.peerId ≠ none ∧
        after.store.state.get? PeerStore.peerId = none ∧
        after.store.state.get? PeerStore.otherSighting.id ≠ none := by
  have hbegun : (fresh 10000 5000).IsBegun := ⟨rfl, rfl⟩
  have hinterval : 0 < (fresh 10000 5000).store.state.limits.evictionInterval := by decide
  obtain ⟨⟨record, hrecord, hlast, hlow⟩, other, hother, hotherLast⟩ := records_fresh 10000 5000
  obtain ⟨after, hthird⟩ := exists_third_pass 10000
  obtain ⟨count, hpasses, -, -, -, -, hevicts, hkeeps⟩ :=
    Path.evicts_when_due hbegun hinterval .refl hthird
  refine ⟨hbegun, hinterval, _, after, hthird, rfl, by rw [hrecord]; nofun, ?_, ?_⟩
  · have hcount : count = 3 := by
      have hlength := congrArg List.length hpasses
      rw [List.length_map, List.length_range] at hlength
      exact hlength.symm
    have hquiet : ∀ event ∈ thirdPass, event.IsQuiet PeerStore.peerId := by
      simp only [thirdPass, List.forall_mem_cons, List.not_mem_nil, false_implies, implies_true,
        and_true]
      exact ⟨trivial, ⟨rfl, nofun⟩, trivial, trivial⟩
    obtain ⟨index, hfirst, hafter⟩ := hevicts _ record hrecord hlow hquiet
    have hstale : 10000 < Clock.tickTime 0 5000 3 - record.lastSeen := by
      rw [hlast]
      decide
    rw [hafter, if_pos (hcount ▸ hfirst.le_of_stale (by decide) hstale)]
  · rw [hkeeps _ other hother fun part now rest => is_spared_third_pass hotherLast]
    nofun

/-- It is not so that passes come after whole intervals only and that they stop once the scope is
cancelled. With an interval beyond the end of the clock one is made before an interval is over, and
evicts a record; and one that falls due with the cancel may be made after it. -/
theorem not_evicted_after_intervals :
    (∃ later after, Path (fresh 1000 Clock.longest) later after ∧
      passes later = [Clock.farFuture] ∧
      after.now < (fresh 1000 Clock.longest).now +
        (fresh 1000 Clock.longest).store.state.limits.evictionInterval ∧
      (fresh 1000 Clock.longest).store.state.get? PeerStore.peerId ≠ none ∧
      after.store.state.get? PeerStore.peerId = none) ∧
    ∃ cancelled after, Path (fresh 10000 5000) [] cancelled ∧ cancelled.cancelled = some 5000 ∧
      Path cancelled [.passed 5000] after := by
  constructor
  · have hinterval : 0 < Clock.longest := by decide
    obtain ⟨⟨record, hrecord, hlast, hlow⟩, -⟩ := records_fresh 1000 Clock.longest
    obtain ⟨ready, hready, hstate, hawaits⟩ := path_fresh 1000 hinterval
    obtain ⟨after, hpassed, hevicted, hnow, -⟩ := hready.tick hinterval hawaits
    refine ⟨_, after, hpassed, rfl, by rw [hnow]; decide, by rw [hrecord]; nofun, ?_⟩
    have hevictable : record.isEvictable Clock.farFuture 1000 = true :=
      PeerRecord.is_evictable_iff.2 ⟨by rw [hlast]; decide, hlow⟩
    have hquiet : Change.entry? PeerStore.peerId (.evicted Clock.farFuture) = none := rfl
    rcases PeerStore.get_apply_of_quiet hrecord hquiet with ⟨-, hspares⟩ | ⟨hgone, -⟩
    · exact absurd hevictable (Bool.eq_false_iff.1 (hspares _ rfl))
    · rw [hevicted, hstate]
      exact hgone
  · obtain ⟨ready, hready, -, hawaits⟩ := path_fresh 10000 (show 0 < 5000 by decide)
    let due : Upkeep := { ready with now := 5000 }
    have hdue : Path (fresh 10000 5000) ([] ++ []) due := .step _ _ _ _ hready hawaits.pass
    have hcancelled := Path.step _ _ _ _ hdue (.cancel due)
    -- The stop and the tick are both ready, and the wait ends by the tick.
    let moment : Moment := { now := 5000, stopping := true, heedsStop := false }
    have hstep := @Evictor.step_of_due moment 5000 rfl ready.store
    have hpass := Step.go { due with cancelled := some due.stop } moment _ _ _ ⟨rfl, rfl⟩
      hawaits.evictor hstep
    have hstop : due.stop = 5000 := by rw [stop, show due.cancelled = none from hawaits.cancelled]; rfl
    exact ⟨_, _, hcancelled, congrArg some hstop, .step _ _ _ _ .refl hpass⟩

end Passes

end Upkeep

end PeerFinder
