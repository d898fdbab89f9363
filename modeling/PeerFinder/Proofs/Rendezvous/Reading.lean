import PeerFinder.Proofs.Rendezvous.Probing
import PeerFinder.Rendezvous.Routing

/-!
# What a lookup reads

A lookup in a slotted table yields the records of the slots of the present minute and then those of
the minute before. `Routing.Consumes` is a lookup that is asked until it ends, at a moment for each
provider and one for the end. `Routing.consumes_slots` says what a lookup yields all of whose moments
lie in one minute, and `Routing.exists_consumes_slots` that it ends.
-/

namespace PeerFinder.Rendezvous

variable {κ : Type} [DecidableEq κ]

namespace SlotTable

/-- The providers in the slots of a label and a minute, in the order of the slots. -/
def listing (table : SlotTable κ) (label : List UInt8) (minute : Minute) : List Provider :=
  (List.range table.slots).filterMap fun index =>
    (table.record? ⟨label, minute, UInt8.ofNat index⟩).map ProviderRecord.peerInfo

/-- What a lookup in a minute is still to read when so many rounds are left. -/
def remaining (table : SlotTable κ) (label : List UInt8) (minute : Minute) : Nat → List Provider
  | 0 => []
  | rounds + 1 =>
      table.listing label (if 2 ≤ rounds + 1 then minute else previousMinute minute)
        ++ table.remaining label minute rounds

/-- Tables that agree list the same providers. -/
theorem Agrees.listing_eq {left right : SlotTable κ} (h : Agrees left right) (label : List UInt8)
    (minute : Minute) : right.listing label minute = left.listing label minute := by
  simp only [listing, h.slots_eq, h.record_eq]

/-- Tables that agree leave the same providers to be read. -/
theorem Agrees.remaining_eq {left right : SlotTable κ} (h : Agrees left right)
    (label : List UInt8) (minute : Minute) (rounds : Nat) :
    right.remaining label minute rounds = left.remaining label minute rounds := by
  induction rounds with
  | zero => rfl
  | succ rounds ih => simp only [remaining, h.listing_eq, ih]

end SlotTable

namespace Feed

open SlotTable

/-- Reading a slot yields the record in it. -/
theorem read_slot_eq (slot : Slot) (now : Clock.Instant) (table : Noted (SlotTable κ)) :
    (readSlot slot now table).1 = (table.state.record? slot).map ProviderRecord.peerInfo ∧
      Agrees table.state (readSlot slot now table).2.state := by
  simp only [readSlot, ItemStore.get, SlotTable.record?]
  cases table.state.store.item? (table.state.layout.address slot) with
  | none => exact ⟨rfl, ⟨rfl, rfl, rfl, rfl⟩⟩
  | some item =>
      cases hdecode : ProviderRecord.decode item.value with
      | ok record =>
          simp only [Option.map_some, Option.bind_some, hdecode, Except.toOption]
          exact ⟨trivial, ⟨rfl, rfl, rfl, rfl⟩⟩
      | error fault =>
          simp only [Option.map_some, Option.bind_some, hdecode, Except.toOption]
          exact ⟨rfl, ⟨rfl, rfl, rfl, rfl⟩⟩

/-- Reading slots yields the records in them, in order. -/
theorem read_slots_eq (label : List UInt8) (minute : Minute) (now : Clock.Instant)
    (indices : List Nat) (table : Noted (SlotTable κ)) :
    (readSlots label minute now indices table).1 = (indices.filterMap fun index =>
        (table.state.record? ⟨label, minute, UInt8.ofNat index⟩).map ProviderRecord.peerInfo) ∧
      Agrees table.state (readSlots label minute now indices table).2.state := by
  induction indices generalizing table with
  | nil => exact ⟨rfl, .refl _⟩
  | cons index rest ih =>
      obtain ⟨hslot, hread⟩ := read_slot_eq ⟨label, minute, UInt8.ofNat index⟩ now table
      obtain ⟨hrest, hothers⟩ :=
        ih (readSlot ⟨label, minute, UInt8.ofNat index⟩ now table).2
      refine ⟨?_, hread.trans hothers⟩
      simp only [readSlots, hrest, hread.record_eq]
      rw [hslot, List.filterMap_cons]
      cases table.state.record? ⟨label, minute, UInt8.ofNat index⟩ <;> rfl

/-- Reading a minute lists its providers. -/
theorem read_minute_eq (label : List UInt8) (minute : Minute) (now : Clock.Instant)
    (table : Noted (SlotTable κ)) :
    (readMinute label minute now table).1 = table.state.listing label minute ∧
      Agrees table.state (readMinute label minute now table).2.state :=
  read_slots_eq label minute now (List.range table.state.slots) table

/-- A lookup that is asked for a provider yields the next one of those that are ready or remain to
be read, and ends if there is none. -/
theorem poll_slots_cases {minute : Minute} {moment : Moment}
    (hminute : minuteOf moment.unixSeconds = minute) (label : List UInt8) (ready : List Provider)
    (rounds : Nat) (table : Noted (SlotTable κ)) :
    ∃ poll after, pollSlots moment label ready rounds table = (poll, after) ∧
      Agrees table.state after.state ∧
      match ready ++ table.state.remaining label minute rounds with
      | [] => poll = .ended
      | provider :: rest => ∃ ready' rounds', poll = .item provider (.slots label ready' rounds') ∧
          rest = ready' ++ table.state.remaining label minute rounds' := by
  -- A round is begun only when nothing is ready, and skipped if its minute lists nothing.
  induction rounds generalizing ready table with
  | zero =>
      cases ready with
      | nil => exact ⟨_, _, rfl, .refl _, rfl⟩
      | cons provider ready => exact ⟨_, _, rfl, .refl _, ready, 0, rfl, rfl⟩
  | succ rounds ih =>
      cases ready with
      | cons provider ready => exact ⟨_, _, rfl, .refl _, ready, rounds + 1, rfl, rfl⟩
      | nil =>
          obtain ⟨hlisting, hagrees⟩ :=
            read_minute_eq label (roundMinute moment (rounds + 1)) moment.now table
          have hround : roundMinute moment (rounds + 1) =
              if 2 ≤ rounds + 1 then minute else previousMinute minute := by
            simp only [roundMinute, hminute]
          rw [hround] at hlisting hagrees
          simp only [pollSlots, hround, SlotTable.remaining, ← hlisting]
          cases hread : (readMinute label (if 2 ≤ rounds + 1 then minute else previousMinute minute)
              moment.now table).1 with
          | nil =>
              obtain ⟨poll, after, hpoll, hafter, hcases⟩ := ih [] (readMinute label
                (if 2 ≤ rounds + 1 then minute else previousMinute minute) moment.now table).2
              simp only [hagrees.remaining_eq, List.nil_append] at hcases
              exact ⟨poll, after, hpoll, hagrees.trans hafter, hcases⟩
          | cons provider ready =>
              exact ⟨_, _, rfl, hagrees, ready, rounds, rfl, rfl⟩

end Feed

namespace Routing

open SlotTable

/-- A lookup that is asked at these moments in order yields these providers and then ends. -/
inductive Consumes : List Moment → Feed → Noted (Routing κ) → List Provider →
    Noted (Routing κ) → Prop where
  | ended (moment : Moment) (feed : Feed) (routing after : Noted (Routing κ))
      (hpoll : poll moment feed routing = (.ended, after)) :
      Consumes [moment] feed routing [] after
  | item (moment : Moment) (moments : List Moment) (feed next : Feed)
      (routing middle after : Noted (Routing κ)) (provider : Provider) (rest : List Provider)
      (hpoll : poll moment feed routing = (.item provider next, middle))
      (hrest : Consumes moments next middle rest after) :
      Consumes (moment :: moments) feed routing (provider :: rest) after

/-- Asking for a provider of a slotted table reads its slots. -/
theorem poll_slotted (moment : Moment) (label : List UInt8) (ready : List Provider)
    (rounds : Nat) (table : SlotTable κ) (journal : Journal) :
    poll moment (.slots label ready rounds) ⟨.slotted table, journal⟩ =
      ((Feed.pollSlots moment label ready rounds ⟨table, journal⟩).1,
        (Feed.pollSlots moment label ready rounds ⟨table, journal⟩).2.modify .slotted) :=
  rfl

/-- A lookup in one minute yields what is ready and what remains to be read. -/
theorem consumes_slots {minute : Minute} {moments : List Moment}
    (hminute : ∀ moment ∈ moments, minuteOf moment.unixSeconds = minute) {feed : Feed}
    {routing after : Noted (Routing κ)} {providers : List Provider}
    (hconsumes : Consumes moments feed routing providers after) {label : List UInt8}
    {ready : List Provider} {rounds : Nat} {table : SlotTable κ}
    (hfeed : feed = .slots label ready rounds) (hrouting : routing.state = .slotted table) :
    providers = ready ++ table.remaining label minute rounds := by
  induction hconsumes generalizing ready rounds table with
  | ended moment feed routing after hpoll =>
      obtain ⟨state, journal⟩ := routing
      cases hfeed
      cases hrouting
      obtain ⟨found, next, hslots, -, hcases⟩ := Feed.poll_slots_cases
        (hminute moment (by simp)) label ready rounds ⟨table, journal⟩
      rw [poll_slotted, hslots] at hpoll
      cases hall : ready ++ table.remaining label minute rounds with
      | nil => rfl
      | cons provider rest =>
          simp only [hall] at hcases
          obtain ⟨_, _, hitem, -⟩ := hcases
          cases hpoll
          cases hitem
  | item moment moments feed next routing middle after provider rest hpoll hrest ih =>
      obtain ⟨state, journal⟩ := routing
      cases hfeed
      cases hrouting
      obtain ⟨found, read, hslots, hagrees, hcases⟩ := Feed.poll_slots_cases
        (hminute moment (by simp)) label ready rounds ⟨table, journal⟩
      rw [poll_slotted, hslots] at hpoll
      cases hall : ready ++ table.remaining label minute rounds with
      | nil =>
          simp only [hall] at hcases
          cases hpoll
          cases hcases
      | cons first others =>
          simp only [hall] at hcases
          obtain ⟨ready', rounds', hitem, hothers⟩ := hcases
          cases hpoll
          cases hitem
          have hafter := ih (fun moment h => hminute moment (List.mem_cons_of_mem _ h)) rfl rfl
          rw [hafter, hagrees.remaining_eq, hothers]

/-- A lookup that is asked in one minute as often as it takes ends. -/
theorem exists_consumes_slots {minute : Minute} (label : List UInt8) (providers : List Provider)
    (moments : List Moment) (hminute : ∀ moment ∈ moments, minuteOf moment.unixSeconds = minute)
    (hlength : moments.length = providers.length + 1) (ready : List Provider) (rounds : Nat)
    (table : SlotTable κ) (journal : Journal)
    (hproviders : providers = ready ++ table.remaining label minute rounds) :
    ∃ after, Consumes moments (.slots label ready rounds) ⟨.slotted table, journal⟩ providers
      after := by
  induction providers generalizing moments ready rounds table journal with
  | nil =>
      obtain ⟨moment, rfl⟩ := List.length_eq_one_iff.1 hlength
      obtain ⟨found, read, hslots, -, hcases⟩ := Feed.poll_slots_cases
        (hminute moment (by simp)) label ready rounds ⟨table, journal⟩
      simp only [← hproviders] at hcases
      exact ⟨_, .ended _ _ _ _ (by rw [poll_slotted, hslots, hcases])⟩
  | cons provider rest ih =>
      obtain ⟨moment, moments, rfl⟩ := List.exists_cons_of_length_eq_add_one hlength
      obtain ⟨found, read, hslots, hagrees, hcases⟩ := Feed.poll_slots_cases
        (hminute moment (by simp)) label ready rounds ⟨table, journal⟩
      simp only [← hproviders] at hcases
      obtain ⟨ready', rounds', hitem, hrest⟩ := hcases
      rw [← hagrees.remaining_eq] at hrest
      obtain ⟨after, hafter⟩ := ih moments (fun moment h => hminute moment (by simp [h]))
        (by simpa using hlength) ready' rounds' read.state read.journal hrest
      refine ⟨after, .item _ _ _ _ _ _ _ _ _ ?_ hafter⟩
      rw [poll_slotted, hslots, hitem]
      rfl

end Routing

end PeerFinder.Rendezvous
