import Mathlib.Data.Finset.Card
import Mathlib.Data.Finset.Dedup
import PeerFinder.Proofs.PeerStore.History

/-!
# Reports in any order

Queries overlap and end out of order, so a store must not depend on who reports first. The `Essence`
of a record is all of it but its source and its times. Sightings extend its unions and outcomes of
connections move the rest, so the two commute, and a sighting that comes again changes nothing.
`PeerStore.order_is_immaterial` says that a store comes to the same essences whatever the order in
which it hears the same reports.
-/

namespace PeerFinder

section Unions

variable {α β : Type} {order : α → α → Ordering} [Std.TransCmp order]
  (part : β → Std.ExtTreeSet α order)

/-- A union of sets along a list has the elements of each of them. -/
theorem mem_foldl_union (items : List β) (set : Std.ExtTreeSet α order) (element : α) :
    element ∈ items.foldl (fun union item => union ∪ part item) set ↔
      element ∈ set ∨ ∃ item ∈ items, element ∈ part item := by
  induction items generalizing set with
  | nil => simp
  | cons item rest ih =>
      rw [List.foldl_cons, ih, Std.ExtTreeSet.mem_union_iff]
      simp [or_assoc]

/-- A union of sets along a list does not depend on how the list is ordered or repeats itself. -/
theorem foldl_union_congr [Std.LawfulEqCmp order] {items others : List β}
    (hsame : ∀ item, item ∈ items ↔ item ∈ others) (set : Std.ExtTreeSet α order) :
    items.foldl (fun union item => union ∪ part item) set =
      others.foldl (fun union item => union ∪ part item) set := by
  apply Std.ExtTreeSet.ext_mem
  intro element
  simp only [mem_foldl_union, hsame]

end Unions

namespace PeerRecord

/-- What a record says, apart from who reported the peer last and when it was heard of. -/
@[ext]
structure Essence where
  id : PeerId
  addresses : AddressSet
  services : ServiceSet
  status : PeerStatus
  reliability : Float
  lastError : Option String
  connectCount : Nat

/-- The essence of a record. -/
def essence (record : PeerRecord) : Essence where
  id := record.id
  addresses := record.addresses
  services := record.services
  status := record.status
  reliability := record.reliability
  lastError := record.lastError
  connectCount := record.connectCount

namespace Essence

/-- The essence of a peer of which nothing was heard. -/
def blank (id : PeerId) : Essence where
  id := id
  addresses := ∅
  services := ∅
  status := .unknown
  reliability := initialReliability
  lastError := none
  connectCount := 0

/-- The essence with a sighting merged into it. -/
def see (essence : Essence) (sighting : Sighting) : Essence :=
  { essence with
    addresses := essence.addresses ∪ sighting.info.addresses
    services := essence.services ∪ sighting.services }

/-- The essence after the outcome of a connection. -/
def dial (essence : Essence) (outcome : PeerStatus × Option String) : Essence :=
  { essence with
    status := outcome.1
    lastError := outcome.2
    connectCount :=
      if outcome.1 = .connected then min (essence.connectCount + 1) connectLimit
      else essence.connectCount
    reliability := rate essence.reliability outcome.1 }

/-- The essence after something more was heard. -/
def hear (essence : Essence) : Entry → Essence
  | .seen _ sighting _ => essence.see sighting
  | .dialed _ status error => essence.dial (status, error)

/-- Sightings extend the unions and leave the rest alone. -/
theorem foldl_see (sightings : List Sighting) (essence : Essence) :
    sightings.foldl see essence =
      { essence with
        addresses := sightings.foldl (fun union sighting => union ∪ sighting.info.addresses)
          essence.addresses
        services := sightings.foldl (fun union sighting => union ∪ sighting.services)
          essence.services } := by
  induction sightings generalizing essence with
  | nil => rfl
  | cons sighting rest ih =>
      rw [List.foldl_cons, ih]
      rfl

/-- It only matters which sightings there are. -/
theorem foldl_see_congr {sightings others : List Sighting}
    (hsame : ∀ sighting, sighting ∈ sightings ↔ sighting ∈ others) (essence : Essence) :
    sightings.foldl see essence = others.foldl see essence := by
  rw [foldl_see, foldl_see, foldl_union_congr (fun sighting => sighting.info.addresses) hsame,
    foldl_union_congr Sighting.services hsame]

/-- A sighting may come before outcomes or after them. -/
theorem foldl_dial_see (outcomes : List (PeerStatus × Option String)) (essence : Essence)
    (sighting : Sighting) :
    outcomes.foldl dial (essence.see sighting) = (outcomes.foldl dial essence).see sighting := by
  induction outcomes generalizing essence with
  | nil => rfl
  | cons outcome rest ih =>
      have hcommute : (essence.see sighting).dial outcome = (essence.dial outcome).see sighting := rfl
      rw [List.foldl_cons, List.foldl_cons, hcommute, ih]

/-- What is heard amounts to the outcomes in their order and then the sightings. -/
theorem foldl_hear (entries : List Entry) (essence : Essence) :
    entries.foldl hear essence =
      ((entries.filterMap Entry.sighting?).map Prod.fst).foldl see
        ((entries.filterMap Entry.outcome?).foldl dial essence) := by
  induction entries generalizing essence with
  | nil => rfl
  | cons entry rest ih =>
      rw [List.foldl_cons, ih]
      cases entry with
      | seen now sighting source =>
          simp only [hear, foldl_dial_see, List.filterMap_cons, Entry.sighting?, Entry.outcome?,
            List.map_cons, List.foldl_cons]
      | dialed now status error =>
          simp only [hear, List.filterMap_cons, Entry.sighting?, Entry.outcome?, List.foldl_cons]

end Essence

/-- The first sighting makes a record like one of which nothing was heard before. -/
theorem essence_of_sighting (sighting : Sighting) (source : String) (now : Clock.Instant) :
    (ofSighting sighting source now).essence = (Essence.blank sighting.id).see sighting := by
  have haddresses : sighting.info.addresses = ∅ ∪ sighting.info.addresses := by
    apply Std.ExtTreeSet.ext_mem
    simp
  have hservices : sighting.services = ∅ ∪ sighting.services := by
    apply Std.ExtTreeSet.ext_mem
    simp
  exact Essence.ext rfl haddresses hservices rfl rfl rfl rfl

/-- What is entered into a record is heard by its essence. -/
theorem essence_enter (record : PeerRecord) (entry : Entry) :
    (record.enter entry).essence = record.essence.hear entry := by
  cases entry with
  | seen now sighting source => rfl
  | dialed now status error =>
      have hreliability := record.reliability_with_status status error now
      exact Essence.ext rfl rfl rfl rfl hreliability rfl rfl

/-- What is entered into a record piece by piece is heard by its essence. -/
theorem essence_foldl_enter (entries : List Entry) (record : PeerRecord) :
    (entries.foldl enter record).essence = entries.foldl Essence.hear record.essence := by
  induction entries generalizing record with
  | nil => rfl
  | cons entry rest ih => rw [List.foldl_cons, List.foldl_cons, ih, essence_enter]

end PeerRecord

namespace PeerStore

open PeerRecord (Entry Essence)

/-- The sighting that a change takes in. -/
def Change.sighting? : Change → Option Sighting
  | .seen _ sighting _ => some sighting
  | .dialed .. | .evicted _ => none

/-- The outcome of a connection that a change takes in, with its peer. -/
def Change.outcome? : Change → Option (PeerId × PeerStatus × Option String)
  | .dialed _ id status error => some (id, status, error)
  | .seen .. | .evicted _ => none

/-- Whether changes evict nothing. -/
def IsKeeping (changes : List Change) : Prop :=
  ∀ change ∈ changes, ∀ now, change ≠ .evicted now

/-- Whether two lists of changes take in the same sightings, in any order and however often, with
the same outcomes of connections anywhere between them in one order, and evict nothing. -/
structure SameReports (changes others : List Change) : Prop where
  sightings : ∀ sighting, sighting ∈ changes.filterMap Change.sighting? ↔
    sighting ∈ others.filterMap Change.sighting?
  outcomes : changes.filterMap Change.outcome? = others.filterMap Change.outcome?
  keeping : IsKeeping changes
  keeping' : IsKeeping others

section Reports

variable (id : PeerId)

/-- The sightings of a peer among changes are those among what is heard of it. -/
theorem sightings_of_entries (changes : List Change) :
    ((changes.filterMap (Change.entry? id)).filterMap Entry.sighting?).map Prod.fst =
      (changes.filterMap Change.sighting?).filter fun sighting => sighting.id = id := by
  induction changes with
  | nil => rfl
  | cons change rest ih =>
      cases change with
      | seen now sighting source =>
          by_cases hid : sighting.id = id <;>
            simp [Change.entry?, Change.sighting?, Entry.sighting?, hid, ih]
      | dialed now other status error =>
          by_cases hid : other = id <;>
            simp [Change.entry?, Change.sighting?, Entry.sighting?, List.filterMap_cons, hid, ih]
      | evicted now =>
          simp [Change.entry?, Change.sighting?, List.filterMap_cons, ih]

/-- The outcomes for a peer among changes are those among what is heard of it. -/
theorem outcomes_of_entries (changes : List Change) :
    (changes.filterMap (Change.entry? id)).filterMap Entry.outcome? =
      ((changes.filterMap Change.outcome?).filter fun outcome => outcome.1 = id).map Prod.snd := by
  induction changes with
  | nil => rfl
  | cons change rest ih =>
      cases change with
      | seen now sighting source =>
          by_cases hid : sighting.id = id <;>
            simp [Change.entry?, Change.outcome?, Entry.outcome?, List.filterMap_cons, hid, ih]
      | dialed now other status error =>
          by_cases hid : other = id <;>
            simp [Change.entry?, Change.outcome?, Entry.outcome?, hid, ih]
      | evicted now =>
          simp [Change.entry?, Change.outcome?, List.filterMap_cons, ih]

/-- The same reports are heard by an essence as the same. -/
theorem SameReports.foldl_hear {changes others : List Change} (h : SameReports changes others)
    (essence : Essence) :
    (changes.filterMap (Change.entry? id)).foldl Essence.hear essence =
      (others.filterMap (Change.entry? id)).foldl Essence.hear essence := by
  simp only [Essence.foldl_hear, sightings_of_entries, outcomes_of_entries, h.outcomes]
  apply Essence.foldl_see_congr
  simp only [List.mem_filter, h.sightings, implies_true]

end Reports

/-- With no evictions, a record that is there takes in all that is heard of its peer. -/
theorem get_run_of_some {store : PeerStore} {id : PeerId} {record : PeerRecord}
    (hrecord : store.get? id = some record) {changes : List Change} (hkeeping : IsKeeping changes) :
    (store.run changes).get? id =
      some ((changes.filterMap (Change.entry? id)).foldl PeerRecord.enter record) := by
  induction changes generalizing store record with
  | nil => exact hrecord
  | cons change rest ih =>
      have hrest : IsKeeping rest := fun other hother => hkeeping other (.tail _ hother)
      have heffect := store.effect_apply id change
      rw [hrecord] at heffect
      rw [List.filterMap_cons]
      change ((store.apply change).run rest).get? id = _
      generalize hafter : (store.apply change).get? id = result at heffect
      cases heffect with
      | kept _ hentry => rw [hentry, ih hafter hrest]
      | entered _ entry hentry => rw [hentry, ih hafter hrest, List.foldl_cons]
      | evicted _ now hchange _ => exact absurd hchange (hkeeping change (.head _) now)

/-- Whether the peers of a store and those of some sightings together are no more than the store may
hold. -/
def HasRoom (store : PeerStore) (sightings : List Sighting) : Prop :=
  (store.records.keys ++ sightings.map Sighting.id).toFinset.card ≤ store.limits.maxPeers

/-- The peers of a store are those it has a record of. -/
theorem mem_keys_iff_ne_none (store : PeerStore) (id : PeerId) :
    id ∈ store.records.keys ↔ store.get? id ≠ none := by
  rw [Std.ExtTreeMap.mem_keys, Std.ExtTreeMap.mem_iff_isSome_getElem?, Option.isSome_iff_ne_none]
  rfl

section Room

variable {store : PeerStore} {sighting : Sighting} {rest : List Sighting}

/-- It only matters which sightings there are. -/
theorem HasRoom.congr {sightings others : List Sighting} (h : store.HasRoom sightings)
    (hsame : ∀ sighting, sighting ∈ sightings ↔ sighting ∈ others) : store.HasRoom others := by
  have hpeers : (store.records.keys ++ sightings.map Sighting.id).toFinset =
      (store.records.keys ++ others.map Sighting.id).toFinset := by
    ext id
    simp only [List.mem_toFinset, List.mem_append, List.mem_map, hsame]
  unfold HasRoom at h ⊢
  rwa [← hpeers]

/-- There is room for the peer of the next sighting if it is new. -/
theorem HasRoom.size_lt (h : store.HasRoom (sighting :: rest))
    (hnew : store.get? sighting.id = none) : store.size < store.limits.maxPeers := by
  have hsize : store.size = store.records.keys.toFinset.card := by
    rw [List.toFinset_card_of_nodup Std.ExtTreeMap.nodup_keys, Std.ExtTreeMap.length_keys]
    rfl
  have hfresh : sighting.id ∉ store.records.keys.toFinset := by
    rw [List.mem_toFinset, mem_keys_iff_ne_none]
    exact fun hne => hne hnew
  have hpart : insert sighting.id store.records.keys.toFinset ⊆
      (store.records.keys ++ (sighting :: rest).map Sighting.id).toFinset := by
    intro id hid
    simp only [Finset.mem_insert, List.mem_toFinset, List.map_cons, List.mem_append,
      List.mem_cons] at hid ⊢
    rcases hid with rfl | hid
    · exact .inr (.inl rfl)
    · exact .inl hid
  calc store.size < (insert sighting.id store.records.keys.toFinset).card := by
        rw [Finset.card_insert_of_notMem hfresh, hsize]
        exact Nat.lt_succ_self _
    _ ≤ _ := Finset.card_le_card hpart
    _ ≤ store.limits.maxPeers := h

/-- Once a sighting is taken in, there is room for those that are left. -/
theorem HasRoom.after (h : store.HasRoom (sighting :: rest)) (now : Clock.Instant)
    (source : String) : (store.apply (.seen now sighting source)).HasRoom rest := by
  have hpart : ((store.apply (.seen now sighting source)).records.keys ++
        rest.map Sighting.id).toFinset ⊆
      (store.records.keys ++ (sighting :: rest).map Sighting.id).toFinset := by
    intro id hid
    simp only [List.mem_toFinset, List.map_cons, List.mem_append, List.mem_cons,
      mem_keys_iff_ne_none] at hid ⊢
    rcases hid with hid | hid
    · rw [apply, get_add_or_update] at hid
      by_cases hsame : sighting.id = id
      · exact .inr (.inl hsame.symm)
      · rw [if_neg hsame] at hid
        exact .inl hid
    · exact .inr (.inr hid)
  unfold HasRoom
  rw [limits_apply]
  exact (Finset.card_le_card hpart).trans h

end Room

/-- With no evictions, no outcomes and room for everybody, the record of a new peer is there once
the peer is seen, and takes in all that is heard of it. -/
theorem essence_run_of_none {store : PeerStore} {id : PeerId} (habsent : store.get? id = none)
    {changes : List Change} (hkeeping : IsKeeping changes)
    (houtcomes : changes.filterMap Change.outcome? = [])
    (hroom : store.HasRoom (changes.filterMap Change.sighting?)) :
    ((store.run changes).get? id).map PeerRecord.essence =
      if ∃ sighting ∈ changes.filterMap Change.sighting?, sighting.id = id then
        some ((changes.filterMap (Change.entry? id)).foldl Essence.hear (.blank id))
      else none := by
  induction changes generalizing store with
  | nil => simp [run, habsent]
  | cons change rest ih =>
      have hrest : IsKeeping rest := fun other hother => hkeeping other (.tail _ hother)
      cases change with
      | evicted now => exact absurd rfl (hkeeping _ (.head _) now)
      | dialed now other status error => simp [Change.outcome?] at houtcomes
      | seen now sighting source =>
          have hget := store.get_add_or_update id now sighting source
          have hrun : store.run (.seen now sighting source :: rest) =
              (store.addOrUpdate sighting source now).2.run rest := rfl
          rw [hrun]
          by_cases hid : sighting.id = id
          · -- The record is created here and is there from now on.
            have hsize := hroom.size_lt (hid ▸ habsent)
            rw [if_pos hid, hid, habsent] at hget
            simp only [if_neg (Nat.not_le.2 hsize)] at hget
            rw [get_run_of_some hget hrest, Option.map_some, PeerRecord.essence_foldl_enter,
              PeerRecord.essence_of_sighting, hid]
            simp [Change.entry?, Change.sighting?, hid, Essence.hear]
          · rw [if_neg hid, habsent] at hget
            have hentries : (.seen now sighting source :: rest).filterMap (Change.entry? id) =
                rest.filterMap (Change.entry? id) := by
              simp [Change.entry?, hid]
            rw [ih hget hrest houtcomes (hroom.after now source), hentries]
            exact if_congr (by simp [Change.sighting?, hid]) rfl rfl

/-- Changes that take in the same reports in another order, at other times and from other sources
leave a store with the same essences. If they are sightings only, and the store has room for all
their peers, it holds the same peers after either, and the records of each agree in all but the
source and the times. For a peer that the store holds already this is so whatever else is in the
changes, with the outcomes of connections anywhere between the sightings. -/
theorem order_is_immaterial (store : PeerStore) (changes others : List Change)
    (hsame : SameReports changes others) :
    (changes.filterMap Change.outcome? = [] →
      store.HasRoom (changes.filterMap Change.sighting?) →
      ∀ id, ((store.run changes).get? id).map PeerRecord.essence =
        ((store.run others).get? id).map PeerRecord.essence) ∧
    ∀ id, store.get? id ≠ none →
      (store.run changes).get? id ≠ none ∧
      ((store.run changes).get? id).map PeerRecord.essence =
        ((store.run others).get? id).map PeerRecord.essence := by
  have hpresent : ∀ id, store.get? id ≠ none →
      (store.run changes).get? id ≠ none ∧
      ((store.run changes).get? id).map PeerRecord.essence =
        ((store.run others).get? id).map PeerRecord.essence := by
    intro id hid
    obtain ⟨record, hrecord⟩ := Option.ne_none_iff_exists'.1 hid
    rw [get_run_of_some hrecord hsame.keeping, get_run_of_some hrecord hsame.keeping']
    refine ⟨nofun, ?_⟩
    rw [Option.map_some, Option.map_some, PeerRecord.essence_foldl_enter,
      PeerRecord.essence_foldl_enter, hsame.foldl_hear id]
  refine ⟨fun houtcomes hroom id => ?_, hpresent⟩
  by_cases hid : store.get? id = none
  · rw [essence_run_of_none hid hsame.keeping houtcomes hroom,
      essence_run_of_none hid hsame.keeping' (hsame.outcomes ▸ houtcomes)
        (hroom.congr hsame.sightings), hsame.foldl_hear id]
    simp only [hsame.sightings]
  · exact (hpresent id hid).2

/-- The identity of a peer. -/
def peerId : PeerId :=
  ⟨15 :: List.replicate 31 0, rfl, by decide +kernel⟩

/-- The peer at a port of `10.0.0.5`. -/
def sightingAt (port : UInt16) : Sighting :=
  .ofInfo (.ofList peerId [.v4 ⟨10, 0, 0, 5⟩ port])

/-- A store with room for one peer, that holds none. -/
def vacant : PeerStore where
  limits := { maxPeers := 1 }

/-- One source reports two ports of the peer, one after the other. -/
def ascending : List Change :=
  [.seen 0 (sightingAt 1) "dht", .seen 1 (sightingAt 2) "dht"]

/-- The ports come the other way round, one of them from two sources. -/
def descending : List Change :=
  [.seen 0 (sightingAt 2) "mdns", .seen 5 (sightingAt 1) "dht", .seen 5 (sightingAt 2) "dht"]

/-- Either way the store comes to hold a record of the peer with both addresses. Once it does, a
failed dial before the reports and one after them come to the same too. -/
theorem order_is_immaterial_two_ports :
    SameReports ascending descending ∧ vacant.HasRoom (ascending.filterMap Change.sighting?) ∧
      ((vacant.run ascending).get? peerId).map PeerRecord.essence =
        ((vacant.run descending).get? peerId).map PeerRecord.essence ∧
      ((vacant.run ascending).run (.dialed 7 peerId .unreachable none :: ascending)).get? peerId ≠
        none ∧
      (((vacant.run ascending).run (.dialed 7 peerId .unreachable none :: ascending)).get? peerId).map
          PeerRecord.essence =
        (((vacant.run ascending).run (descending ++ [.dialed 9 peerId .unreachable none])).get?
          peerId).map PeerRecord.essence := by
  have hsame : SameReports ascending descending := by
    refine ⟨fun sighting => ?_, rfl, ?_, ?_⟩
    · simp only [ascending, descending, List.filterMap_cons, List.filterMap_nil, Change.sighting?,
        List.mem_cons, List.not_mem_nil]
      tauto
    · simp [IsKeeping, ascending]
    · simp [IsKeeping, descending]
  have hdialed : SameReports (.dialed 7 peerId .unreachable none :: ascending)
      (descending ++ [.dialed 9 peerId .unreachable none]) := by
    refine ⟨fun sighting => ?_, rfl, ?_, ?_⟩
    · rw [List.filterMap_append]
      simpa [Change.sighting?] using hsame.sightings sighting
    · simp [IsKeeping, ascending]
    · simp [IsKeeping, descending]
  have hroom : vacant.HasRoom (ascending.filterMap Change.sighting?) := by
    unfold HasRoom
    decide
  have hpresent : (vacant.run ascending).get? peerId ≠ none := by
    decide
  have hagain := (order_is_immaterial (vacant.run ascending) _ _ hdialed).2 peerId hpresent
  exact ⟨hsame, hroom, (order_is_immaterial vacant _ _ hsame).1 rfl hroom peerId, hagain⟩

end PeerStore

end PeerFinder
