import PeerFinder.Proofs.LocalNet.Conservation

/-!
# Peers heard more than once

A peer may be heard on the local network several times, with other addresses or services each time, and
one query may take several of these sightings out of the queue. `Station.Path.firsts_are_answered` says
which of them it answers with: the first of every peer that it took. So what a later sighting adds to the
first one of its peer is lost, as in `Station.not_all_kept`.
-/

namespace PeerFinder

/-- A sighting says nothing of its peer that another one does not say. -/
structure Sighting.IsWithin (sighting entry : Sighting) : Prop where
  id : sighting.id = entry.id
  addresses : ∀ address ∈ sighting.info.addresses, address ∈ entry.info.addresses
  services : ∀ service ∈ sighting.services, service ∈ entry.services

namespace LocalNet

variable {taken found : List Sighting} {entry : Sighting}

/-- Every sighting that was taken is within one that was found. -/
def IsKept (taken found : List Sighting) : Prop :=
  ∀ sighting ∈ taken, ∃ entry ∈ found, sighting.IsWithin entry

/-- A sighting is the first one of its peer. -/
def IsFirst (taken : List Sighting) (entry : Sighting) : Prop :=
  ∃ before later, taken = before ++ entry :: later ∧ ∀ earlier ∈ before, earlier.id ≠ entry.id

/-- A search for a peer that there is a sighting of finds one. -/
theorem exists_find {sighting : Sighting} (hmem : sighting ∈ taken) :
    ∃ first, taken.find? (·.id = sighting.id) = some first ∧ first.id = sighting.id := by
  have hfound : (taken.find? (·.id = sighting.id)).isSome := by
    rw [List.find?_isSome]
    exact ⟨sighting, hmem, decide_eq_true rfl⟩
  obtain ⟨first, hfirst⟩ := Option.isSome_iff_exists.1 hfound
  exact ⟨first, hfirst, by simpa using List.find?_some hfirst⟩

/-- The first sighting of a peer is what a search for it finds. -/
theorem is_first_iff_find : IsFirst taken entry ↔ taken.find? (·.id = entry.id) = some entry := by
  simp [IsFirst, List.find?_eq_some_iff_append]

/-- Of every peer there is a first sighting. -/
theorem exists_is_first {sighting : Sighting} (hmem : sighting ∈ taken) :
    ∃ first, IsFirst taken first ∧ first.id = sighting.id := by
  obtain ⟨first, hfirst, hid⟩ := exists_find hmem
  exact ⟨first, is_first_iff_find.2 (hid ▸ hfirst), hid⟩

/-- A drain has exactly the first sightings of the peers that it took. -/
theorem Drain.Gathers.mem_found_iff {drain : Drain} (h : drain.Gathers taken) :
    entry ∈ drain.found ↔ IsFirst taken entry := by
  rw [is_first_iff_find, ← h.first]
  refine ⟨fun hmem => ?_, List.mem_of_find?_eq_some⟩
  obtain ⟨first, hfirst, hid⟩ := exists_find hmem
  rw [hfirst, List.inj_on_of_nodup_map h.distinct (List.mem_of_find?_eq_some hfirst) hmem hid]

namespace Station

variable {start station : Station} {number : Nat} {query : Inquiry}

/-- A query answers with the first sighting of every peer that it took, as it is, and in the order in
which it took them. So all that it took is in its answer exactly if no later sighting of a peer says
anything that the first one does not say. -/
theorem Path.firsts_are_answered (hfresh : start.IsFresh) (hpath : Path start station)
    (hquery : station.queries[number]? = some query) (hanswered : query.fate = .answered found) :
    found.Sublist (station.taken number) ∧
    (∀ entry, entry ∈ found ↔ IsFirst (station.taken number) entry) ∧
    (IsKept (station.taken number) found ↔ ∀ first, IsFirst (station.taken number) first →
      ∀ sighting ∈ station.taken number, sighting.id = first.id → sighting.IsWithin first) := by
  have hasked := (is_sound hfresh hpath).queries number query hquery
  obtain rfl := hasked.answered found hanswered
  have hfirsts : ∀ entry, entry ∈ query.drain.found ↔ IsFirst (station.taken number) entry :=
    fun entry => hasked.gathers.mem_found_iff
  refine ⟨hasked.gathers.sublist, hfirsts, ?_⟩
  constructor
  · intro hkept first hfirst sighting hmem hid
    obtain ⟨entry, hentry, hwithin⟩ := hkept sighting hmem
    have hsame : entry.id = first.id := hwithin.id.symm.trans hid
    have heq := List.inj_on_of_nodup_map hasked.gathers.distinct hentry ((hfirsts first).2 hfirst) hsame
    exact heq ▸ hwithin
  · intro hwithin sighting hmem
    obtain ⟨first, hfirst, hid⟩ := exists_is_first hmem
    exact ⟨first, (hfirsts first).2 hfirst, hwithin first hfirst sighting hmem hid.symm⟩

/-- A sighting of another node. -/
def brief : Sighting :=
  .ofInfo ⟨peerId, ∅⟩

/-- A sighting of that node that says more of it. -/
def full : Sighting :=
  ⟨.ofList peerId [.v4 ⟨10, 0, 0, 5⟩ 4001], .ofList ["storage"]⟩

/-- The brief sighting does not say what the full one does. -/
theorem not_is_within : ¬ full.IsWithin brief := by
  intro hwithin
  exact Std.ExtTreeSet.not_mem_empty (hwithin.services "storage" (by simp [full]))

/-- A query takes both sightings of a node and answers with the brief one, which was heard first. -/
theorem exists_repeat : ∃ station query, Path idle station ∧ station.queries[0]? = some query ∧
    query.fate = .answered [brief] ∧ station.taken 0 = [brief, full] := by
  have hheard := Path.step _ _ _ (.refl idle) (.act _ _ _ (.offer _ brief))
  have hagain := Path.step _ _ _ hheard (.act _ _ _ (.offer _ full))
  have hfind := Path.step _ _ _ hagain (.find _ ⟨[1], none⟩ 2)
  have htaken := Path.step _ _ _ hfind (.take _ 0 _ _ _ rfl rfl rfl)
  have hdropped := Path.step _ _ _ htaken (.take _ 0 _ _ _ rfl rfl rfl)
  have hcancelled := Path.step _ _ _ hdropped (.cancel _ [1])
  have hanswered := Path.step _ _ _ hcancelled (.answer _ 0 _ _ _ rfl rfl rfl)
  exact ⟨_, _, hanswered, rfl, rfl, rfl⟩

/-- The full sighting is not in that answer. -/
theorem Path.firsts_are_answered_repeat : idle.IsFresh ∧ ∃ station query, Path idle station ∧
    station.queries[0]? = some query ∧ query.fate = .answered [brief] ∧
    IsFirst (station.taken 0) brief ∧ ¬ IsFirst (station.taken 0) full := by
  obtain ⟨station, query, hpath, hquery, hanswered, -⟩ := exists_repeat
  obtain ⟨-, hfirsts, -⟩ := firsts_are_answered is_fresh_idle hpath hquery hanswered
  refine ⟨is_fresh_idle, station, query, hpath, hquery, hanswered,
    (hfirsts brief).1 (List.mem_singleton_self _), fun hfirst => ?_⟩
  have heq : full = brief := List.mem_singleton.1 ((hfirsts full).2 hfirst)
  exact not_is_within (heq ▸ ⟨rfl, fun _ h => h, fun _ h => h⟩)

/-- It is not so that all that a query takes of a peer is in its answer. -/
theorem not_all_kept : ¬ ∀ start station number query found, IsFresh start → Path start station →
    station.queries[number]? = some query → query.fate = .answered found →
    IsKept (station.taken number) found := by
  intro hkept
  obtain ⟨station, query, hpath, hquery, hanswered, htaken⟩ := exists_repeat
  obtain ⟨entry, hentry, hwithin⟩ := hkept idle station 0 query [brief] is_fresh_idle hpath hquery
    hanswered full (by rw [htaken]; exact List.mem_cons_of_mem _ (List.mem_singleton_self _))
  rw [List.mem_singleton.1 hentry] at hwithin
  exact not_is_within hwithin

end Station

end LocalNet

end PeerFinder
