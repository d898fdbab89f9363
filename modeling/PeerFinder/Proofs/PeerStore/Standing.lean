import Mathlib.Tactic.SplitIfs
import PeerFinder.Proofs.PeerStore.Retention

/-!
# The standing of peers

A sighting creates a record or is merged into one, and a connection outcome changes what is known of
the connection to a peer: its standing. Only outcomes change the standing of a peer that has one
(`PeerStore.standing_add_or_update`, `PeerStore.standing_update_status`), and an eviction takes it
only from a peer that is distrusted (`PeerStore.standing_evict`), which takes more than one failure
(`PeerRecord.trusted_enter_fresh`).
-/

namespace PeerFinder

namespace PeerRecord

/-- What connection outcomes write into a record. -/
structure Standing where
  status : PeerStatus
  error : Option String
  reliability : Float
  connectCount : Nat

/-- The standing of a peer that was never dialed. -/
def Standing.fresh : Standing :=
  ⟨.unknown, none, initialReliability, 0⟩

/-- The standing after an outcome. -/
def Standing.enter (standing : Standing) (status : PeerStatus) (error : Option String) :
    Standing where
  status := status
  error := error
  reliability := rate standing.reliability status
  connectCount :=
    if status = .connected then min (standing.connectCount + 1) connectLimit
    else standing.connectCount

/-- The standing of the peer of a record. -/
def standing (record : PeerRecord) : Standing :=
  ⟨record.status, record.lastError, record.reliability, record.connectCount⟩

/-- An outcome is entered into the standing. -/
theorem standing_with_status (record : PeerRecord) (status : PeerStatus) (error : Option String)
    (now : Clock.Instant) :
    (record.withStatus status error now).standing = record.standing.enter status error := by
  cases status <;> rfl

/-- A peer that was dialed once since it was found is not distrusted. -/
theorem trusted_enter_fresh (status : PeerStatus) (error : Option String) :
    ¬ (Standing.fresh.enter status error).reliability < lowTrust := by
  have hrates : ∀ status, ¬ rate initialReliability status < lowTrust := by
    intro status
    cases status <;> decide
  exact hrates status

/-- A peer that was never dialed is not distrusted. -/
theorem trusted_fresh : ¬ Standing.fresh.reliability < lowTrust := by
  decide

end PeerRecord

open PeerRecord (Standing)

namespace PeerStore

/-- The standing of a peer in a store that holds a record of it. -/
def standing? (store : PeerStore) (id : PeerId) : Option Standing :=
  (store.get? id).map PeerRecord.standing

/-- A sighting creates a record, or it changes no standing. -/
theorem standing_add_or_update (store : PeerStore) (sighting : Sighting) (source : String)
    (now : Clock.Instant) :
    ((store.addOrUpdate sighting source now).1 = .inserted ∧ store.standing? sighting.id = none ∧
        ∀ id, (store.addOrUpdate sighting source now).2.standing? id =
          if sighting.id = id then some .fresh else store.standing? id) ∨
      ((store.addOrUpdate sighting source now).1 ≠ .inserted ∧
        ∀ id, (store.addOrUpdate sighting source now).2.standing? id = store.standing? id) := by
  unfold addOrUpdate standing?
  cases hrecord : store.get? sighting.id with
  | some record =>
      refine .inr ⟨nofun, fun id => ?_⟩
      rw [get_insert]
      split_ifs with hsame
      · rw [← hsame, hrecord]
        rfl
      · rfl
  | none =>
      by_cases hfull : store.limits.maxPeers ≤ store.size
      · dsimp only
        rw [if_pos hfull]
        exact .inr ⟨nofun, fun id => rfl⟩
      · dsimp only
        rw [if_neg hfull]
        refine .inl ⟨rfl, rfl, fun id => ?_⟩
        rw [get_insert]
        split_ifs <;> rfl

/-- An outcome is entered into the standing of its peer. -/
theorem standing_update_status (store : PeerStore) (id other : PeerId) (status : PeerStatus)
    (error : Option String) (now : Clock.Instant) :
    (store.updateStatus id status error now).2.standing? other =
      if id = other then (store.standing? other).map (·.enter status error)
      else store.standing? other := by
  unfold standing?
  rw [get_update_status]
  split_ifs with hsame
  · rw [hsame, Option.map_map, Option.map_map]
    exact Option.map_congr fun record _ => record.standing_with_status status error now
  · rfl

/-- An eviction leaves a standing alone, or it removes the record of a distrusted peer. -/
theorem standing_evict (store : PeerStore) (id : PeerId) (now : Clock.Instant) :
    (store.evict now).2.standing? id = store.standing? id ∨
      (store.evict now).2.standing? id = none ∧ ∃ standing, store.standing? id = some standing ∧
        standing.reliability < PeerRecord.lowTrust := by
  unfold standing?
  rw [get_evict]
  cases hrecord : store.get? id with
  | none => exact .inl rfl
  | some record =>
      cases hevictable : record.isEvictable now store.limits.retention with
      | false =>
          rw [Option.filter_some_pos (by rw [hevictable]; rfl)]
          exact .inl rfl
      | true =>
          rw [Option.filter_some_neg (by rw [hevictable]; decide)]
          exact .inr ⟨rfl, _, rfl, (PeerRecord.is_evictable_iff.1 hevictable).2⟩

end PeerStore

end PeerFinder
