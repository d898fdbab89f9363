import Mathlib.Algebra.Order.Ring.Nat
import PeerFinder.Proofs.PeerStore.Order

/-!
# The books of a store

A store answers every change, and its answers are the books of how many records it holds: an
insertion adds one, an eviction takes away as many as it says. `PeerStore.run_accounts` says that the
books are right after any changes of a store that was empty, that the store is never over its limit,
and that what it answers next is told by whether it has a record of the peer and room for one more.
-/

namespace PeerFinder

/-- Whether a record was last seen no earlier than first, and neither after a given time. -/
structure PeerRecord.IsDated (record : PeerRecord) (now : Clock.Instant) : Prop where
  first_le_last : record.firstSeen ≤ record.lastSeen
  last_le : record.lastSeen ≤ now

namespace PeerStore

/-- When a change happens. -/
def Change.now : Change → Clock.Instant
  | .seen now _ _ => now
  | .dialed now _ _ _ => now
  | .evicted now => now

/-- What is heard of a peer by a change is heard when the change happens. -/
theorem Change.now_of_entry {id : PeerId} {change : Change} {entry : PeerRecord.Entry}
    (h : change.entry? id = some entry) : entry.now = change.now := by
  cases change with
  | seen now sighting source =>
      obtain ⟨-, hentry⟩ := Option.ite_none_right_eq_some.1 h
      exact (Option.some.inj hentry) ▸ rfl
  | dialed now other status error =>
      obtain ⟨-, hentry⟩ := Option.ite_none_right_eq_some.1 h
      exact (Option.some.inj hentry) ▸ rfl
  | evicted now => cases h

/-- What a store answers to a change. -/
inductive Reply where
  /-- What became of a sighting. -/
  | seen (outcome : Upsert)
  /-- Whether the peer of a connection is known. -/
  | dialed (known : Bool)
  /-- How many records an eviction removed. -/
  | evicted (removed : Nat)
deriving DecidableEq

/-- The records that a reply says were removed. -/
def Reply.removed : Reply → Nat
  | .evicted removed => removed
  | .seen _ | .dialed _ => 0

/-- The answer of a store to a change. -/
def reply (store : PeerStore) : Change → Reply
  | .seen now sighting source => .seen (store.addOrUpdate sighting source now).1
  | .dialed now id status error => .dialed (store.updateStatus id status error now).1
  | .evicted now => .evicted (store.evict now).1

/-- The answers of a store to changes one after another. -/
def replies (store : PeerStore) : List Change → List Reply
  | [] => []
  | change :: rest => store.reply change :: (store.apply change).replies rest

/-- How many records replies say were created. -/
def created (replies : List Reply) : Nat :=
  replies.count (.seen .inserted)

/-- How many records replies say were removed. -/
def removed (replies : List Reply) : Nat :=
  (replies.map Reply.removed).sum

/-- The answer to one change more comes last. -/
theorem replies_append_singleton (store : PeerStore) (changes : List Change) (change : Change) :
    store.replies (changes ++ [change]) =
      store.replies changes ++ [(store.run changes).reply change] := by
  induction changes generalizing store with
  | nil => rfl
  | cons first rest ih => exact congrArg _ (ih (store.apply first))

section Answers

variable (store : PeerStore) (sighting : Sighting) (source : String) (id : PeerId)
  (status : PeerStatus) (error : Option String) (now : Clock.Instant)

/-- A sighting of a known peer is answered as such. -/
theorem add_or_update_updated_iff :
    (store.addOrUpdate sighting source now).1 = .updated ↔ store.get? sighting.id ≠ none := by
  unfold addOrUpdate
  cases store.get? sighting.id with
  | some record => simp
  | none => by_cases hfull : store.limits.maxPeers ≤ store.size <;> simp [hfull]

/-- A new peer is inserted if there is room for it. -/
theorem add_or_update_inserted_iff :
    (store.addOrUpdate sighting source now).1 = .inserted ↔
      store.get? sighting.id = none ∧ store.size < store.limits.maxPeers := by
  unfold addOrUpdate
  cases store.get? sighting.id with
  | some record => simp
  | none =>
      rcases Nat.lt_or_ge store.size store.limits.maxPeers with hroom | hfull
      · simp [hroom, Nat.not_le.2 hroom]
      · simp [hfull, Nat.not_lt.2 hfull]

/-- A new peer is rejected if there is no room for it. -/
theorem add_or_update_rejected_iff :
    (store.addOrUpdate sighting source now).1 = .rejected ↔
      store.get? sighting.id = none ∧ store.limits.maxPeers ≤ store.size := by
  unfold addOrUpdate
  cases store.get? sighting.id with
  | some record => simp
  | none => by_cases hfull : store.limits.maxPeers ≤ store.size <;> simp [hfull]

/-- A store that rejects a peer stays as it is. -/
theorem add_or_update_of_rejected
    (h : (store.addOrUpdate sighting source now).1 = .rejected) :
    (store.addOrUpdate sighting source now).2 = store := by
  obtain ⟨habsent, hfull⟩ := (store.add_or_update_rejected_iff sighting source now).1 h
  simp [addOrUpdate, habsent, hfull]

/-- The outcome of a connection is answered with false if the peer is not known. -/
theorem update_status_false_iff :
    (store.updateStatus id status error now).1 = false ↔ store.get? id = none := by
  unfold updateStatus
  cases store.get? id <;> simp

/-- The outcome of a connection to a peer that is not known changes nothing. -/
theorem update_status_of_none (habsent : store.get? id = none) :
    (store.updateStatus id status error now).2 = store := by
  simp [updateStatus, habsent]

end Answers

/-- A record that is put in adds one to the size unless there was one of the same peer. -/
theorem size_insert (store : PeerStore) (id : PeerId) (record : PeerRecord) :
    size { store with records := store.records.insert id record } =
      if store.get? id = none then store.size + 1 else store.size := by
  have hpresent : store.records.contains id = true ↔ ¬ store.get? id = none := by
    rw [Std.ExtTreeMap.contains_iff_mem, Std.ExtTreeMap.mem_iff_isSome_getElem?,
      Option.isSome_iff_ne_none]
    rfl
  unfold size
  rw [Std.ExtTreeMap.size_insert]
  split_ifs <;> simp_all

/-- What a change does to the size is what the answer says. -/
theorem size_apply (store : PeerStore) (change : Change) :
    (store.apply change).size + removed [store.reply change] =
      store.size + created [store.reply change] := by
  cases change with
  | seen now sighting source =>
      unfold apply reply addOrUpdate
      cases hrecord : store.get? sighting.id with
      | some record => simp [size_insert, hrecord, created, removed, Reply.removed]
      | none =>
          by_cases hfull : store.limits.maxPeers ≤ store.size <;>
            simp [size_insert, hrecord, hfull, created, removed, Reply.removed]
  | dialed now id status error =>
      unfold apply reply updateStatus
      cases hrecord : store.get? id <;>
        simp [size_insert, hrecord, created, removed, Reply.removed]
  | evicted now =>
      have hle : (store.evict now).2.size ≤ store.size := Std.ExtTreeMap.size_filter_le_size
      have hanswer : (store.evict now).1 = store.size - (store.evict now).2.size := rfl
      simp only [apply, reply, created, removed, Reply.removed, List.map_cons, List.map_nil,
        List.sum_cons, List.sum_nil, List.count_singleton, reduceCtorEq, beq_iff_eq, if_false]
      omega

/-- Only a store that is not full says that it inserted a record. -/
theorem created_reply_le (store : PeerStore) (change : Change)
    (hbounded : store.size ≤ store.limits.maxPeers) :
    store.size + created [store.reply change] ≤ store.limits.maxPeers := by
  unfold created
  rw [List.count_singleton]
  split
  · rename_i hinserted
    cases change with
    | seen now sighting source =>
        have houtcome := Reply.seen.inj (eq_of_beq hinserted)
        exact ((store.add_or_update_inserted_iff sighting source now).1 houtcome).2
    | dialed | evicted => simp [reply] at hinserted
  · exact hbounded

/-- The state of the books of a store at a time, after some answers: it is not over its limit, every
record is that of the peer it is filed under and dated, and the answers account for the size. -/
structure IsSound (store : PeerStore) (now : Clock.Instant) (replies : List Reply) : Prop where
  bounded : store.size ≤ store.limits.maxPeers
  filed : ∀ id record, store.get? id = some record → record.id = id
  dated : ∀ id record, store.get? id = some record → record.IsDated now
  balanced : store.size + removed replies = created replies

section Soundness

variable {store : PeerStore} {now : Clock.Instant} {answers : List Reply}

/-- The books of a store that holds nothing are right before it answered anything. -/
theorem is_sound_empty (limits : StoreLimits) (now : Clock.Instant) :
    IsSound { limits := limits } now [] := by
  have hnone : ∀ id record, get? { limits := limits } id ≠ some record := by
    intro id record
    simp [get?]
  exact ⟨Nat.zero_le _, fun id record h => absurd h (hnone id record),
    fun id record h => absurd h (hnone id record), rfl⟩

/-- Time may pass. -/
theorem IsSound.mono (h : store.IsSound now answers) {later : Clock.Instant} (hlater : now ≤ later) :
    store.IsSound later answers :=
  { h with
    dated := fun id record hrecord =>
      ⟨(h.dated id record hrecord).first_le_last, (h.dated id record hrecord).last_le.trans hlater⟩ }

/-- What is entered into a record keeps its peer and its first time, and is heard last. -/
theorem enter_is_dated {record : PeerRecord} {entry : PeerRecord.Entry}
    (h : record.IsDated now) (hlater : now ≤ entry.now) :
    (record.enter entry).id = record.id ∧ (record.enter entry).IsDated entry.now := by
  have hfirst := h.first_le_last.trans (h.last_le.trans hlater)
  cases entry <;> exact ⟨rfl, hfirst, le_rfl⟩

/-- A change that is no earlier leaves every record with its peer, and dated. -/
theorem IsSound.filed_apply (h : store.IsSound now answers) {change : Change}
    (hlater : now ≤ change.now) {id : PeerId} {record : PeerRecord}
    (hrecord : (store.apply change).get? id = some record) :
    record.id = id ∧ record.IsDated change.now := by
  have heffect := store.effect_apply id change
  rw [hrecord] at heffect
  generalize hbefore : store.get? id = before at heffect
  cases heffect with
  | created created sighting source hchange hid =>
      subst hchange
      exact ⟨hid, le_rfl, le_rfl⟩
  | kept =>
      have hdated := h.dated id record hbefore
      exact ⟨h.filed id record hbefore, hdated.first_le_last, hdated.last_le.trans hlater⟩
  | entered record entry hentry =>
      have hnow := Change.now_of_entry hentry
      obtain ⟨hid, hdated⟩ := enter_is_dated (h.dated id record hbefore) (hnow ▸ hlater)
      exact ⟨hid.trans (h.filed id record hbefore), hnow ▸ hdated⟩

/-- A change that is no earlier leaves the books right. -/
theorem IsSound.apply (h : store.IsSound now answers) {change : Change}
    (hlater : now ≤ change.now) :
    (store.apply change).IsSound change.now (answers ++ [store.reply change]) where
  bounded := by
    have hsize := store.size_apply change
    have hcreated := store.created_reply_le change h.bounded
    rw [limits_apply]
    omega
  filed id record hrecord := (h.filed_apply hlater hrecord).1
  dated id record hrecord := (h.filed_apply hlater hrecord).2
  balanced := by
    have hsize := store.size_apply change
    have hbalanced := h.balanced
    simp only [removed, created, List.map_append, List.sum_append, List.count_append]
      at hsize hbalanced ⊢
    omega

/-- Changes in the order of time leave the books right. -/
theorem is_sound_run (limits : StoreLimits) (changes : List Change)
    (hordered : (changes.map Change.now).Pairwise (· ≤ ·)) (now : Clock.Instant)
    (hlater : ∀ change ∈ changes, change.now ≤ now) :
    (run { limits := limits } changes).IsSound now (replies { limits := limits } changes) := by
  induction changes using List.reverseRecOn generalizing now with
  | nil => exact is_sound_empty limits now
  | append_singleton changes change ih =>
      rw [List.map_append, List.pairwise_append] at hordered
      obtain ⟨hbefore, -, hlast⟩ := hordered
      have hsound := ih hbefore change.now fun other hother =>
        hlast other.now (List.mem_map_of_mem hother) change.now (List.mem_singleton_self _)
      rw [run_append_singleton, replies_append_singleton]
      exact (hsound.apply le_rfl).mono (hlater change (by simp))

end Soundness

/-- Whatever changes a store that was empty goes through in the order of time, it never holds more
records than it may, files each under its own peer, and each was last seen no earlier than first and
not later than now. It answers a sighting with an update exactly if it has a record of the peer, with
an insertion exactly if it has none and is not full, and rejects it otherwise and stays as it is. The
outcome of a connection is answered with false, and changes nothing, exactly if there is no record of
the peer. The records it holds are those it said it inserted, less those it said it evicted. -/
theorem run_accounts (limits : StoreLimits) (changes : List Change)
    (hordered : (changes.map Change.now).Pairwise (· ≤ ·)) (now : Clock.Instant)
    (hlater : ∀ change ∈ changes, change.now ≤ now) :
    let store := run { limits := limits } changes
    let answers := replies { limits := limits } changes
    store.size ≤ limits.maxPeers ∧
    (∀ id record, store.get? id = some record →
      record.id = id ∧ record.firstSeen ≤ record.lastSeen ∧ record.lastSeen ≤ now) ∧
    (∀ sighting source later,
      ((store.addOrUpdate sighting source later).1 = .updated ↔ store.get? sighting.id ≠ none) ∧
      ((store.addOrUpdate sighting source later).1 = .inserted ↔
        store.get? sighting.id = none ∧ store.size < limits.maxPeers) ∧
      ((store.addOrUpdate sighting source later).1 = .rejected ↔
        store.get? sighting.id = none ∧ store.size = limits.maxPeers) ∧
      ((store.addOrUpdate sighting source later).1 = .rejected →
        (store.addOrUpdate sighting source later).2 = store)) ∧
    (∀ id status error later,
      ((store.updateStatus id status error later).1 = false ↔ store.get? id = none) ∧
      (store.updateStatus id status error later = (false, store) ↔ store.get? id = none)) ∧
    store.size + (answers.map Reply.removed).sum = answers.count (.seen .inserted) := by
  intro store answers
  have hsound : store.IsSound now answers := is_sound_run limits changes hordered now hlater
  have hlimits : store.limits = limits := limits_run _ changes
  have hbounded := hlimits ▸ hsound.bounded
  refine ⟨hbounded, fun id record hrecord => ?_, fun sighting source later => ?_,
    fun id status error later => ⟨store.update_status_false_iff id status error later, ?_⟩,
    hsound.balanced⟩
  · obtain ⟨hfirst, hlast⟩ := hsound.dated id record hrecord
    exact ⟨hsound.filed id record hrecord, hfirst, hlast⟩
  · refine ⟨store.add_or_update_updated_iff sighting source later,
      hlimits ▸ store.add_or_update_inserted_iff sighting source later, ?_,
      store.add_or_update_of_rejected sighting source later⟩
    rw [store.add_or_update_rejected_iff, hlimits]
    exact and_congr_right fun _ => ⟨hbounded.antisymm, fun hfull => hfull.ge⟩
  · refine ⟨fun hanswer => ?_, fun habsent => ?_⟩
    · exact (store.update_status_false_iff id status error later).1 (congrArg Prod.fst hanswer)
    · exact Prod.ext ((store.update_status_false_iff id status error later).2 habsent)
        (store.update_status_of_none id status error later habsent)

/-- Another peer. -/
def otherSighting : Sighting :=
  .ofInfo ⟨⟨21 :: List.replicate 31 0, rfl, by decide +kernel⟩, ∅⟩

/-- In a store with room for one peer, a peer is inserted, another one rejected, the first one is
updated and dialed, and an eviction soon after finds nothing that is stale. -/
def crowded : List Change :=
  [.seen 0 (sightingAt 1) "dht", .seen 3 otherSighting "mdns", .seen 3 (sightingAt 2) "mdns",
    .dialed 4 peerId .connected none, .dialed 5 otherSighting.id .unreachable none, .evicted 9]

/-- The store is full then, and its books say so. -/
theorem run_accounts_crowded :
    (crowded.map Change.now).Pairwise (· ≤ ·) ∧ (∀ change ∈ crowded, change.now ≤ 9) ∧
      (vacant.run crowded).get? otherSighting.id = none ∧
      ((vacant.run crowded).addOrUpdate otherSighting "dht" 10).1 = .rejected ∧
      (vacant.run crowded).size = 1 := by
  have hordered : (crowded.map Change.now).Pairwise (· ≤ ·) := by decide
  have hlater : ∀ change ∈ crowded, change.now ≤ 9 := by decide
  have hreplies : replies { limits := vacant.limits } crowded = [.seen .inserted, .seen .rejected,
      .seen .updated, .dialed true, .dialed false, .evicted 0] := by
    decide +kernel
  obtain ⟨-, -, hsightings, hstatus, hbalanced⟩ :=
    run_accounts vacant.limits crowded hordered 9 hlater
  have hsize : (vacant.run crowded).size = 1 := by
    rw [hreplies] at hbalanced
    exact hbalanced
  have habsent : (vacant.run crowded).get? otherSighting.id = none := by decide +kernel
  exact ⟨hordered, hlater, habsent,
    (hsightings otherSighting "dht" 10).2.2.1.2 ⟨habsent, hsize⟩, hsize⟩

end PeerStore

end PeerFinder
