import PeerFinder.Proofs.PeerStore.Accounts

/-!
# What evictions leave

Evictions come between other changes of a store. What is left after some changes in order was not
evictable at any of the evictions (`PeerStore.not_evictable_of_evicted`). A record that nothing else
is heard of is gone exactly after the first eviction at which it was evictable
(`PeerStore.get_run_of_quiet`), and one that was trusted or fresh whenever there was an eviction is
kept, with all that was heard of its peer (`PeerStore.get_run_of_spared`).
-/

namespace PeerFinder

namespace PeerRecord

variable {record : PeerRecord} {now : Clock.Instant} {retention : Clock.Span}

/-- A record is evictable if it was not seen for longer than the retention and is of low trust. -/
theorem is_evictable_iff :
    record.isEvictable now retention = true ↔
      retention < now - record.lastSeen ∧ record.reliability < lowTrust := by
  simp only [isEvictable, Bool.and_eq_true, decide_eq_true_eq]

/-- A record is not evictable for as long as the retention after it was seen. -/
theorem not_evictable_of_fresh (hfresh : now ≤ record.lastSeen + retention) :
    record.isEvictable now retention = false := by
  rw [← Bool.not_eq_true, is_evictable_iff]
  exact fun h => Nat.not_lt.2 (Nat.sub_le_iff_le_add'.2 hfresh) h.1

/-- A trusted record is not evictable. -/
theorem not_evictable_of_trusted (htrusted : ¬ record.reliability < lowTrust) :
    record.isEvictable now retention = false := by
  rw [← Bool.not_eq_true, is_evictable_iff]
  exact fun h => htrusted h.2

/-- A record was last seen when something was heard last. -/
theorem last_seen_enter (record : PeerRecord) (entry : Entry) :
    (record.enter entry).lastSeen = entry.now := by
  cases entry <;> rfl

/-- A record into which entries go in order was last seen no earlier than any of them. -/
theorem le_last_seen_foldl_enter (record : PeerRecord) {entries : List Entry}
    (hordered : (entries.map Entry.now).Pairwise (· ≤ ·)) {entry : Entry} (hmem : entry ∈ entries) :
    entry.now ≤ (entries.foldl enter record).lastSeen := by
  induction entries using List.reverseRecOn with
  | nil => cases hmem
  | append_singleton entries last _ =>
      rw [List.foldl_append, List.foldl_cons, List.foldl_nil, last_seen_enter]
      rw [List.map_append, List.pairwise_append] at hordered
      rcases List.mem_append.1 hmem with hearlier | hlast
      · exact hordered.2.2 _ (List.mem_map_of_mem hearlier) _ (List.mem_singleton_self _)
      · rw [List.mem_singleton.1 hlast]

end PeerRecord

namespace PeerStore

open PeerRecord (Entry)

variable {store : PeerStore} {id : PeerId} {record : PeerRecord} {changes : List Change}

/-- What is heard of a peer by changes in order is in order. -/
theorem entries_ordered (hordered : (changes.map Change.now).Pairwise (· ≤ ·)) (id : PeerId) :
    ((changes.filterMap (Change.entry? id)).map Entry.now).Pairwise (· ≤ ·) := by
  rw [List.pairwise_map] at hordered ⊢
  rw [List.pairwise_filterMap]
  refine hordered.imp fun hle entry hentry other hother => ?_
  rwa [Change.now_of_entry hentry, Change.now_of_entry hother]

/-- A record is left by an eviction exactly if it was there and was not evictable. -/
theorem get_apply_evicted_iff {now : Clock.Instant} :
    (store.apply (.evicted now)).get? id = some record ↔
      store.get? id = some record ∧ record.isEvictable now store.limits.retention = false := by
  rw [apply, get_evict, Option.filter_eq_some_iff, Bool.not_eq_true']

/-- A record that is there after a change was left alone by it, or was seen at that time. -/
theorem get_apply_cases {change : Change} (hrecord : (store.apply change).get? id = some record) :
    store.get? id = some record ∨ record.lastSeen = change.now := by
  have heffect := store.effect_apply id change
  rw [hrecord] at heffect
  generalize store.get? id = before at heffect
  cases heffect with
  | created now sighting source hchange => exact .inr (by rw [hchange]; rfl)
  | kept => exact .inl rfl
  | entered before entry hentry =>
      exact .inr (by rw [PeerRecord.last_seen_enter, Change.now_of_entry hentry])

/-- What is there after changes in order was not evictable at any eviction among them. -/
theorem not_evictable_of_evicted (hordered : (changes.map Change.now).Pairwise (· ≤ ·))
    (hrecord : (store.run changes).get? id = some record) {now : Clock.Instant}
    (hevicted : .evicted now ∈ changes) :
    record.isEvictable now store.limits.retention = false := by
  induction changes using List.reverseRecOn generalizing record with
  | nil => cases hevicted
  | append_singleton changes change ih =>
      rw [run_append_singleton] at hrecord
      rw [List.map_append, List.pairwise_append] at hordered
      rcases List.mem_append.1 hevicted with hearlier | hlast
      · rcases get_apply_cases hrecord with hbefore | hseen
        · exact ih hordered.1 hbefore hearlier
        · have hle := hordered.2.2 _ (List.mem_map_of_mem hearlier) _ (List.mem_singleton_self _)
          exact PeerRecord.not_evictable_of_fresh (hseen ▸ hle.trans (Nat.le_add_right _ _))
      · obtain rfl := List.mem_singleton.1 hlast
        have hleft := (get_apply_evicted_iff.1 hrecord).2
        rwa [limits_run] at hleft

/-- A peer of which nothing is heard stays absent. -/
theorem get_run_of_none (habsent : store.get? id = none)
    (hquiet : ∀ change ∈ changes, change.entry? id = none) : (store.run changes).get? id = none := by
  induction changes generalizing store with
  | nil => exact habsent
  | cons change rest ih =>
      refine ih ?_ fun other hother => hquiet other (.tail _ hother)
      have heffect := store.effect_apply id change
      rw [habsent] at heffect
      generalize (store.apply change).get? id = after at heffect
      cases heffect with
      | absent => rfl
      | created now sighting source hchange hid =>
          have hentry := hquiet change (.head _)
          rw [hchange, Change.entry?, if_pos hid] at hentry
          cases hentry

/-- A record of a peer of which nothing is heard stays as it is or is evicted. -/
theorem get_apply_of_quiet {change : Change} (hrecord : store.get? id = some record)
    (hquiet : change.entry? id = none) :
    (store.apply change).get? id = some record ∧
        (∀ now, change = .evicted now → record.isEvictable now store.limits.retention = false) ∨
      (store.apply change).get? id = none ∧
        ∃ now, change = .evicted now ∧ record.isEvictable now store.limits.retention = true := by
  have heffect := store.effect_apply id change
  rw [hrecord] at heffect
  generalize hafter : (store.apply change).get? id = after at heffect
  cases heffect with
  | kept =>
      refine .inl ⟨rfl, fun now hchange => ?_⟩
      subst hchange
      exact (get_apply_evicted_iff.1 hafter).2
  | entered _ entry hentry =>
      rw [hquiet] at hentry
      cases hentry
  | evicted _ now hchange hevictable => exact .inr ⟨rfl, now, hchange, hevictable⟩

/-- A record of a peer of which nothing is heard is gone after the first eviction at which it is
evictable, and stays as it is until then. -/
theorem get_run_of_quiet (hrecord : store.get? id = some record)
    (hquiet : ∀ change ∈ changes, change.entry? id = none) :
    (store.run changes).get? id = some record ∧
        (∀ now, .evicted now ∈ changes →
          record.isEvictable now store.limits.retention = false) ∨
      (store.run changes).get? id = none ∧
        ∃ now, .evicted now ∈ changes ∧
          record.isEvictable now store.limits.retention = true := by
  induction changes generalizing store with
  | nil => exact .inl ⟨hrecord, fun now hmem => by cases hmem⟩
  | cons change rest ih =>
      have hrest : ∀ other ∈ rest, other.entry? id = none :=
        fun other hother => hquiet other (.tail _ hother)
      rcases get_apply_of_quiet hrecord (hquiet change (.head _)) with
        ⟨hstays, hspares⟩ | ⟨hgone, now, rfl, hevictable⟩
      · rw [← limits_apply store change]
        refine (ih hstays hrest).imp (fun h => ⟨h.1, fun now hmem => ?_⟩) fun h => ⟨h.1, ?_⟩
        · rcases List.mem_cons.1 hmem with hfirst | hlater
          · rw [limits_apply]
            exact hspares now hfirst.symm
          · exact h.2 now hlater
        · obtain ⟨now, hmem, hevictable⟩ := h.2
          exact ⟨now, .tail _ hmem, hevictable⟩
      · have hafter : ((store.apply (.evicted now)).run rest).get? id = none :=
          get_run_of_none hgone hrest
        exact .inr ⟨hafter, now, .head _, hevictable⟩

/-- Whether a record is spared by an eviction after changes: it is trusted then, or something was
heard of its peer within the retention. -/
def IsSpared (retention : Clock.Span) (id : PeerId) (record : PeerRecord) (changes : List Change)
    (now : Clock.Instant) : Prop :=
  let entries := changes.filterMap (Change.entry? id)
  ¬ (entries.foldl PeerRecord.enter record).reliability < PeerRecord.lowTrust ∨
    (∃ entry ∈ entries, now ≤ entry.now + retention) ∨
    (entries = [] ∧ now ≤ record.lastSeen + retention)

/-- A record that is spared is not evictable. -/
theorem IsSpared.not_evictable {retention : Clock.Span} {now : Clock.Instant}
    (hordered : (changes.map Change.now).Pairwise (· ≤ ·))
    (h : IsSpared retention id record changes now) :
    ((changes.filterMap (Change.entry? id)).foldl PeerRecord.enter record).isEvictable now
      retention = false := by
  rcases h with htrusted | ⟨entry, hentry, hfresh⟩ | ⟨hnone, hfresh⟩
  · exact PeerRecord.not_evictable_of_trusted htrusted
  · have hle :=
      PeerRecord.le_last_seen_foldl_enter record (entries_ordered hordered id) hentry
    exact PeerRecord.not_evictable_of_fresh (hfresh.trans (Nat.add_le_add_right hle retention))
  · rw [hnone]
    exact PeerRecord.not_evictable_of_fresh hfresh

/-- A record that is spared by every eviction among changes in order is kept, and takes in all that is
heard of its peer. -/
theorem get_run_of_spared (hrecord : store.get? id = some record)
    (hordered : (changes.map Change.now).Pairwise (· ≤ ·))
    (hspared : ∀ before now after, changes = before ++ .evicted now :: after →
      IsSpared store.limits.retention id record before now) :
    (store.run changes).get? id =
      some ((changes.filterMap (Change.entry? id)).foldl PeerRecord.enter record) := by
  induction changes using List.reverseRecOn with
  | nil => exact hrecord
  | append_singleton changes change ih =>
      rw [List.map_append, List.pairwise_append] at hordered
      have hbefore := ih hordered.1 fun before now after hsplit =>
        hspared before now (after ++ [change]) (by rw [hsplit]; simp)
      have heffect := (store.run changes).effect_apply id change
      rw [run_append_singleton, List.filterMap_append]
      rw [hbefore] at heffect
      generalize ((store.run changes).apply change).get? id = after at heffect ⊢
      cases heffect with
      | kept _ hentry => simp [hentry]
      | entered _ entry hentry => simp [hentry]
      | evicted _ now hchange hevictable =>
          have hnot := (hspared changes now [] (by rw [hchange])).not_evictable hordered.1
          rw [limits_run, hnot] at hevictable
          cases hevictable

end PeerStore

end PeerFinder
