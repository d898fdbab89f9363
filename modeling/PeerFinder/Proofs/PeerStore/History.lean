import Mathlib.Data.List.Induction
import PeerFinder.PeerStore

/-!
# The record of a peer as its history

Sightings, connection outcomes and evictions change a store one after another. `Log` is what was
heard of one peer since its record was created, and `Log.record` reads every field of a record off
such a log: unions, last values, counts, and the reliability as a sum of steps.
`PeerStore.get_run_iff_log` says that the record of a peer is that of its log, whatever happened to
other peers in between, and that what happens to other peers leaves it alone.
-/

namespace PeerFinder

namespace PeerRecord

/-- What is heard of a peer, with the time. -/
inductive Entry where
  /-- A source reports the peer. -/
  | seen (now : Clock.Instant) (sighting : Sighting) (source : String)
  /-- A connection to it had an outcome. -/
  | dialed (now : Clock.Instant) (status : PeerStatus) (error : Option String)

/-- When something was heard. -/
def Entry.now : Entry → Clock.Instant
  | .seen now _ _ => now
  | .dialed now _ _ => now

/-- A sighting with its source. -/
def Entry.sighting? : Entry → Option (Sighting × String)
  | .seen _ sighting source => some (sighting, source)
  | .dialed .. => none

/-- The outcome of a connection with its error. -/
def Entry.outcome? : Entry → Option (PeerStatus × Option String)
  | .dialed _ status error => some (status, error)
  | .seen .. => none

/-- A record after something more was heard of the peer. -/
def enter (record : PeerRecord) : Entry → PeerRecord
  | .seen now sighting source => record.merge sighting source now
  | .dialed now status error => record.withStatus status error now

/-- The reliability after the outcome of a connection. -/
def rate (reliability : Float) : PeerStatus → Float
  | .connected => reward reliability
  | .unreachable => penalty reliability
  | .unknown | .connectable => reliability

/-- The outcome of a connection moves the reliability by one step. -/
theorem reliability_with_status (record : PeerRecord) (status : PeerStatus)
    (error : Option String) (now : Clock.Instant) :
    (record.withStatus status error now).reliability = rate record.reliability status := by
  cases status <;> rfl

/-- All that was heard of a peer since its record was created: the sighting that created it, and what
came later, in order. -/
structure Log where
  begun : Clock.Instant
  first : Sighting
  source : String
  later : List Entry

namespace Log

/-- The sightings after the first one with their sources. -/
def merged (log : Log) : List (Sighting × String) :=
  log.later.filterMap Entry.sighting?

/-- The outcomes of connections with their errors. -/
def outcomes (log : Log) : List (PeerStatus × Option String) :=
  log.later.filterMap Entry.outcome?

/-- The record that a log amounts to. -/
def record (log : Log) : PeerRecord where
  id := log.first.id
  addresses :=
    log.merged.foldl (fun union seen => union ∪ seen.1.info.addresses) log.first.info.addresses
  services := log.merged.foldl (fun union seen => union ∪ seen.1.services) log.first.services
  source := log.merged.getLast?.elim log.source Prod.snd
  firstSeen := log.begun
  lastSeen := log.later.getLast?.elim log.begun Entry.now
  status := log.outcomes.getLast?.elim .unknown Prod.fst
  lastError := log.outcomes.getLast?.bind Prod.snd
  connectCount := min (log.outcomes.countP (·.1 = .connected)) connectLimit
  reliability :=
    log.outcomes.foldl (fun reliability outcome => rate reliability outcome.1) initialReliability

/-- The log with something more that was heard. -/
def extend (log : Log) (entry : Entry) : Log :=
  { log with later := log.later ++ [entry] }

/-- A log of one sighting amounts to the record of a first sighting. -/
theorem record_of_first (now : Clock.Instant) (first : Sighting) (source : String) :
    record ⟨now, first, source, []⟩ = ofSighting first source now := by
  simp [record, merged, outcomes, ofSighting]

/-- The sightings of a log that is extended. -/
theorem merged_extend (log : Log) (entry : Entry) :
    (log.extend entry).merged = log.merged ++ entry.sighting?.toList := by
  cases entry <;> simp [merged, extend, List.filterMap_append, List.filterMap_cons, Entry.sighting?]

/-- The outcomes of a log that is extended. -/
theorem outcomes_extend (log : Log) (entry : Entry) :
    (log.extend entry).outcomes = log.outcomes ++ entry.outcome?.toList := by
  cases entry <;>
    simp [outcomes, extend, List.filterMap_append, List.filterMap_cons, Entry.outcome?]

/-- A log that is extended is still one of the same record. -/
theorem begun_extend (log : Log) (entry : Entry) : (log.extend entry).begun = log.begun := rfl

/-- It begins with the same sighting. -/
theorem first_extend (log : Log) (entry : Entry) : (log.extend entry).first = log.first := rfl

/-- That sighting is from the same source. -/
theorem source_extend (log : Log) (entry : Entry) : (log.extend entry).source = log.source := rfl

/-- What a log is extended with comes last. -/
theorem last_later_extend (log : Log) (entry : Entry) :
    (log.extend entry).later.getLast? = some entry :=
  List.getLast?_concat

/-- A sighting more extends the unions and is the last source and the last time. -/
theorem record_extend_seen (log : Log) (now : Clock.Instant) (sighting : Sighting)
    (source : String) :
    (log.extend (.seen now sighting source)).record = log.record.merge sighting source now := by
  have hmerged := log.merged_extend (.seen now sighting source)
  have houtcomes := log.outcomes_extend (.seen now sighting source)
  simp only [Entry.sighting?, Entry.outcome?, Option.toList_some, Option.toList_none,
    List.append_nil] at hmerged houtcomes
  simp only [record, merge, hmerged, houtcomes, begun_extend, first_extend, source_extend,
    last_later_extend, List.foldl_append, List.foldl_cons, List.foldl_nil, List.getLast?_concat,
    Option.elim_some, Entry.now]

/-- An outcome more is the last status and the last time, is counted if it is a connection and the
count has not reached its limit, and moves the reliability. -/
theorem record_extend_dialed (log : Log) (now : Clock.Instant) (status : PeerStatus)
    (error : Option String) :
    (log.extend (.dialed now status error)).record = log.record.withStatus status error now := by
  have hmerged := log.merged_extend (.dialed now status error)
  have houtcomes := log.outcomes_extend (.dialed now status error)
  simp only [Entry.sighting?, Entry.outcome?, Option.toList_some, Option.toList_none,
    List.append_nil] at hmerged houtcomes
  have hcount : min (log.outcomes.countP (·.1 = .connected) + if status = .connected then 1 else 0)
      connectLimit = if status = .connected then
        min (min (log.outcomes.countP (·.1 = .connected)) connectLimit + 1) connectLimit
      else min (log.outcomes.countP (·.1 = .connected)) connectLimit := by
    split <;> omega
  have hreliability := log.record.reliability_with_status status error now
  simp only [record, withStatus] at hreliability ⊢
  simp only [hreliability, hmerged, houtcomes, begun_extend, first_extend, source_extend,
    last_later_extend, List.foldl_append, List.foldl_cons, List.foldl_nil, List.getLast?_concat,
    Option.elim_some, Option.bind_some, Entry.now, List.countP_append, List.countP_singleton,
    decide_eq_true_eq, hcount]

/-- A log that is extended amounts to the record with that entered into it. -/
theorem record_extend (log : Log) (entry : Entry) :
    (log.extend entry).record = log.record.enter entry := by
  cases entry with
  | seen now sighting source => exact log.record_extend_seen now sighting source
  | dialed now status error => exact log.record_extend_dialed now status error

end Log

end PeerRecord

namespace PeerStore

open PeerRecord (Entry Log)

section Lookups

variable (store : PeerStore) (id other : PeerId) (now : Clock.Instant)

/-- A record that was put in is the one of its peer, and those of other peers stay. -/
theorem get_insert (record : PeerRecord) :
    get? { store with records := store.records.insert id record } other =
      if id = other then some record else store.get? other := by
  unfold get?
  rw [Std.ExtTreeMap.getElem?_insert]
  by_cases hsame : id = other
  · rw [if_pos hsame, if_pos (hsame ▸ Std.ReflCmp.compare_self)]
  · rw [if_neg hsame, if_neg fun heq => hsame (Std.LawfulEqOrd.eq_of_compare heq)]

/-- A sighting is merged into the record of its peer, or creates one if there is room. -/
theorem get_add_or_update (sighting : Sighting) (source : String) :
    (store.addOrUpdate sighting source now).2.get? other =
      if sighting.id = other then
        match store.get? sighting.id with
        | some record => some (record.merge sighting source now)
        | none =>
            if store.limits.maxPeers ≤ store.size then none
            else some (.ofSighting sighting source now)
      else store.get? other := by
  unfold addOrUpdate
  cases hrecord : store.get? sighting.id with
  | some record => exact store.get_insert sighting.id other _
  | none =>
      by_cases hfull : store.limits.maxPeers ≤ store.size
      · simp only [if_pos hfull]
        split
        · rename_i hsame
          rw [← hsame, hrecord]
        · rfl
      · simp only [if_neg hfull]
        exact store.get_insert sighting.id other _

/-- The outcome of a connection goes into the record of its peer if there is one. -/
theorem get_update_status (status : PeerStatus) (error : Option String) :
    (store.updateStatus id status error now).2.get? other =
      if id = other then (store.get? id).map fun record => record.withStatus status error now
      else store.get? other := by
  unfold updateStatus
  cases hrecord : store.get? id with
  | some record => exact store.get_insert id other _
  | none =>
      by_cases hsame : id = other
      · rw [if_pos hsame, ← hsame]
        exact hrecord
      · rw [if_neg hsame]

/-- An eviction removes the record of a peer if it is evictable, and leaves it alone otherwise. -/
theorem get_evict :
    (store.evict now).2.get? id =
      (store.get? id).filter fun record => !record.isEvictable now store.limits.retention := by
  unfold get? evict
  rw [Std.ExtTreeMap.getElem?_filter']

end Lookups

/-- A change of a store, with the time. -/
inductive Change where
  /-- A source reports a peer. -/
  | seen (now : Clock.Instant) (sighting : Sighting) (source : String)
  /-- A connection to a peer had an outcome. -/
  | dialed (now : Clock.Instant) (id : PeerId) (status : PeerStatus) (error : Option String)
  /-- The evictable records are removed. -/
  | evicted (now : Clock.Instant)

/-- The store after a change. -/
def apply (store : PeerStore) : Change → PeerStore
  | .seen now sighting source => (store.addOrUpdate sighting source now).2
  | .dialed now id status error => (store.updateStatus id status error now).2
  | .evicted now => (store.evict now).2

/-- The store after changes one after another. -/
def run (store : PeerStore) (changes : List Change) : PeerStore :=
  changes.foldl apply store

/-- What is heard of a peer by a change. -/
def Change.entry? (id : PeerId) : Change → Option Entry
  | .seen now sighting source =>
      if sighting.id = id then some (.seen now sighting source) else none
  | .dialed now other status error =>
      if other = id then some (.dialed now status error) else none
  | .evicted _ => none

/-- What a change does to the record of a peer, given how long records are retained. -/
inductive Effect (retention : Clock.Span) (id : PeerId) (change : Change) :
    Option PeerRecord → Option PeerRecord → Prop where
  | absent : Effect retention id change none none
  | created (now : Clock.Instant) (sighting : Sighting) (source : String)
      (hchange : change = .seen now sighting source) (hid : sighting.id = id) :
      Effect retention id change none (some (.ofSighting sighting source now))
  | kept (record : PeerRecord) (hentry : change.entry? id = none) :
      Effect retention id change (some record) (some record)
  | entered (record : PeerRecord) (entry : Entry) (hentry : change.entry? id = some entry) :
      Effect retention id change (some record) (some (record.enter entry))
  | evicted (record : PeerRecord) (now : Clock.Instant) (hchange : change = .evicted now)
      (hevictable : record.isEvictable now retention = true) :
      Effect retention id change (some record) none

/-- A change creates the record of a peer, leaves it alone, enters what is heard into it or evicts
it. -/
theorem effect_apply (store : PeerStore) (id : PeerId) (change : Change) :
    Effect store.limits.retention id change (store.get? id) ((store.apply change).get? id) := by
  cases change with
  | seen now sighting source =>
      rw [apply, get_add_or_update]
      by_cases hid : sighting.id = id
      · rw [if_pos hid, hid]
        cases store.get? id with
        | some record => exact .entered record (.seen now sighting source) (if_pos hid)
        | none =>
            dsimp only
            split
            · exact .absent
            · exact .created now sighting source rfl hid
      · rw [if_neg hid]
        cases store.get? id with
        | some record => exact .kept record (if_neg hid)
        | none => exact .absent
  | dialed now other status error =>
      rw [apply, get_update_status]
      by_cases hid : other = id
      · subst hid
        rw [if_pos rfl]
        cases store.get? other with
        | some record => exact .entered record (.dialed now status error) (if_pos rfl)
        | none => exact .absent
      · rw [if_neg hid]
        cases store.get? id with
        | some record => exact .kept record (if_neg hid)
        | none => exact .absent
  | evicted now =>
      rw [apply, get_evict]
      cases store.get? id with
      | none => exact .absent
      | some record =>
          cases hevictable : record.isEvictable now store.limits.retention with
          | true =>
              rw [Option.filter_some_neg (by rw [hevictable]; decide)]
              exact .evicted record now rfl hevictable
          | false =>
              rw [Option.filter_some_pos (by rw [hevictable]; rfl)]
              exact .kept record rfl

/-- One change more. -/
theorem run_append_singleton (store : PeerStore) (changes : List Change) (change : Change) :
    store.run (changes ++ [change]) = (store.run changes).apply change := by
  simp [run]

/-- A change keeps the limits. -/
theorem limits_apply (store : PeerStore) (change : Change) :
    (store.apply change).limits = store.limits := by
  cases change with
  | seen now sighting source =>
      unfold apply addOrUpdate
      dsimp only
      split
      · rfl
      · split <;> rfl
  | dialed now id status error =>
      unfold apply updateStatus
      dsimp only
      split <;> rfl
  | evicted now => rfl

/-- Changes keep the limits. -/
theorem limits_run (store : PeerStore) (changes : List Change) :
    (store.run changes).limits = store.limits := by
  induction changes generalizing store with
  | nil => rfl
  | cons change rest ih => exact (ih (store.apply change)).trans (store.limits_apply change)

/-- Whether a sighting creates the record of a peer after some changes, and the record stays during
those that follow. -/
structure Creates (store : PeerStore) (id : PeerId) (before : List Change) (now : Clock.Instant)
    (first : Sighting) (source : String) (after : List Change) : Prop where
  id_eq : first.id = id
  absent : (store.run before).get? id = none
  stays : ∀ part, part <+: after →
    (store.run (before ++ .seen now first source :: part)).get? id ≠ none

section Histories

variable {store : PeerStore} {id : PeerId} {before after : List Change} {now : Clock.Instant}
  {first : Sighting} {source : String}

/-- What is created and stays also does during the first of the changes that follow. -/
theorem Creates.of_append {change : Change}
    (h : store.Creates id before now first source (after ++ [change])) :
    store.Creates id before now first source after :=
  ⟨h.id_eq, h.absent, fun part hpart => h.stays part (hpart.trans (List.prefix_append after _))⟩

/-- What is created and stays still does when one change more leaves it. -/
theorem Creates.append (h : store.Creates id before now first source after) {change : Change}
    (hstays : (store.run (before ++ .seen now first source :: (after ++ [change]))).get? id ≠ none) :
    store.Creates id before now first source (after ++ [change]) := by
  refine ⟨h.id_eq, h.absent, fun part hpart => ?_⟩
  rcases List.prefix_concat_iff.1 hpart with rfl | hpart
  · exact hstays
  · exact h.stays part hpart

/-- The record of a peer that is present was created by some sighting and stayed since. -/
theorem exists_creates (hempty : store.get? id = none) (changes : List Change)
    (hpresent : (store.run changes).get? id ≠ none) :
    ∃ before now first source after, changes = before ++ .seen now first source :: after ∧
      store.Creates id before now first source after := by
  induction changes using List.reverseRecOn with
  | nil => exact absurd hempty hpresent
  | append_singleton changes change ih =>
      have heffect := (store.run changes).effect_apply id change
      rw [run_append_singleton] at hpresent
      by_cases hbefore : (store.run changes).get? id = none
      · -- The last change created the record.
        rw [hbefore] at heffect
        generalize hafter : ((store.run changes).apply change).get? id = result at heffect hpresent
        cases heffect with
        | absent => exact absurd rfl hpresent
        | created now first source hchange hid =>
            subst hchange
            refine ⟨changes, now, first, source, [], rfl, hid, hbefore, fun part hpart => ?_⟩
            rw [List.prefix_nil.1 hpart, run_append_singleton, hafter]
            exact hpresent
      · obtain ⟨before, now, first, source, after, rfl, hcreates⟩ := ih hbefore
        refine ⟨before, now, first, source, after ++ [change], by simp, hcreates.append ?_⟩
        rw [← run_append_singleton] at hpresent
        simpa using hpresent

/-- A record that was created and stayed is the one that its log amounts to. -/
theorem Creates.get_run (h : store.Creates id before now first source after) :
    (store.run (before ++ .seen now first source :: after)).get? id =
      some (Log.record ⟨now, first, source, after.filterMap (Change.entry? id)⟩) := by
  induction after using List.reverseRecOn with
  | nil =>
      have heffect := (store.run before).effect_apply id (.seen now first source)
      have hstays := h.stays [] List.prefix_rfl
      rw [run_append_singleton] at hstays ⊢
      rw [h.absent] at heffect
      generalize ((store.run before).apply (.seen now first source)).get? id = result
        at heffect hstays ⊢
      cases heffect with
      | absent => exact absurd rfl hstays
      | created _ _ _ hchange _ =>
          cases hchange
          rw [List.filterMap_nil, Log.record_of_first]
  | append_singleton after change ih =>
      have hrecord := ih h.of_append
      have hstays := h.stays _ List.prefix_rfl
      have hrun : store.run (before ++ .seen now first source :: (after ++ [change])) =
          (store.run (before ++ .seen now first source :: after)).apply change := by
        rw [← run_append_singleton]
        simp
      have heffect := (store.run (before ++ .seen now first source :: after)).effect_apply id change
      rw [← hrun, hrecord] at heffect
      rw [List.filterMap_append]
      generalize (store.run (before ++ .seen now first source :: (after ++ [change]))).get? id = result
        at heffect hstays ⊢
      cases heffect with
      | kept _ hentry => simp [hentry]
      | entered _ entry hentry => simp [hentry, ← Log.record_extend, Log.extend]
      | evicted => exact absurd rfl hstays

end Histories

/-- Whatever changes a store that was empty goes through, a record is in it exactly if it is what the
log of its peer amounts to: the log begins with the sighting that created the record, after which the
record stayed, and goes on with all that was heard of the same peer since. Whatever is not heard of
the peer leaves its record alone, unless the record is stale, of low trust, and evicted. -/
theorem get_run_iff_log (limits : StoreLimits) (changes : List Change) (id : PeerId)
    (record : PeerRecord) :
    ((run { limits := limits } changes).get? id = some record ↔
      ∃ before now first source after, changes = before ++ .seen now first source :: after ∧
        Creates { limits := limits } id before now first source after ∧
        record = Log.record ⟨now, first, source, after.filterMap (Change.entry? id)⟩) ∧
    ∀ change : Change, change.entry? id = none →
      (run { limits := limits } changes).get? id = some record →
      (run { limits := limits } (changes ++ [change])).get? id = some record ∨
        (run { limits := limits } (changes ++ [change])).get? id = none ∧
          ∃ now, change = .evicted now ∧ record.isEvictable now limits.retention = true := by
  refine ⟨⟨fun hrecord => ?_, fun hlog => ?_⟩, fun change hother hrecord => ?_⟩
  · have hempty : get? { limits := limits } id = none := Std.ExtTreeMap.getElem?_empty
    obtain ⟨before, now, first, source, after, rfl, hcreates⟩ :=
      exists_creates hempty changes (by rw [hrecord]; nofun)
    rw [hcreates.get_run] at hrecord
    exact ⟨before, now, first, source, after, rfl, hcreates, (Option.some.inj hrecord).symm⟩
  · obtain ⟨before, now, first, source, after, rfl, hcreates, rfl⟩ := hlog
    exact hcreates.get_run
  · have heffect := (run { limits := limits } changes).effect_apply id change
    rw [← run_append_singleton, hrecord, limits_run] at heffect
    generalize (run { limits := limits } (changes ++ [change])).get? id = result at heffect ⊢
    cases heffect with
    | kept => exact .inl rfl
    | entered _ entry hentry =>
        rw [hother] at hentry
        cases hentry
    | evicted _ now hchange hevictable => exact .inr ⟨rfl, now, hchange, hevictable⟩

end PeerStore

end PeerFinder
