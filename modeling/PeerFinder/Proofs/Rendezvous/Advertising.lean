import Mathlib.Data.List.Nodup
import Mathlib.Data.List.Perm.Subperm
import Mathlib.Order.MinMax
import Mathlib.Tactic.SplitIfs
import PeerFinder.Proofs.Rendezvous.Directory
import PeerFinder.Rendezvous.Publisher

/-!
# What a publisher does

`Publisher.Moves` lists what one step of a publisher can do to a slotted table: all but handing a
record in leave the table alone. As long as there are no more nodes than slots, a node that hands a
record in holds a slot of the minute afterwards (`Provision.provide_holds`), be it the one that was
written or, when its sequence number is used up, the one that it held. `newest?` is the record that a
node published last in any minute, and what a lookup shows of it depends on how old that is
(`latest_or_of_newest`).
-/

namespace PeerFinder

/-- A ticker that is fired falls due again within a period, or beyond the horizon. -/
theorem Ticker.next_le (ticker : Ticker) {now : Clock.Instant} (hdue : ticker.due ≤ now) :
    min (ticker.next now) Clock.horizon ≤ now + ticker.period := by
  unfold next
  split_ifs
  · refine (min_le_left _ _).trans ?_
    cases ticker.late
    · exact Nat.le_refl _
    · exact Nat.sub_le _ _
  · unfold Clock.after?
    split_ifs with hreached
    · exact (min_le_left _ _).trans (Nat.add_le_add_right hdue _)
    · exact (min_le_right _ _).trans
        ((Nat.le_of_not_lt hreached).trans (Nat.add_le_add_right hdue _))

/-- A ticker that is not fired late falls due again later than now. -/
theorem Ticker.lt_next (ticker : Ticker) {now : Clock.Instant} (hahead : now ≤ ticker.due)
    (hperiod : 0 < ticker.period) : now < ticker.next now := by
  have hontime : ¬ ticker.due + tolerance < now :=
    Nat.not_lt.2 (hahead.trans (Nat.le_add_right _ _))
  rw [next, if_neg hontime]
  unfold Clock.after?
  split_ifs
  · exact Nat.lt_of_le_of_lt hahead (Nat.lt_add_of_pos_right hperiod)
  · exact Nat.lt_add_of_pos_right (show 0 < Clock.farFuture by decide)

namespace Rendezvous

/-- An item that an online store refuses would replace another one. -/
theorem ItemStore.exists_of_put_error {κ : Type} [DecidableEq κ] {store : ItemStore κ} {address : κ}
    {item : Item} {error : Error} (honline : store.online = true)
    (hput : store.put address item = .error error) : ∃ held, store.item? address = some held := by
  cases hheld : store.item? address with
  | some held => exact ⟨held, rfl⟩
  | none =>
      have haccepts : store.accepts address item = true := by
        rw [accepts, hheld]
        rfl
      obtain ⟨accesses, htook⟩ := put_of_accepts honline haccepts
      rw [htook] at hput
      cases hput

/-- A later time is in no earlier minute. -/
theorem minute_of_mono {left right : Nat} (h : left ≤ right) (hright : right < 2 ^ 64) :
    minuteOf left ≤ minuteOf right := by
  rw [UInt64.le_iff_toNat_le, minuteOf, minuteOf, UInt64.toNat_ofNat', UInt64.toNat_ofNat']
  omega

/-- What is at most sixty seconds past was in this minute or the one before. -/
theorem minute_of_recent {wall : Int} {instant now : Nat} (hpast : instant ≤ now)
    (hrecent : now ≤ instant + 60000) (hclock : Clock.unixSeconds wall now < 2 ^ 64) :
    minuteOf (Clock.unixSeconds wall instant) = minuteOf (Clock.unixSeconds wall now) ∨
      minuteOf (Clock.unixSeconds wall instant) < minuteOf (Clock.unixSeconds wall now) ∧
        minuteOf (Clock.unixSeconds wall instant) =
          previousMinute (minuteOf (Clock.unixSeconds wall now)) := by
  have hle : Clock.unixSeconds wall instant ≤ Clock.unixSeconds wall now := by
    unfold Clock.unixSeconds
    omega
  have hnear : Clock.unixSeconds wall now ≤ Clock.unixSeconds wall instant + 60 := by
    unfold Clock.unixSeconds
    omega
  generalize Clock.unixSeconds wall now = present at *
  generalize Clock.unixSeconds wall instant = former at *
  by_cases hsame : former / 60 = present / 60
  · left
    rw [minuteOf, minuteOf, hsame]
  · right
    have hnext : present / 60 = former / 60 + 1 := by omega
    have hpresent : (minuteOf present).toNat = former / 60 + 1 := by
      rw [minuteOf, UInt64.toNat_ofNat', hnext]
      omega
    have hformer : (minuteOf former).toNat = former / 60 := by
      rw [minuteOf, UInt64.toNat_ofNat']
      omega
    have hne : minuteOf present ≠ 0 := by
      intro hzero
      rw [hzero] at hpresent
      simp at hpresent
    have hone : (1 : UInt64) ≤ minuteOf present := by
      rw [UInt64.le_iff_toNat_le, hpresent]
      simp
    constructor
    · rw [UInt64.lt_iff_toNat_lt, hpresent, hformer]
      exact Nat.lt_succ_self _
    · rw [previousMinute, if_neg hne, ← UInt64.toNat_inj, UInt64.toNat_sub_of_le _ _ hone, hpresent,
        hformer]
      simp

/-- The last record of a node was handed in. -/
theorem exists_of_latest {log : List (Provision × Provide)} {label : String} {minute : Minute}
    {node : List UInt8} {record : ProviderRecord}
    (h : latest? log label minute node = some record) :
    ∃ entry ∈ log, entry.2.accepted = true ∧ entry.1.label = label ∧ entry.1.minute = minute ∧
      entry.1.node = node ∧ entry.1.record = record := by
  obtain ⟨entry, hfind, hrecord⟩ := Option.map_eq_some_iff.1 h
  have hentry := List.find?_some hfind
  simp only [Bool.and_eq_true, decide_eq_true_eq] at hentry
  obtain ⟨haccepted, hlabel, hminute, hnode⟩ := hentry
  exact ⟨entry, List.mem_of_find?_eq_some hfind, haccepted, hlabel, hminute, hnode, hrecord⟩

/-- The record that a node published last under a label, in any minute. -/
def newest? (log : List (Provision × Provide)) (label : String) (node : List UInt8) :
    Option Provision :=
  (log.find? fun (call, answer) =>
    answer.accepted && (call.label = label ∧ call.node = node)).map Prod.fst

/-- Whether the minutes of a log, the latest entry first, follow one another. -/
def IsChronological (log : List (Provision × Provide)) : Prop :=
  log.Pairwise fun later earlier => earlier.1.minute ≤ later.1.minute

section Newest

variable {log : List (Provision × Provide)} {label : String} {node : List UInt8}
  {minute : Minute} {call : Provision}

/-- What a node hands in is not the newest record of another one. -/
theorem newest_cons_of_ne {entry : Provision × Provide} (hnode : entry.1.node ≠ node) :
    newest? (entry :: log) label node = newest? log label node := by
  simp [newest?, hnode]

/-- The newest record of a node is in a log, and no later entry is a record of the node that was
taken in. -/
theorem split_of_newest (h : newest? log label node = some call) :
    ∃ answer later earlier, log = later ++ (call, answer) :: earlier ∧ answer.accepted = true ∧
      call.label = label ∧ call.node = node ∧
      ∀ entry ∈ later, ¬ (entry.2.accepted = true ∧ entry.1.label = label ∧ entry.1.node = node) := by
  obtain ⟨⟨_, answer⟩, hfind, rfl⟩ := Option.map_eq_some_iff.1 h
  obtain ⟨hentry, later, earlier, rfl, hlater⟩ := List.find?_eq_some_iff_append.1 hfind
  simp only [Bool.and_eq_true, decide_eq_true_eq] at hentry
  refine ⟨answer, later, earlier, rfl, hentry.1, hentry.2.1, hentry.2.2, fun entry hmem hnewer => ?_⟩
  have hnot := hlater entry hmem
  simp [hnewer] at hnot

/-- In its own minute the newest record of a node is the last one. -/
theorem latest_of_newest (h : newest? log label node = some call) :
    latest? log label call.minute node = some call.record := by
  obtain ⟨answer, later, earlier, rfl, haccepted, hlabel, hnode, hlater⟩ := split_of_newest h
  refine Option.map_eq_some_iff.2 ⟨(call, answer), ?_, rfl⟩
  rw [List.find?_append, List.find?_eq_none.2, Option.none_or, List.find?_cons_of_pos]
  · simp [haccepted, hlabel, hnode]
  · intro entry hmem hfound
    simp only [Bool.and_eq_true, decide_eq_true_eq] at hfound
    exact hlater entry hmem ⟨hfound.1, hfound.2.1, hfound.2.2.2⟩

/-- In a log whose minutes do not decrease a node has no record of a minute after that of its newest
one. -/
theorem minute_le_of_newest (hordered : IsChronological log)
    (hnewest : newest? log label node = some call) {record : ProviderRecord}
    (hlatest : latest? log label minute node = some record) : minute ≤ call.minute := by
  obtain ⟨answer, later, earlier, rfl, -, -, -, hlater⟩ := split_of_newest hnewest
  obtain ⟨entry, hmem, haccepted, hlabel, rfl, hnode, -⟩ := exists_of_latest hlatest
  rw [IsChronological, List.pairwise_append, List.pairwise_cons] at hordered
  simp only [List.mem_append, List.mem_cons] at hmem
  obtain hmem | rfl | hmem := hmem
  · exact absurd ⟨haccepted, hlabel, hnode⟩ (hlater entry hmem)
  · exact UInt64.le_refl _
  · exact hordered.2.1.1 entry hmem

/-- A newest record of this minute or the one before is the one that a lookup finds. -/
theorem latest_or_of_newest (hordered : IsChronological log)
    (hnewest : newest? log label node = some call)
    (hminute : call.minute = minute ∨
      call.minute < minute ∧ call.minute = previousMinute minute) :
    (latest? log label minute node).or (latest? log label (previousMinute minute) node) =
      some call.record := by
  have hlatest := latest_of_newest hnewest
  obtain rfl | ⟨hlt, hprevious⟩ := hminute
  · rw [hlatest, Option.some_or]
  · rw [← hprevious, hlatest]
    cases hpresent : latest? log label minute node with
    | none => rfl
    | some record =>
        exact absurd (minute_le_of_newest hordered hnewest hpresent) (UInt64.not_le.2 hlt)

/-- A node with a record in the last minute of a log has its newest record there. -/
theorem exists_newest (hordered : IsChronological log)
    (hlast : ∀ entry ∈ log, entry.1.minute ≤ minute)
    (hlatest : (latest? log label minute node).isSome) :
    ∃ call, newest? log label node = some call ∧ call.minute = minute := by
  obtain ⟨record, hlatest⟩ := Option.isSome_iff_exists.1 hlatest
  have hsome : (newest? log label node).isSome := by
    obtain ⟨entry, hmem, haccepted, hlabel, -, hnode, -⟩ := exists_of_latest hlatest
    rw [newest?, Option.isSome_map, List.find?_isSome]
    exact ⟨entry, hmem, by simp [haccepted, hlabel, hnode]⟩
  obtain ⟨call, hnewest⟩ := Option.isSome_iff_exists.1 hsome
  refine ⟨call, hnewest, UInt64.le_antisymm ?_ (minute_le_of_newest hordered hnewest hlatest)⟩
  obtain ⟨answer, later, earlier, rfl, -⟩ := split_of_newest hnewest
  exact hlast (call, answer) (by simp)

end Newest

section Room

variable {κ : Type} [DecidableEq κ] {labels : Set String} {log : List (Provision × Provide)}
  {table after : SlotTable κ} {call : Provision}

/-- Among no more nodes than slots there is room for every one of them. -/
theorem SlotTable.Reflects.has_room_for (h : table.Reflects labels log) {label : String}
    (hlabel : label ∈ labels) {nodes : List PeerId}
    (hlog : ∀ entry ∈ log, ∃ id ∈ nodes, entry.1.node = id.bytes)
    (hcount : nodes.length ≤ table.slots) {id : PeerId} (hid : id ∈ nodes) (minute : Minute) :
    table.HasRoomFor label minute id.bytes := by
  by_contra hroom
  -- Every slot would be held by another node, and no two slots by the same one.
  have htaken : ∀ index ∈ List.range table.slots,
      table.IsTaken (slotOf label minute (UInt8.ofNat index)) id.bytes := by
    intro index hindex
    by_contra hfree
    exact hroom ⟨UInt8.ofNat index, by rwa [Reflects.index_to_nat table (List.mem_range.1 hindex),
      ← List.mem_range], hfree⟩
  have hall : (table.holders label minute).length = table.slots := by
    rw [holders, List.filterMap_length_eq_length.2 fun index hindex => ?_, List.length_range]
    obtain ⟨other, hother, -⟩ := htaken index hindex
    exact Option.isSome_of_eq_some hother
  have hsubset : table.holders label minute ⊆ (nodes.erase id).map PeerId.bytes := by
    intro holder hholder
    obtain ⟨record, hrecord⟩ := Option.isSome_iff_exists.1 ((h.mem_holders hlabel minute _).1 hholder)
    obtain ⟨entry, hmem, -, -, -, rfl, -⟩ := exists_of_latest hrecord
    obtain ⟨node, hnodes, hbytes⟩ := hlog entry hmem
    obtain ⟨index, hindex, hheld⟩ := List.mem_filterMap.1 hholder
    obtain ⟨other, hother, hne⟩ := htaken index hindex
    rw [hheld, Option.some.injEq] at hother
    refine List.mem_map.2 ⟨node, (List.mem_erase_of_ne ?_).2 hnodes, hbytes.symm⟩
    rintro rfl
    exact hne (hother.symm.trans hbytes)
  have hle := (List.subperm_of_subset (h.nodup_holders hlabel minute) hsubset).length_le
  rw [hall, List.length_map, List.length_erase_of_mem hid] at hle
  have hpos := table.slots_pos
  omega

/-- Whether every item of a table can be read. -/
def SlotTable.IsLegible (table : SlotTable κ) : Prop :=
  ∀ address item, table.store.item? address = some item →
    ∃ record, ProviderRecord.decode item.value = .ok record

namespace SlotTable.IsLegible

/-- Whether items can be read does not depend on how the store was used. -/
theorem congr (h : table.IsLegible) (hagrees : Agrees table after) : after.IsLegible :=
  fun address item hitem => h address item (hagrees.item_eq address ▸ hitem)

/-- The item of a record can be read. -/
theorem with_item (h : table.IsLegible) (slot : Slot) {item : Item} {record : ProviderRecord}
    (hstorable : record.IsStorable) (hvalue : item.value = record.encode) :
    (table.withItem slot item).IsLegible := by
  intro address held hheld
  by_cases haddress : address = table.layout.address slot
  · rw [haddress, withItem, ItemStore.item_insert_self] at hheld
    cases hheld
    exact ⟨record.stored, by rw [hvalue, ProviderRecord.decode_encode record hstorable]⟩
  · rw [withItem, ItemStore.item_insert_of_ne _ _ haddress] at hheld
    exact h address held hheld

/-- A slot with an item is held by a node. -/
theorem exists_holder (h : table.IsLegible) {slot : Slot} {item : Item}
    (hitem : table.store.item? (table.layout.address slot) = some item) :
    ∃ node, table.holder? slot = some node := by
  obtain ⟨record, hrecord⟩ := h _ item hitem
  refine ⟨record.nodeId, ?_⟩
  rw [holder?, record?, hitem, Option.bind_some, hrecord]
  rfl

end SlotTable.IsLegible

namespace Provision

/-- Handing a record in leaves all items legible. -/
theorem provide_legible (h : table.IsLegible) (hstorable : call.record.IsStorable)
    {journal : Journal}
    (hafter : (call.provide ⟨.slotted table, journal⟩).2.state = .slotted after) :
    after.IsLegible := by
  obtain ⟨result, stored, notes, hprovide, hsettles⟩ := provide_settles call table journal
  rw [hprovide] at hafter
  cases hafter
  cases hsettles with
  | full _ htaken hagrees => exact h.congr hagrees
  | refused offset item _ error hlt htaken hfree hitem hput hagrees => exact h.congr hagrees
  | stored offset item _ hlt htaken hfree hitem haccepts hagrees =>
      exact (h.with_item _ hstorable (by rw [hitem]; rfl)).congr hagrees

/-- With room a node that hands a record in has a record in the minute afterwards: the one that was
taken in, or one that it held already and that has the last sequence number. -/
theorem provide_holds (h : table.Reflects labels log) (hlegible : table.IsLegible)
    (hlabel : call.label ∈ labels)
    (hroom : table.HasRoomFor call.label call.minute call.node) (journal : Journal) :
    (latest? ((call, (call.provide ⟨.slotted table, journal⟩).1) :: log) call.label call.minute
      call.node).isSome := by
  obtain ⟨result, after, notes, hprovide, hsettles⟩ := provide_settles call table journal
  rw [hprovide]
  cases hsettles with
  | full _ htaken hagrees => exact absurd hroom (not_has_room_for htaken)
  | stored offset item =>
      rw [latest_cons_of_accepted rfl, if_pos ⟨rfl, rfl, rfl⟩]
      rfl
  | refused offset item _ error hlt htaken hfree hitem hput hagrees =>
      rw [latest_cons_of_not_accepted rfl, ← h.holds_iff hlabel]
      obtain ⟨held, hheld⟩ := ItemStore.exists_of_put_error h.online hput
      obtain ⟨node, hholder⟩ := hlegible.exists_holder hheld
      have hsame : node = call.node := by
        by_contra hne
        exact hfree ⟨node, hholder, hne⟩
      rw [hsame] at hholder
      exact ⟨_, Claim.circle_lt table.slots_pos table.slots_le offset, hholder⟩

end Provision

end Room

namespace Publisher

variable {κ : Type} [DecidableEq κ]

/-- What a publisher hands in at a moment. -/
def provision (advertisement : Advertisement) (moment : Moment) : Provision :=
  ⟨moment, advertisement.label, record advertisement moment⟩

/-- What one step of a publisher can do to a slotted table, and what is left of the publisher. -/
inductive Moves (advertisement : Advertisement) (moment : Moment) (routing : Noted (Routing κ)) :
    Publisher → Noted (Routing κ) → Option Publisher → Prop where
  /-- It begins with a tick that is due at once. -/
  | began : Moves advertisement moment routing .ready routing
      (some (.waiting (Ticker.immediate moment.now advertisement.interval .skip)))
  /-- It ends because it is to stop or its interval is zero. -/
  | ended (publisher : Publisher)
      (hcause : moment.stopping = true ∨ advertisement.interval = 0) :
      Moves advertisement moment routing publisher routing none
  /-- A tick is due, and the record is handed in. -/
  | handed (ticker : Ticker) (hdue : ticker.due ≤ moment.now) :
      Moves advertisement moment routing (.waiting ticker)
        ((provision advertisement moment).provide routing).2
        (some (.providing { ticker with due := ticker.next moment.now }
          ((provision advertisement moment).provide routing).1))
  /-- The answer to a record has come, or is no longer waited for. -/
  | concluded (ticker : Ticker) (call : Provide) (journal : Journal) :
      Moves advertisement moment routing (.providing ticker call) ⟨routing.state, journal⟩
        (some (.waiting ticker))

/-- The steps of a publisher do what `Moves` lists. -/
theorem step_moves {advertisement : Advertisement} {moment : Moment}
    {routing after : Noted (Routing κ)} {table : SlotTable κ}
    (hslotted : routing.state = .slotted table) {publisher : Publisher} {next : Option Publisher}
    (hstep : step advertisement moment routing publisher = some (after, next)) :
    Moves advertisement moment routing publisher after next := by
  cases publisher with
  | ready =>
      simp only [step] at hstep
      split_ifs at hstep with hinterval <;> cases hstep
      · exact .ended _ (.inr hinterval)
      · exact .began
  | waiting ticker =>
      simp only [step, Ticker.fire?] at hstep
      split_ifs at hstep with hdue hstop hstop <;> cases hstep
      · exact .ended _ (.inl (Bool.and_eq_true_iff.1 hstop).1)
      · exact .handed ticker hdue
      · exact .ended _ (.inl (Bool.and_eq_true_iff.1 hstop).1)
  | providing ticker call =>
      simp only [step] at hstep
      split_ifs at hstep with hstop
      · cases hstep
        exact .concluded ticker call _
      · obtain ⟨⟨result, state⟩, hanswer, heq⟩ := Option.map_eq_some_iff.1 hstep
        cases heq
        cases call with
        | delayed number label record due =>
            rw [hslotted] at hanswer
            cases hanswer
        | answered result =>
            cases hanswer
            exact .concluded ticker _ _

section Goes

variable {advertisement : Advertisement} {moment : Moment} {ticker : Ticker}

/-- A publisher whose interval is not zero begins. -/
theorem step_ready (hinterval : advertisement.interval ≠ 0) (routing : Noted (Routing κ)) :
    step advertisement moment routing .ready = some (routing,
      some (.waiting (Ticker.immediate moment.now advertisement.interval .skip))) := by
  rw [step, if_neg hinterval]

/-- A publisher that is not to stop hands its record in when its tick is due. -/
theorem step_waiting (hstopping : moment.stopping = false) (hdue : ticker.due ≤ moment.now)
    (routing : Noted (Routing κ)) :
    step advertisement moment routing (.waiting ticker) =
      some (((provision advertisement moment).provide routing).2,
        some (.providing { ticker with due := ticker.next moment.now }
          ((provision advertisement moment).provide routing).1)) := by
  simp only [step, Ticker.fire?, if_pos hdue, Moment.stops, hstopping, Bool.false_and,
    Bool.false_eq_true, if_false, Option.map_some]
  rfl

/-- A publisher that is not to stop waits for its next tick when its record is answered. -/
theorem step_providing (hstopping : moment.stopping = false) (result : Except Error Unit)
    (routing : Noted (Routing κ)) :
    ∃ journal, step advertisement moment routing (.providing ticker (.answered result)) =
      some (⟨routing.state, journal⟩, some (.waiting ticker)) := by
  refine ⟨(moment.now, notice advertisement.label result) :: routing.journal, ?_⟩
  simp only [step, Routing.answer?, Moment.stops, hstopping, Bool.false_and, Bool.false_eq_true,
    if_false, Option.map_some]
  rfl

end Goes

end Publisher

/-- A slotted table answers at once. -/
theorem Provision.answered_of_slotted {κ : Type} [DecidableEq κ] (call : Provision)
    {routing : Noted (Routing κ)} {table : SlotTable κ} (hslotted : routing.state = .slotted table) :
    ∃ result, (call.provide routing).1 = .answered result := by
  obtain ⟨result, _, _, hprovide, -⟩ := call.provide_settles table routing.journal
  rw [← hslotted] at hprovide
  exact ⟨_, congrArg Prod.fst hprovide⟩

end Rendezvous

end PeerFinder
