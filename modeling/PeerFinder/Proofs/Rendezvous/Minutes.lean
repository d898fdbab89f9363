import Mathlib.Data.Set.Basic
import Mathlib.Logic.Relation
import PeerFinder.Proofs.Rendezvous.Directory

/-!
# The minutes that a lookup reads

A lookup in a slotted table has two rounds. It reads the slots of the present minute, and when all
that was found there is taken it looks at the clock again and reads the slots of the minute before. A
`Survey` is a lookup that goes on in single reads, which take time; a lookup whose feed is asked again
and again is one (`Survey.path_of_consumes`). `Survey.lookups_read_two_minutes` says which slots it
reads and whom it yields: if a minute begins between the rounds, the second round reads the same slots
as the first one, and nobody who only holds a slot of the minute before is found.
-/

namespace PeerFinder.Rendezvous

variable {κ : Type} [DecidableEq κ]

/-- Two minutes come after the same one exactly if they are the same or both among the first two. -/
theorem previous_minute_eq_iff {left right : Minute} :
    previousMinute left = previousMinute right ↔ left = right ∨ (left ≤ 1 ∧ right ≤ 1) := by
  unfold previousMinute
  grind

namespace SlotTable

/-- The slots of a label in a minute. -/
def slotsOf (table : SlotTable κ) (label : List UInt8) (minute : Minute) : List Slot :=
  (List.range table.slots).map fun index => ⟨label, minute, UInt8.ofNat index⟩

omit [DecidableEq κ] in
/-- The slots of two minutes are the same exactly if the minutes are. -/
theorem slots_of_perm_iff (table : SlotTable κ) (label : List UInt8) {left right : Minute} :
    (table.slotsOf label left).Perm (table.slotsOf label right) ↔ left = right := by
  refine ⟨fun h => ?_, fun h => h ▸ .refl _⟩
  have hfirst : (⟨label, left, UInt8.ofNat 0⟩ : Slot) ∈ table.slotsOf label left :=
    List.mem_map.2 ⟨0, List.mem_range.2 table.slots_pos, rfl⟩
  obtain ⟨index, -, hslot⟩ := List.mem_map.1 (h.mem_iff.1 hfirst)
  exact (congrArg Slot.minute hslot).symm

/-- Whether a node that holds one of these slots keeps it. -/
structure Keeps (safe : Set Slot) (left right : SlotTable κ) : Prop where
  slots_eq : right.slots = left.slots
  holder_eq : ∀ slot ∈ safe, ∀ node, left.holder? slot = some node →
    right.holder? slot = some node

variable {safe : Set Slot}

/-- Nothing is lost between tables that agree. -/
theorem Agrees.keeps {left right : SlotTable κ} (h : Agrees left right) : Keeps safe left right :=
  ⟨h.slots_eq, fun slot _ _ hholder => (h.holder_eq slot).trans hholder⟩

/-- What is kept again and again is kept. -/
theorem Keeps.trans {first second third : SlotTable κ} (hleft : Keeps safe first second)
    (hright : Keeps safe second third) : Keeps safe first third where
  slots_eq := hright.slots_eq.trans hleft.slots_eq
  holder_eq slot hslot node h := hright.holder_eq slot hslot node (hleft.holder_eq slot hslot node h)

end SlotTable

/-- A lookup that goes on in single reads. Those of a round may be done in any order, and they take time,
as does whoever takes the providers. -/
structure Survey (κ : Type) where
  label : List UInt8
  /-- The present moment. -/
  moment : Moment
  table : Noted (SlotTable κ)
  /-- How many rounds are still to begin. -/
  rounds : Nat := 2
  /-- The moments at which the others began, the latest first. -/
  begun : List Moment := []
  /-- The slots of the present round that are still to be read. -/
  pending : List Slot := []
  /-- The slots that were read. -/
  reads : List Slot := []
  /-- The providers that were read and not yet taken. -/
  ready : List Provider := []
  /-- The providers that were taken. -/
  taken : List Provider := []

namespace Survey

/-- The single steps of a lookup and of what goes on around it. -/
inductive Step (safe : Set Slot) : Survey κ → Survey κ → Prop where
  /-- Time passes, and others use the table; nobody loses a safe slot. -/
  | pass (survey : Survey κ) (later : Moment) (table : Noted (SlotTable κ))
      (hlater : survey.moment.unixSeconds ≤ later.unixSeconds)
      (hkeeps : SlotTable.Keeps safe survey.table.state table.state) :
      Step safe survey { survey with moment := later, table := table }
  /-- All that was read is taken, and the next round begins. -/
  | round (survey : Survey κ) (rounds : Nat) (hrounds : survey.rounds = rounds + 1)
      (hpending : survey.pending = []) (hready : survey.ready = []) :
      Step safe survey { survey with
        rounds := rounds
        begun := survey.moment :: survey.begun
        pending := survey.table.state.slotsOf survey.label
          (Feed.roundMinute survey.moment (rounds + 1)) }
  | read (survey : Survey κ) (before later : List Slot) (slot : Slot)
      (hpending : survey.pending = before ++ slot :: later) :
      Step safe survey { survey with
        table := (Feed.readSlot slot survey.moment.now survey.table).2
        pending := before ++ later
        reads := survey.reads ++ [slot]
        ready := survey.ready ++ (Feed.readSlot slot survey.moment.now survey.table).1.toList }
  | take (survey : Survey κ) (provider : Provider) (rest : List Provider)
      (hready : survey.ready = provider :: rest) :
      Step safe survey { survey with ready := rest, taken := survey.taken ++ [provider] }

/-- Whether a lookup may come to be another one, in single steps. -/
def Path (safe : Set Slot) (survey after : Survey κ) : Prop :=
  Relation.ReflTransGen (Step safe) survey after

/-- Whether there is nothing left to be read or taken. -/
structure IsEnded (survey : Survey κ) : Prop where
  rounds_eq : survey.rounds = 0
  pending_eq : survey.pending = []
  ready_eq : survey.ready = []

/-- The minutes that the rounds read which began at these moments. -/
def minutes : List Moment → List Minute
  | [] => []
  | moment :: earlier => minutes earlier ++ [Feed.roundMinute moment (2 - earlier.length)]

/-- What holds of a lookup at any point after its start. -/
structure IsSound (safe : Set Slot) (origin survey : Survey κ) : Prop where
  label_eq : survey.label = origin.label
  keeps : SlotTable.Keeps safe origin.table.state survey.table.state
  rounds_eq : survey.begun.length + survey.rounds = 2
  ordered : (survey.moment :: survey.begun ++ [origin.moment]).Pairwise fun later earlier =>
    earlier.unixSeconds ≤ later.unixSeconds
  reads_perm : (survey.reads ++ survey.pending).Perm
    ((minutes survey.begun).flatMap (origin.table.state.slotsOf origin.label))
  held : ∀ slot ∈ survey.reads, slot ∈ safe → ∀ node,
    origin.table.state.holder? slot = some node → ∃ record : ProviderRecord, record.nodeId = node ∧
      record.peerInfo ∈ survey.taken ++ survey.ready
  found : ∀ provider ∈ survey.taken ++ survey.ready, ∃ slot ∈ survey.reads,
    ∃ record : ProviderRecord, record.peerInfo = provider ∧
      (slot ∈ safe → survey.table.state.holder? slot = some record.nodeId)

/-- What a lookup that has ended has read and yielded, given the moments at which its rounds began. -/
structure Covers (safe : Set Slot) (origin survey : Survey κ) (first second : Moment) : Prop where
  begun_eq : survey.begun = [second, first]
  first_le : origin.moment.unixSeconds ≤ first.unixSeconds
  second_le : first.unixSeconds ≤ second.unixSeconds
  /-- Each slot of two minutes was read once. -/
  reads_perm : survey.reads.Perm
    (origin.table.state.slotsOf origin.label (minuteOf first.unixSeconds) ++
      origin.table.state.slotsOf origin.label (previousMinute (minuteOf second.unixSeconds)))
  /-- The second one is the minute before the first one exactly if the rounds began in one minute, or in
  the first two of Unix time. -/
  consecutive_iff : survey.reads.Perm
      (origin.table.state.slotsOf origin.label (minuteOf first.unixSeconds) ++
        origin.table.state.slotsOf origin.label (previousMinute (minuteOf first.unixSeconds))) ↔
    minuteOf second.unixSeconds = minuteOf first.unixSeconds ∨
      (minuteOf second.unixSeconds ≤ 1 ∧ minuteOf first.unixSeconds ≤ 1)
  /-- Whoever held such a slot when the lookup began was yielded, if the slot is safe. -/
  yields : ∀ slot ∈ survey.reads, slot ∈ safe → ∀ node,
    origin.table.state.holder? slot = some node →
      ∃ record : ProviderRecord, record.nodeId = node ∧ record.peerInfo ∈ survey.taken
  /-- Whoever was yielded was read in such a slot, and holds it if it is safe. -/
  holds : ∀ provider ∈ survey.taken, ∃ slot ∈ survey.reads, ∃ record : ProviderRecord,
    record.peerInfo = provider ∧
      (slot ∈ safe → survey.table.state.holder? slot = some record.nodeId)

variable {safe : Set Slot} {origin survey after : Survey κ}

/-- The lookup stays sound with every step. -/
theorem Step.is_sound (hstep : Step safe survey after) (h : IsSound safe origin survey) :
    IsSound safe origin after := by
  cases hstep with
  | pass later table hlater hkeeps =>
      have hordered := List.pairwise_cons.1 h.ordered
      refine { h with keeps := h.keeps.trans hkeeps, ordered := ?_, found := ?_ }
      · exact List.pairwise_cons.2
          ⟨fun moment hmem => (hordered.1 moment hmem).trans hlater, hordered.2⟩
      · intro provider hprovider
        obtain ⟨slot, hslot, record, hinfo, hholder⟩ := h.found provider hprovider
        exact ⟨slot, hslot, record, hinfo, fun hsafe =>
          hkeeps.holder_eq slot hsafe _ (hholder hsafe)⟩
  | round rounds hrounds hpending hready =>
      have hcount := h.rounds_eq
      have hperm := h.reads_perm
      rw [hrounds] at hcount
      rw [hpending, List.append_nil] at hperm
      refine { h with rounds_eq := ?_, ordered := ?_, reads_perm := ?_ }
      · show survey.begun.length + 1 + rounds = 2
        omega
      · have hlast : ∀ moment ∈ survey.moment :: survey.begun ++ [origin.moment],
            moment.unixSeconds ≤ survey.moment.unixSeconds := by
          rw [List.cons_append, List.forall_mem_cons]
          exact ⟨Nat.le_refl _, (List.pairwise_cons.1 h.ordered).1⟩
        exact List.pairwise_cons.2 ⟨hlast, h.ordered⟩
      · have hround : 2 - survey.begun.length = rounds + 1 := by omega
        have hslots (minute : Minute) : survey.table.state.slotsOf survey.label minute =
            origin.table.state.slotsOf origin.label minute := by
          rw [SlotTable.slotsOf, SlotTable.slotsOf, h.keeps.slots_eq, h.label_eq]
        rw [minutes, List.flatMap_append, List.flatMap_singleton, hround, hslots]
        exact hperm.append_right _
  | read before later slot hpending =>
      obtain ⟨hread, hagrees⟩ := Feed.read_slot_eq slot survey.moment.now survey.table
      have hperm := h.reads_perm
      rw [hpending] at hperm
      refine { h with keeps := h.keeps.trans hagrees.keeps, reads_perm := ?_, held := ?_, found := ?_ }
      · refine List.Perm.trans ?_ hperm
        rw [List.append_assoc, List.singleton_append]
        exact List.perm_middle.symm.append_left _
      · intro other hother hsafe node hheld
        rw [← List.append_assoc]
        rcases List.mem_append.1 hother with hother | hother
        · obtain ⟨record, hnode, hmem⟩ := h.held other hother hsafe node hheld
          exact ⟨record, hnode, List.mem_append_left _ hmem⟩
        · cases List.mem_singleton.1 hother
          obtain ⟨record, hrecord, hnode⟩ :=
            Option.map_eq_some_iff.1 (h.keeps.holder_eq slot hsafe node hheld)
          refine ⟨record, hnode, List.mem_append_right _ ?_⟩
          rw [hread, hrecord]
          exact List.mem_singleton_self _
      · intro provider hprovider
        rw [← List.append_assoc] at hprovider
        rcases List.mem_append.1 hprovider with hprovider | hprovider
        · obtain ⟨other, hother, record, hinfo, hholder⟩ := h.found provider hprovider
          exact ⟨other, List.mem_append_left _ hother, record, hinfo, fun hsafe =>
            (hagrees.holder_eq other).trans (hholder hsafe)⟩
        · rw [hread, Option.mem_toList] at hprovider
          obtain ⟨record, hrecord, hinfo⟩ := Option.map_eq_some_iff.1 hprovider
          refine ⟨slot, List.mem_append_right _ (.head _), record, hinfo, fun _ => ?_⟩
          rw [hagrees.holder_eq, SlotTable.holder?, hrecord, Option.map_some]
  | take provider rest hready =>
      have htaken : survey.taken ++ [provider] ++ rest = survey.taken ++ survey.ready := by
        rw [hready, List.append_assoc, List.singleton_append]
      refine { h with held := ?_, found := ?_ }
      · rw [htaken]
        exact h.held
      · rw [htaken]
        exact h.found

/-- The lookup stays sound, step after step. -/
theorem Path.is_sound (hpath : Path safe survey after) (h : IsSound safe origin survey) :
    IsSound safe origin after := by
  induction hpath with
  | refl => exact h
  | tail _ hstep ih => exact hstep.is_sound ih

/-- A lookup of a label begins at a moment. -/
def start (label : List UInt8) (moment : Moment) (table : Noted (SlotTable κ)) : Survey κ where
  label := label
  moment := moment
  table := table

variable {label : List UInt8} {moment : Moment} {table : Noted (SlotTable κ)}

/-- A lookup is sound when it begins. -/
theorem is_sound_start : IsSound safe (start label moment table) (start label moment table) where
  label_eq := rfl
  keeps := (SlotTable.Agrees.refl _).keeps
  rounds_eq := rfl
  ordered := by simp [start]
  reads_perm := .refl _
  held _ hslot := by cases hslot
  found _ hprovider := by cases hprovider

/-- Time may pass with nothing else going on. -/
theorem Step.wait (survey : Survey κ) {later : Moment}
    (hlater : survey.moment.unixSeconds ≤ later.unixSeconds) :
    Step safe survey { survey with moment := later } :=
  .pass survey later survey.table hlater (SlotTable.Agrees.refl _).keeps

section Progress

/-- The reads of a round may all be done. -/
theorem exists_read (survey : Survey κ) :
    ∃ after, Path safe survey after ∧ after.pending = [] ∧ after.rounds = survey.rounds := by
  induction hpending : survey.pending generalizing survey with
  | nil => exact ⟨survey, .refl, hpending, rfl⟩
  | cons slot later ih =>
      obtain ⟨after, hpath, hafter, hrounds⟩ := ih { survey with
        table := (Feed.readSlot slot survey.moment.now survey.table).2
        pending := [] ++ later
        reads := survey.reads ++ [slot]
        ready := survey.ready ++ (Feed.readSlot slot survey.moment.now survey.table).1.toList } rfl
      exact ⟨after, .head (.read survey [] later slot hpending) hpath, hafter, hrounds⟩

/-- The providers that are ready may all be taken. -/
theorem path_take (survey : Survey κ) :
    Path safe survey { survey with ready := [], taken := survey.taken ++ survey.ready } := by
  induction hready : survey.ready generalizing survey with
  | nil =>
      rw [List.append_nil, ← hready]
      exact .refl
  | cons provider rest ih =>
      have hrest := ih { survey with ready := rest, taken := survey.taken ++ [provider] } rfl
      rw [List.append_assoc, List.singleton_append] at hrest
      exact .head (.take survey provider rest hready) hrest

/-- A lookup comes to its end by itself from wherever it is. -/
theorem exists_end (survey : Survey κ) : ∃ after, Path safe survey after ∧ after.IsEnded := by
  induction hrounds : survey.rounds generalizing survey with
  | zero =>
      obtain ⟨read, hread, hpending, hleft⟩ := survey.exists_read
      exact ⟨_, hread.trans read.path_take, hleft.trans hrounds, hpending, rfl⟩
  | succ rounds ih =>
      obtain ⟨read, hread, hpending, hleft⟩ := survey.exists_read
      obtain ⟨next, hround, hnext⟩ : ∃ next,
          Step safe { read with ready := [], taken := read.taken ++ read.ready } next ∧
            next.rounds = rounds :=
        ⟨_, .round _ rounds (hleft.trans hrounds) hpending rfl, rfl⟩
      obtain ⟨after, hpath, hafter⟩ := ih next hnext
      exact ⟨after, (hread.trans read.path_take).trans (.head hround hpath), hafter⟩

end Progress

section Polls

/-- The slots of a round may be read in their order. -/
theorem path_read_slots (minute : Minute) (indices : List Nat) (survey : Survey κ)
    (hpending : survey.pending =
      indices.map fun index => ⟨survey.label, minute, UInt8.ofNat index⟩) :
    Path safe survey { survey with
      table := (Feed.readSlots survey.label minute survey.moment.now indices survey.table).2
      pending := []
      reads := survey.reads ++ survey.pending
      ready := survey.ready ++
        (Feed.readSlots survey.label minute survey.moment.now indices survey.table).1 } := by
  induction indices generalizing survey with
  | nil =>
      rw [List.map_nil] at hpending
      simp only [Feed.readSlots, List.append_nil, hpending]
      rw [← hpending]
      exact .refl
  | cons index rest ih =>
      have hread : Step safe survey _ := .read survey [] _ _ hpending
      have hrest : Path safe survey _ := .head hread (ih _ rfl)
      simpa only [Feed.readSlots, hpending, List.map_cons, List.nil_append, List.append_assoc,
        List.singleton_append] using hrest

/-- A round may be read in order. -/
theorem path_read_minute (survey : Survey κ) {rounds : Nat} (hrounds : survey.rounds = rounds + 1)
    (hpending : survey.pending = []) (hready : survey.ready = []) {found : List Provider}
    {read : Noted (SlotTable κ)}
    (hread : Feed.readMinute survey.label (Feed.roundMinute survey.moment (rounds + 1))
      survey.moment.now survey.table = (found, read)) :
    Path safe survey { survey with
      rounds := rounds
      begun := survey.moment :: survey.begun
      table := read
      reads := survey.reads ++ survey.table.state.slotsOf survey.label
        (Feed.roundMinute survey.moment (rounds + 1))
      ready := found } := by
  have hreads : Path safe _ _ := path_read_slots (Feed.roundMinute survey.moment (rounds + 1))
    (List.range survey.table.state.slots) { survey with
      rounds := rounds
      begun := survey.moment :: survey.begun
      pending := survey.table.state.slotsOf survey.label
        (Feed.roundMinute survey.moment (rounds + 1)) } rfl
  unfold Feed.readMinute at hread
  rw [hread] at hreads
  have hpath : Path safe survey _ := .head (.round survey rounds hrounds hpending hready) hreads
  simpa only [hpending, hready, List.nil_append] using hpath

/-- Asking a feed for the next provider is a path of the lookup. -/
theorem path_of_poll (survey : Survey κ) (hpending : survey.pending = []) :
    ∃ after, Path safe survey after ∧ after.pending = [] ∧ after.label = survey.label ∧
      after.moment = survey.moment ∧
      after.table =
        (Feed.pollSlots survey.moment survey.label survey.ready survey.rounds survey.table).2 ∧
      match (Feed.pollSlots survey.moment survey.label survey.ready survey.rounds survey.table).1 with
      | .ended => after.IsEnded ∧ after.taken = survey.taken
      | .item provider feed => feed = .slots survey.label after.ready after.rounds ∧
          after.taken = survey.taken ++ [provider]
      | .pending _ => False := by
  -- A round that finds nobody is followed by the next one while the feed is still being asked.
  induction hrounds : survey.rounds generalizing survey with
  | zero =>
      cases hready : survey.ready with
      | nil => exact ⟨survey, .refl, hpending, rfl, rfl, rfl, ⟨hrounds, hpending, hready⟩, rfl⟩
      | cons provider rest =>
          exact ⟨_, .single (.take survey provider rest hready), hpending, rfl, rfl, rfl,
            by rw [hrounds], rfl⟩
  | succ rounds ih =>
      cases hready : survey.ready with
      | cons provider rest =>
          exact ⟨_, .single (.take survey provider rest hready), hpending, rfl, rfl, rfl,
            by rw [hrounds], rfl⟩
      | nil =>
          cases hread : Feed.readMinute survey.label (Feed.roundMinute survey.moment (rounds + 1))
              survey.moment.now survey.table with
          | mk found read =>
              have hround : Path safe survey _ :=
                path_read_minute survey hrounds hpending hready hread
              rw [Feed.pollSlots, hread]
              cases found with
              | nil =>
                  obtain ⟨after, hpath, hafter⟩ := ih { survey with
                    rounds := rounds
                    begun := survey.moment :: survey.begun
                    table := read
                    reads := survey.reads ++ survey.table.state.slotsOf survey.label
                      (Feed.roundMinute survey.moment (rounds + 1))
                    ready := [] } hpending rfl
                  exact ⟨after, hround.trans hpath, hafter⟩
              | cons provider rest =>
                  have htaken := hround.tail (.take _ provider rest rfl)
                  exact ⟨_, htaken, hpending, rfl, rfl, rfl, rfl, rfl⟩

/-- A lookup of a slotted table that is asked again and again while time passes is a path of single
reads that ends. -/
theorem path_of_consumes {moments : List Moment} {feed : Feed} {routing left : Noted (Routing κ)}
    {providers : List Provider} (hconsumes : Routing.Consumes moments feed routing providers left)
    (survey : Survey κ) (hpending : survey.pending = [])
    (hfeed : feed = .slots survey.label survey.ready survey.rounds)
    (hrouting : routing = survey.table.modify .slotted)
    (hclock : (survey.moment :: moments).Pairwise fun earlier later =>
      earlier.unixSeconds ≤ later.unixSeconds) :
    ∃ after, Path safe survey after ∧ after.IsEnded ∧ after.taken = survey.taken ++ providers ∧
      left = after.table.modify .slotted := by
  -- The feed is what is ready in the survey and the rounds that it has left.
  induction hconsumes generalizing survey with
  | ended moment feed routing left hpoll =>
      subst hfeed hrouting
      have hslots : ((Feed.pollSlots moment survey.label survey.ready survey.rounds survey.table).1,
          (Feed.pollSlots moment survey.label survey.ready survey.rounds survey.table).2.modify
            Routing.slotted) = (.ended, left) := hpoll
      obtain ⟨hended, hleft⟩ := Prod.mk.inj hslots
      have hlater := (List.pairwise_cons.1 hclock).1 moment (.head _)
      have hpass : Step safe survey _ := .wait survey hlater
      obtain ⟨after, hpath, -, -, -, htable, hcases⟩ :=
        path_of_poll { survey with moment := moment } hpending
      rw [hended] at hcases
      refine ⟨after, .head hpass hpath, hcases.1, ?_, ?_⟩
      · rw [hcases.2, List.append_nil]
      · rw [← hleft, htable]
  | item moment moments feed next routing middle left provider rest hpoll hrest ih =>
      subst hfeed hrouting
      have hslots : ((Feed.pollSlots moment survey.label survey.ready survey.rounds survey.table).1,
          (Feed.pollSlots moment survey.label survey.ready survey.rounds survey.table).2.modify
            Routing.slotted) = (.item provider next, middle) := hpoll
      obtain ⟨hitem, hmiddle⟩ := Prod.mk.inj hslots
      obtain ⟨hlater, hothers⟩ := List.pairwise_cons.1 hclock
      have hpass : Step safe survey _ := .wait survey (hlater moment (.head _))
      obtain ⟨polled, hpath, hpending, hlabel, hmoment, htable, hcases⟩ :=
        path_of_poll { survey with moment := moment } hpending
      rw [hitem] at hcases
      obtain ⟨after, hafter, hended, htaken, hleft⟩ := ih polled hpending (hlabel ▸ hcases.1)
        (by rw [← hmiddle, htable]) (hmoment ▸ hothers)
      refine ⟨after, .head hpass (hpath.trans hafter), hended, ?_, hleft⟩
      rw [htaken, hcases.2, List.append_assoc, List.singleton_append]

end Polls

/-- A sound lookup that has ended covers two minutes. -/
theorem IsSound.covers (h : IsSound safe origin survey) (hended : survey.IsEnded) :
    ∃ first second, Covers safe origin survey first second := by
  have hcount := h.rounds_eq
  have hordered := h.ordered
  have hperm := h.reads_perm
  have hheld := h.held
  have hfound := h.found
  rw [hended.rounds_eq] at hcount
  obtain ⟨second, first, hbegun⟩ := List.length_eq_two.1 hcount
  rw [hended.pending_eq, List.append_nil, hbegun] at hperm
  rw [hended.ready_eq, List.append_nil] at hheld hfound
  rw [hbegun] at hordered
  simp only [List.cons_append, List.nil_append, List.pairwise_cons, List.forall_mem_cons] at hordered
  have hreads : survey.reads.Perm
      (origin.table.state.slotsOf origin.label (minuteOf first.unixSeconds) ++
        origin.table.state.slotsOf origin.label (previousMinute (minuteOf second.unixSeconds))) := by
    simpa [minutes, Feed.roundMinute] using hperm
  refine ⟨first, second, hbegun, hordered.2.2.1.1, hordered.2.1.1, hreads, ?_, hheld, hfound⟩
  rw [← previous_minute_eq_iff, ← origin.table.state.slots_of_perm_iff origin.label]
  constructor
  · intro hother
    exact (List.perm_append_left_iff _).1 (hreads.symm.trans hother)
  · intro hsame
    exact hreads.trans (hsame.append_left _)

/-- The rounds of a lookup may begin at any two moments, one after the other. -/
theorem path_in_order (label : List UInt8) (table : Noted (SlotTable κ)) {first second : Moment}
    (hlater : first.unixSeconds ≤ second.unixSeconds) : ∃ left, Path safe (start label first table)
      { label := label
        moment := second
        table := left
        rounds := 0
        begun := [second, first]
        reads := table.state.slotsOf label (minuteOf first.unixSeconds) ++
          table.state.slotsOf label (previousMinute (minuteOf second.unixSeconds))
        taken := table.state.listing label (minuteOf first.unixSeconds) ++
          table.state.listing label (previousMinute (minuteOf second.unixSeconds)) } := by
  cases hread : Feed.readMinute label (Feed.roundMinute first 2) first.now table with
  | mk found read =>
      cases hnext : Feed.readMinute label (Feed.roundMinute second 1) second.now read with
      | mk others left =>
          obtain ⟨hfound, hagrees⟩ :=
            Feed.read_minute_eq label (Feed.roundMinute first 2) first.now table
          obtain ⟨hothers, -⟩ :=
            Feed.read_minute_eq label (Feed.roundMinute second 1) second.now read
          rw [hread] at hfound hagrees
          rw [hnext, hagrees.listing_eq] at hothers
          have hslots : read.state.slotsOf label (previousMinute (minuteOf second.unixSeconds)) =
              table.state.slotsOf label (previousMinute (minuteOf second.unixSeconds)) := by
            rw [SlotTable.slotsOf, SlotTable.slotsOf, hagrees.slots_eq]
          have hfirst : Path safe _ _ :=
            path_read_minute (start label first table) rfl rfl rfl hread
          have hpass := (hfirst.trans (path_take _)).tail (.wait _ hlater)
          have hsecond := hpass.trans (path_read_minute _ rfl rfl rfl hnext)
          refine ⟨left, ?_⟩
          cases hfound
          cases hothers
          rw [← hslots]
          exact hsecond.trans (path_take _)

/-- A lookup that is asked for providers while time passes goes on in single reads until it has ended.
However it goes on, it comes to its end, and then it has read the slots of the minute in which its first
round began and those of the minute before that in which its second round began. It has yielded every
node that held one of them when it began and did not lose it, and nobody who was in none of them. -/
theorem lookups_read_two_minutes (safe : Set Slot) (label : String) (moment : Moment)
    (table : Noted (SlotTable κ)) :
    (∀ moments providers left,
      (moment :: moments).Pairwise (fun earlier later => earlier.unixSeconds ≤ later.unixSeconds) →
      Routing.Consumes moments (Routing.lookup label (.slotted table.state)) (table.modify .slotted)
        providers left →
      ∃ survey, Path safe (start label.toUTF8.toList moment table) survey ∧ survey.IsEnded ∧
        survey.taken = providers ∧ left = survey.table.modify .slotted) ∧
    ∀ survey, Path safe (start label.toUTF8.toList moment table) survey →
      (∃ ended, Path safe survey ended ∧ ended.IsEnded) ∧
      (survey.IsEnded →
        ∃ first second, Covers safe (start label.toUTF8.toList moment table) survey first second) := by
  refine ⟨fun moments providers left hclock hconsumes => ?_, fun survey hpath => ?_⟩
  · exact path_of_consumes hconsumes (start label.toUTF8.toList moment table) rfl rfl rfl hclock
  · exact ⟨survey.exists_end, (hpath.is_sound is_sound_start).covers⟩

/-- The slot of a label in a minute. -/
def slotIn (minute : Minute) : Slot :=
  slotOf "label" minute 0

/-- A record that was published in the second minute. -/
def former : ProviderRecord :=
  (Provision.sample 0 60).record

/-- A table of one slot a minute that holds this record. -/
def sparse : Noted (SlotTable Slot) where
  state :=
    { layout := .plain
      slots := 1
      store := { items := [(slotIn 1, ⟨60, former.encode, []⟩)] } }
  journal := []

/-- The node of the record holds the slot of that minute. -/
theorem holder_sparse : sparse.state.holder? (slotIn 1) = some former.nodeId := by
  decide +kernel

/-- A moment so many seconds after the beginning of Unix time. -/
def momentAt (seconds : Nat) : Moment where
  now := 1000 * seconds
  wall := 0

/-- A lookup in the last second of the third minute yields the record of the second one. -/
theorem lookups_read_two_minutes_at_once : ∃ survey,
    Path Set.univ (start "label".toUTF8.toList (momentAt 179) sparse) survey ∧ survey.IsEnded ∧
      survey.reads.Perm [slotIn 2, slotIn 1] ∧
      ∃ record : ProviderRecord, record.nodeId = former.nodeId ∧ record.peerInfo ∈ survey.taken := by
  have hnow : (momentAt 179).unixSeconds ≤ (momentAt 179).unixSeconds := Nat.le_refl _
  obtain ⟨left, hpath⟩ := path_in_order "label".toUTF8.toList sparse hnow
  obtain ⟨-, hcovers⟩ := (lookups_read_two_minutes Set.univ "label" (momentAt 179) sparse).2 _ hpath
  obtain ⟨first, second, h⟩ := hcovers ⟨rfl, rfl, rfl⟩
  cases h.begun_eq
  refine ⟨_, hpath, ⟨rfl, rfl, rfl⟩, h.reads_perm, ?_⟩
  exact h.yields (slotIn 1) (h.reads_perm.mem_iff.2 (by decide +kernel)) trivial _ holder_sparse

/-- Not every lookup reads two consecutive minutes: if the second round begins in the next minute, a
node that holds a slot of the minute before the first round is not yielded. -/
theorem not_lookups_read_consecutive_minutes :
    ¬ ∀ (label : String) (moment : Moment) (table : Noted (SlotTable Slot)) (survey : Survey Slot)
      (first second : Moment), Path Set.univ (start label.toUTF8.toList moment table) survey →
      survey.IsEnded → survey.begun = [second, first] →
      survey.reads.Perm
        (table.state.slotsOf label.toUTF8.toList (minuteOf first.unixSeconds) ++
          table.state.slotsOf label.toUTF8.toList (previousMinute (minuteOf first.unixSeconds))) ∧
      ∀ slot ∈ table.state.slotsOf label.toUTF8.toList (minuteOf first.unixSeconds) ++
          table.state.slotsOf label.toUTF8.toList (previousMinute (minuteOf first.unixSeconds)),
        ∀ node, table.state.holder? slot = some node →
          ∃ record : ProviderRecord, record.nodeId = node ∧ record.peerInfo ∈ survey.taken := by
  intro h
  have hlater : (momentAt 179).unixSeconds ≤ (momentAt 180).unixSeconds := by decide
  obtain ⟨left, hpath⟩ := path_in_order "label".toUTF8.toList sparse hlater
  obtain ⟨-, hyields⟩ := h _ _ _ _ _ _ hpath ⟨rfl, rfl, rfl⟩ rfl
  obtain ⟨record, -, hmem⟩ := hyields (slotIn 1) (by decide +kernel) _ holder_sparse
  -- Both rounds have read the slot of the third minute, which is empty.
  have hnobody : (sparse.state.listing "label".toUTF8.toList 2).length = 0 := by decide +kernel
  rcases List.mem_append.1 hmem with hmem | hmem
  · exact List.not_mem_nil (List.eq_nil_of_length_eq_zero hnobody ▸ hmem)
  · exact List.not_mem_nil (List.eq_nil_of_length_eq_zero hnobody ▸ hmem)

end Survey

end PeerFinder.Rendezvous
