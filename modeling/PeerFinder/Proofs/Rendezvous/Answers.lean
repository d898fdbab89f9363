import Mathlib.Data.List.Nodup
import Mathlib.Data.List.Perm.Subperm
import Mathlib.Tactic.SplitIfs
import PeerFinder.Proofs.Environment.Queries
import PeerFinder.Proofs.Rendezvous.Advertising
import PeerFinder.Rendezvous.Service

/-!
# What a query answers

A query of a slotted table that nothing interrupts takes the providers of two minutes in order, until
it has enough of them or there are no more (`Lookup.run_call_slots`). Of every other node it keeps the
provider it met first (`Lookup.find_foldl_take`). If the providers are those of a number of nodes and
the query may answer with all others, it meets every one of them (`Lookup.IsSelective.find_of_limit`).
`Service.find_answers` puts this together for the table of a log.
-/

namespace PeerFinder

/-- An identity is known by its bytes. -/
theorem PeerId.bytes_injective : Function.Injective PeerId.bytes := by
  rintro ⟨bytes, _, _⟩ ⟨_, _, _⟩ rfl
  rfl

/-- The bytes of an identity are read as it. -/
theorem PeerId.of_bytes (id : PeerId) : ofBytes? id.bytes = some id := by
  rw [ofBytes?, dif_pos id.length_eq, dif_pos id.decompresses]

/-- The bytes that are read as an identity are its own. -/
theorem PeerId.bytes_of_bytes {bytes : List UInt8} {id : PeerId} (h : ofBytes? bytes = some id) :
    id.bytes = bytes := by
  unfold ofBytes? at h
  split_ifs at h
  cases h
  rfl

/-- A token is not cancelled if neither itself nor its parent is. -/
theorem ScopeTree.not_cancelled_cons {tree : ScopeTree} {number : Nat} {token : Token}
    (hself : number :: token ∉ tree.cancelled) (hparent : tree.isCancelled token = false) :
    tree.isCancelled (number :: token) = false := by
  rw [isCancelled, List.any_eq_false] at hparent ⊢
  intro ancestor hmem hsuffix
  rw [List.isSuffixOf_iff_suffix, List.suffix_cons_iff] at hsuffix
  obtain rfl | hsuffix := hsuffix
  · exact hself hmem
  · exact hparent ancestor hmem (List.isSuffixOf_iff_suffix.2 hsuffix)

namespace Rendezvous

/-- A record is read as a peer exactly if it is one of that peer. -/
theorem peer_info_stored_eq_ok_iff {record : ProviderRecord} {info : PeerInfo} :
    record.stored.peerInfo = .ok info ↔
      record.nodeId = info.id.bytes ∧
        info = PeerInfo.ofList info.id record.stored.addresses := by
  unfold ProviderRecord.peerInfo ProviderRecord.peerId
  rw [show record.stored.nodeId = record.nodeId from rfl]
  cases hbytes : PeerId.ofBytes? record.nodeId with
  | none =>
      refine ⟨fun h => (by cases h), fun h => ?_⟩
      rw [h.1, PeerId.of_bytes] at hbytes
      cases hbytes
  | some id =>
      constructor
      · intro h
        cases h
        exact ⟨(PeerId.bytes_of_bytes hbytes).symm, rfl⟩
      · rintro ⟨hnode, hinfo⟩
        rw [hnode, PeerId.of_bytes, Option.some.injEq] at hbytes
        rw [hinfo, hbytes]
        rfl

/-- The peers among what a feed yields. -/
def peers (providers : List Provider) : List PeerInfo :=
  providers.filterMap Except.toOption

namespace Shows

variable {providers : List Provider} {entries : List UInt8 → Option ProviderRecord}

/-- The peer in a record as it is stored. -/
theorem mem_peers (h : Shows providers entries) {info : PeerInfo} (hmem : info ∈ peers providers) :
    ∃ node record, entries node = some record ∧ record.stored.peerInfo = .ok info := by
  obtain ⟨nodes, -, -, rfl⟩ := h
  obtain ⟨provider, hprovider, hinfo⟩ := List.mem_filterMap.1 hmem
  obtain ⟨node, -, hentry⟩ := List.mem_filterMap.1 hprovider
  obtain ⟨record, hrecord, rfl⟩ := Option.map_eq_some_iff.1 hentry
  refine ⟨node, record, hrecord, ?_⟩
  cases hpeer : record.stored.peerInfo with
  | ok peer =>
      rw [hpeer] at hinfo
      cases hinfo
      rfl
  | error error =>
      rw [hpeer] at hinfo
      cases hinfo

/-- The entry of a node is the only one that is shown of it. -/
theorem find_peers (h : Shows providers entries)
    (hentries : ∀ node record, entries node = some record → record.nodeId = node) (id : PeerId) :
    (peers providers).find? (·.id = id) =
      (entries id.bytes).map fun record => PeerInfo.ofList id record.stored.addresses := by
  cases hentry : entries id.bytes with
  | none =>
      rw [Option.map_none, List.find?_eq_none]
      intro info hmem hid
      obtain ⟨node, record, hrecord, hpeer⟩ := h.mem_peers hmem
      obtain ⟨hnode, -⟩ := peer_info_stored_eq_ok_iff.1 hpeer
      rw [decide_eq_true_eq] at hid
      rw [← hid, ← hnode, hentries node record hrecord, hrecord] at hentry
      cases hentry
  | some record =>
      have hmem : PeerInfo.ofList id record.stored.addresses ∈ peers providers := by
        obtain ⟨nodes, -, hnodes, rfl⟩ := h
        refine List.mem_filterMap.2 ⟨record.stored.peerInfo, List.mem_filterMap.2
          ⟨id.bytes, (hnodes _).2 (by rw [hentry]; rfl), by rw [hentry]; rfl⟩, ?_⟩
        have hpeer : record.stored.peerInfo =
            .ok (PeerInfo.ofList id record.stored.addresses) :=
          peer_info_stored_eq_ok_iff.2 ⟨hentries _ _ hentry, rfl⟩
        rw [hpeer]
        rfl
      cases hfind : (peers providers).find? (·.id = id) with
      | none => exact absurd (decide_eq_true rfl) (List.find?_eq_none.1 hfind _ hmem)
      | some info =>
          obtain ⟨node, held, hheld, hpeer⟩ := h.mem_peers (List.mem_of_find?_eq_some hfind)
          obtain ⟨hnode, hinfo⟩ := peer_info_stored_eq_ok_iff.1 hpeer
          have hid : info.id = id := by simpa using List.find?_some hfind
          rw [hentries node held hheld, hid] at hnode
          rw [hnode, hentry, Option.some.injEq] at hheld
          rw [hinfo, hid, hheld]
          rfl

end Shows

namespace Lookup

variable (lookup : Lookup)

section Take

/-- Taking a provider keeps the node that asks. -/
@[simp]
theorem local_id_take (provider : Provider) : (lookup.take provider).localId = lookup.localId := by
  unfold take
  split
  · rfl
  · split_ifs <;> rfl

/-- Taking a provider keeps the limit. -/
@[simp]
theorem limit_take (provider : Provider) : (lookup.take provider).limit = lookup.limit := by
  unfold take
  split
  · rfl
  · split_ifs <;> rfl

/-- What a query takes does not depend on its feed. -/
theorem take_with_feed (feed : Feed) (provider : Provider) :
    { lookup with feed := feed }.take provider = { lookup.take provider with feed := feed } := by
  cases provider with
  | error error => rfl
  | ok info =>
      simp only [take]
      split_ifs <;> rfl

/-- All that a query takes does not depend on its feed. -/
theorem foldl_take_with_feed (feed : Feed) (providers : List Provider) :
    providers.foldl take { lookup with feed := feed } =
      { providers.foldl take lookup with feed := feed } := by
  induction providers generalizing lookup with
  | nil => rfl
  | cons provider rest ih => rw [List.foldl_cons, take_with_feed, ih, List.foldl_cons]

/-- A query never takes the node itself, and no peer twice. -/
structure IsSelective : Prop where
  nodup : (lookup.found.map PeerInfo.id).Nodup
  others : lookup.localId ∉ lookup.found.map PeerInfo.id

variable {lookup}

/-- A provider that is taken leaves a query selective. -/
theorem IsSelective.take (h : lookup.IsSelective) (provider : Provider) :
    (lookup.take provider).IsSelective := by
  cases provider with
  | error error => exact h
  | ok info =>
      simp only [Lookup.take]
      split_ifs with hskip
      · exact h
      · simp only [Bool.or_eq_true, decide_eq_true_eq, not_or, List.any_eq_true, beq_iff_eq] at hskip
        obtain ⟨hself, hmet⟩ := hskip
        have hnew : info.id ∉ lookup.found.map PeerInfo.id := by
          rintro hmem
          obtain ⟨held, hheld, hid⟩ := List.mem_map.1 hmem
          exact hmet ⟨held, hheld, hid⟩
        refine ⟨?_, ?_⟩
        · rw [List.map_append, List.nodup_append]
          refine ⟨h.nodup, List.nodup_singleton _, ?_⟩
          rintro id hid other hother rfl
          rw [List.map_singleton, List.mem_singleton] at hother
          exact hnew (hother ▸ hid)
        · rw [List.map_append, List.mem_append, List.map_singleton, List.mem_singleton, not_or]
          exact ⟨h.others, fun heq => hself heq.symm⟩

/-- Providers that are taken leave a query selective. -/
theorem IsSelective.foldl_take (h : lookup.IsSelective) (providers : List Provider) :
    (providers.foldl Lookup.take lookup).IsSelective := by
  induction providers generalizing lookup with
  | nil => exact h
  | cons provider rest ih => exact ih (h.take provider)

/-- The node is the same after all that was taken. -/
theorem local_id_foldl_take (lookup : Lookup) (providers : List Provider) :
    (providers.foldl Lookup.take lookup).localId = lookup.localId := by
  induction providers generalizing lookup with
  | nil => rfl
  | cons provider rest ih => rw [List.foldl_cons, ih, local_id_take]

/-- Of every other node a query keeps the first peer it met. -/
theorem find_foldl_take {id : PeerId} (lookup : Lookup) (hid : id ≠ lookup.localId)
    (providers : List Provider) :
    (providers.foldl Lookup.take lookup).found.find? (·.id = id) =
      (lookup.found ++ peers providers).find? (·.id = id) := by
  induction providers generalizing lookup with
  | nil => rw [peers, List.filterMap_nil, List.append_nil, List.foldl_nil]
  | cons provider rest ih =>
      rw [List.foldl_cons, ih _ (by rwa [local_id_take])]
      cases provider with
      | error error => rfl
      | ok info =>
          rw [show peers (.ok info :: rest) = info :: peers rest from rfl]
          simp only [Lookup.take, List.find?_append, List.find?_cons]
          split_ifs with hskip
          · -- The peer is the node itself, or one that was met before.
            cases hother : decide (info.id = id) with
            | false => rfl
            | true =>
                rw [decide_eq_true_eq] at hother
                simp only [Bool.or_eq_true, decide_eq_true_eq, List.any_eq_true, beq_iff_eq] at hskip
                obtain hself | ⟨held, hheld, hmet⟩ := hskip
                · exact absurd (hother.symm.trans hself) hid
                · have hfound : (lookup.found.find? (·.id = id)).isSome := by
                    rw [List.find?_isSome]
                    exact ⟨held, hheld, decide_eq_true (hmet.trans hother)⟩
                  rw [Option.or_of_isSome hfound, Option.or_of_isSome hfound]
          · simp only [List.find?_append, List.find?_singleton, Option.or_assoc]
            cases decide (info.id = id) <;> rfl

/-- All that is found was met. -/
theorem mem_peers_of_mem_foldl_take {lookup : Lookup} {providers : List Provider} {info : PeerInfo}
    (hmem : info ∈ (providers.foldl Lookup.take lookup).found) :
    info ∈ lookup.found ++ peers providers := by
  induction providers generalizing lookup with
  | nil => exact List.mem_append_left _ hmem
  | cons provider rest ih =>
      have hrest := ih hmem
      cases provider with
      | error error => exact hrest
      | ok met =>
          simp only [Lookup.take] at hrest
          rw [show peers (.ok met :: rest) = met :: peers rest from rfl]
          split_ifs at hrest
          · simp only [List.mem_append, List.mem_cons] at hrest ⊢
            exact hrest.imp_right .inr
          · simpa using hrest

/-- What a query answers about a peer is what it found of it. -/
theorem IsSelective.filter_answer (h : lookup.IsSelective) (id : PeerId) :
    lookup.answer.filter (·.id = id) =
      ((lookup.found.find? (·.id = id)).map Sighting.ofInfo).toList := by
  have hkeys : ∀ found : List PeerInfo, (found.map PeerInfo.id).Nodup →
      found.filter (·.id = id) = (found.find? (·.id = id)).toList := by
    intro found hnodup
    induction found with
    | nil => rfl
    | cons info rest ih =>
        rw [List.map_cons, List.nodup_cons] at hnodup
        rw [List.filter_cons, List.find?_cons]
        by_cases hid : info.id = id
        · rw [decide_eq_true hid, if_pos rfl, ih hnodup.2, List.find?_eq_none.2]
          · rfl
          · intro other hother heq
            rw [decide_eq_true_eq] at heq
            exact hnodup.1 (List.mem_map.2 ⟨other, hother, heq.trans hid.symm⟩)
        · rw [decide_eq_false hid, if_neg Bool.false_ne_true, ih hnodup.2]
  rw [answer, List.filter_map]
  change (lookup.found.filter (·.id = id)).map Sighting.ofInfo = _
  rw [hkeys _ h.nodup, Option.toList_map]

/-- A query that found as many peers as there are nodes but its own found every other node. -/
theorem IsSelective.mem_found (h : lookup.IsSelective) {nodes : List PeerId}
    (hlocal : lookup.localId ∈ nodes) (hnodes : ∀ info ∈ lookup.found, info.id ∈ nodes)
    (henough : nodes.length - 1 ≤ lookup.found.length) {id : PeerId} (hid : id ≠ lookup.localId)
    (hmem : id ∈ nodes) : id ∈ lookup.found.map PeerInfo.id := by
  by_contra hmissing
  have hsubset : lookup.found.map PeerInfo.id ⊆ (nodes.erase lookup.localId).erase id := by
    intro other hother
    have hne : other ≠ id := fun heq => hmissing (heq ▸ hother)
    have hlocal : other ≠ lookup.localId := fun heq => h.others (heq ▸ hother)
    obtain ⟨held, hheld, rfl⟩ := List.mem_map.1 hother
    exact (List.mem_erase_of_ne hne).2 ((List.mem_erase_of_ne hlocal).2 (hnodes held hheld))
  have hcount := (List.subperm_of_subset h.nodup hsubset).length_le
  have hothers : id ∈ nodes.erase lookup.localId := (List.mem_erase_of_ne hid).2 hmem
  have hpos := List.length_pos_of_mem hothers
  rw [List.length_map, List.length_erase_of_mem hothers] at hcount
  rw [List.length_erase_of_mem hlocal] at hcount hpos
  omega

/-- A query that may answer with all nodes but its own meets every one of them that is among its
providers, whether it takes all of those or stops when it has enough. -/
theorem IsSelective.find_of_limit (h : lookup.IsSelective) (hfound : lookup.found = [])
    {nodes : List PeerId} (hlocal : lookup.localId ∈ nodes)
    (hlimit : nodes.length - 1 ≤ lookup.limit) {providers taken : List Provider}
    (hnodes : ∀ info ∈ peers providers, info.id ∈ nodes) (htaken : taken <+: providers)
    (hended : taken = providers ∨ lookup.limit ≤ (taken.foldl Lookup.take lookup).found.length)
    {id : PeerId} (hid : id ≠ lookup.localId) {info : PeerInfo}
    (hinfo : (peers providers).find? (·.id = id) = some info) :
    (taken.foldl Lookup.take lookup).found.find? (·.id = id) = some info := by
  have hmet := find_foldl_take lookup hid taken
  rw [hfound, List.nil_append] at hmet
  obtain rfl | henough := hended
  · rw [hmet, hinfo]
  · have hsublist : (peers taken).Sublist (peers providers) := htaken.sublist.filterMap _
    have hfirst : id ∈ (taken.foldl Lookup.take lookup).found.map PeerInfo.id := by
      refine (h.foldl_take taken).mem_found ?_ ?_ (hlimit.trans henough) ?_ ?_
      · rwa [local_id_foldl_take]
      · intro met hmem
        have hpeer := mem_peers_of_mem_foldl_take hmem
        rw [hfound, List.nil_append] at hpeer
        exact hnodes met (hsublist.subset hpeer)
      · rwa [local_id_foldl_take]
      · have hsame : info.id = id := by simpa using List.find?_some hinfo
        exact hsame ▸ hnodes info (List.mem_of_find?_eq_some hinfo)
    obtain ⟨held, hheld, rfl⟩ := List.mem_map.1 hfirst
    obtain ⟨rest, rfl⟩ := htaken
    rw [peers, List.filterMap_append, List.find?_append, ← peers, ← hmet] at hinfo
    have hsome : ((taken.foldl Lookup.take lookup).found.find? (·.id = held.id)).isSome := by
      rw [List.find?_isSome]
      exact ⟨held, hheld, decide_eq_true rfl⟩
    rwa [Option.or_of_isSome hsome] at hinfo

end Take

section Run

variable {κ : Type} [DecidableEq κ] {tree : ScopeTree} {moment : Moment} {minute : Minute}
  {lookup : Lookup}

/-- A query that nothing interrupts takes the providers that are ready or remain to be read, in
order, until it has enough or there are no more. -/
theorem run_call_slots (hminute : minuteOf moment.unixSeconds = minute) (label : List UInt8)
    (providers : List Provider) {budget : Nat} (hbudget : providers.length < budget)
    (hdone : lookup.scope.isDone tree moment.now = false) {ready : List Provider} {rounds : Nat}
    (hfeed : lookup.feed = .slots label ready rounds) (table : SlotTable κ) (journal : Journal)
    (hproviders : providers = ready ++ table.remaining label minute rounds) :
    ∃ taken, taken <+: providers ∧
      (taken = providers ∨ lookup.limit ≤ (taken.foldl take lookup).found.length) ∧
      (Activity.runCall (step tree moment) budget ⟨.slotted table, journal⟩ lookup).call =
        .inr (taken.foldl take lookup).answer := by
  induction providers generalizing budget lookup ready rounds table journal with
  | nil =>
      obtain ⟨budget, rfl⟩ := Nat.exists_eq_succ_of_ne_zero (Nat.ne_of_gt hbudget)
      obtain ⟨poll, after, hpoll, -, hcases⟩ := Feed.poll_slots_cases hminute label ready rounds
        ⟨table, journal⟩
      simp only [← hproviders] at hcases
      refine ⟨[], List.prefix_rfl, .inl rfl, ?_⟩
      by_cases henough : lookup.limit ≤ lookup.found.length
      · simp [Activity.runCall, step, henough]
      · simp [Activity.runCall, step, henough, hdone, hfeed, Routing.poll_slotted, hpoll, hcases]
  | cons provider rest ih =>
      obtain ⟨budget, rfl⟩ := Nat.exists_eq_succ_of_ne_zero (Nat.ne_of_gt (Nat.zero_lt_of_lt hbudget))
      obtain ⟨poll, after, hpoll, hagrees, hcases⟩ := Feed.poll_slots_cases hminute label ready rounds
        ⟨table, journal⟩
      simp only [← hproviders] at hcases
      obtain ⟨ready', rounds', hitem, hrest⟩ := hcases
      by_cases henough : lookup.limit ≤ lookup.found.length
      · refine ⟨[], List.nil_prefix, .inr henough, ?_⟩
        simp [Activity.runCall, step, henough]
      · rw [← hagrees.remaining_eq] at hrest
        have hrestDone : { lookup.take provider with feed := Feed.slots label ready' rounds' }.scope.isDone
            tree moment.now = false := by
          rwa [← scope_take lookup provider] at hdone
        obtain ⟨taken, htaken, hended, hcall⟩ := ih (Nat.lt_of_succ_lt_succ hbudget) hrestDone rfl
          after.state after.journal hrest
        rw [foldl_take_with_feed] at hended hcall
        refine ⟨provider :: taken, List.cons_prefix_cons.2 ⟨rfl, htaken⟩, ?_, ?_⟩
        · rw [List.cons.injEq, and_iff_right rfl]
          exact hended.imp_right fun h => limit_take lookup provider ▸ h
        · have hstep : step tree moment ⟨.slotted table, journal⟩ lookup =
              some (⟨.slotted after.state, after.journal⟩,
                .inl { lookup.take provider with feed := .slots label ready' rounds' }) := by
            rw [← take_with_feed]
            simp [step, henough, hdone, hfeed, Routing.poll_slotted, hpoll, hitem, Noted.modify]
          rw [Activity.runCall, hstep]
          exact hcall

end Run

end Lookup

/-- A query whose scope and bound leave it time is not done when it begins, in a tree where the token
it is given was not cancelled before. -/
theorem Service.find_not_done {κ : Type} (service : Service) (routing : Routing κ)
    {tree : ScopeTree} {now : Clock.Instant} {scope : Scope} (limit : Nat)
    (htimeout : 0 < service.queryTimeout) (hdone : scope.isDone tree now = false)
    (htoken : tree.issued :: scope.token ∉ tree.cancelled) :
    (service.find routing tree now scope limit).1.scope.isDone
      (service.find routing tree now scope limit).2 now = false := by
  rw [Scope.isDone, Bool.or_eq_false_iff] at hdone ⊢
  refine ⟨ScopeTree.not_cancelled_cons htoken hdone.1, ?_⟩
  rw [Option.any_eq_false] at hdone ⊢
  intro deadline hdeadline
  obtain hscope | hbound := Clock.mem_of_mem_earlier hdeadline
  · exact hdone.2 deadline hscope
  · rw [Clock.after?, Option.mem_def, Option.ite_none_right_eq_some] at hbound
    cases hbound.2
    exact decide_eq_false (Nat.not_le.2 (Nat.lt_add_of_pos_right htimeout))

section Find

variable {κ : Type} [DecidableEq κ] {labels : Set String} {log : List (Provision × Provide)}
  {table : SlotTable κ} {label : String}

/-- Of every node a lookup yields the last record of the present minute, and else the last one of the
minute before. -/
theorem SlotTable.Reflects.find_remaining (h : table.Reflects labels log) (hlabel : label ∈ labels)
    (minute : Minute) (id : PeerId) :
    (peers (table.remaining label.toUTF8.toList minute 2)).find? (·.id = id) =
      ((latest? log label minute id.bytes).or
        (latest? log label (previousMinute minute) id.bytes)).map
          fun record => PeerInfo.ofList id record.stored.addresses := by
  have hremaining : table.remaining label.toUTF8.toList minute 2 =
      table.listing label.toUTF8.toList minute ++
        table.listing label.toUTF8.toList (previousMinute minute) := by
    simp [SlotTable.remaining]
  rw [hremaining, peers, List.filterMap_append, List.find?_append, ← peers, ← peers,
    (h.listing_shows hlabel minute).find_peers (fun _ _ => node_id_of_latest),
    (h.listing_shows hlabel (previousMinute minute)).find_peers (fun _ _ => node_id_of_latest)]
  cases latest? log label minute id.bytes <;> rfl

/-- A lookup yields no other peers than nodes that published. -/
theorem SlotTable.Reflects.id_of_mem_peers (h : table.Reflects labels log) (hlabel : label ∈ labels)
    {nodes : List PeerId} (hlog : ∀ entry ∈ log, ∃ id ∈ nodes, entry.1.node = id.bytes)
    {minute : Minute} {info : PeerInfo}
    (hinfo : info ∈ peers (table.remaining label.toUTF8.toList minute 2)) :
    info.id ∈ nodes := by
  have hsome : ((peers (table.remaining label.toUTF8.toList minute 2)).find?
      (·.id = info.id)).isSome := by
    rw [List.find?_isSome]
    exact ⟨info, hinfo, decide_eq_true rfl⟩
  rw [h.find_remaining hlabel, Option.isSome_map, Option.isSome_iff_exists] at hsome
  obtain ⟨record, hrecord⟩ := hsome
  have hentry : ∃ entry ∈ log, entry.1.node = info.id.bytes := by
    rw [Option.or_eq_some_iff] at hrecord
    obtain hpresent | ⟨-, hformer⟩ := hrecord
    · obtain ⟨entry, hmem, -, -, -, hnode, -⟩ := exists_of_latest hpresent
      exact ⟨entry, hmem, hnode⟩
    · obtain ⟨entry, hmem, -, -, -, hnode, -⟩ := exists_of_latest hformer
      exact ⟨entry, hmem, hnode⟩
  obtain ⟨entry, hmem, hnode⟩ := hentry
  obtain ⟨id, hid, hbytes⟩ := hlog entry hmem
  rwa [PeerId.bytes_injective (hnode.symm.trans hbytes)]

/-- A lookup yields at most one provider for every slot of the two minutes. -/
theorem SlotTable.length_remaining (table : SlotTable κ) (label : List UInt8) (minute : Minute)
    (rounds : Nat) : (table.remaining label minute rounds).length ≤ rounds * table.slots := by
  induction rounds with
  | zero => exact Nat.zero_le _
  | succ rounds ih =>
      have hlisting : ∀ minute, (table.listing label minute).length ≤ table.slots := fun minute =>
        (List.length_filterMap_le _ _).trans (List.length_range).le
      rw [SlotTable.remaining, List.length_append, Nat.succ_mul, Nat.add_comm]
      exact Nat.add_le_add ih (hlisting _)

/-- A query that may answer with all nodes but its own answers at once, and of every other node that
published in the present minute or the one before it answers the last record. -/
theorem Service.find_answers (service : Service) (h : table.Reflects labels log)
    (hlabel : service.advertisement.label ∈ labels) {nodes : List PeerId}
    (hlog : ∀ entry ∈ log, ∃ id ∈ nodes, entry.1.node = id.bytes)
    (hlocal : service.advertisement.info.id ∈ nodes) {tree : ScopeTree} {moment : Moment}
    {scope : Scope} {limit : Nat} (hlimit : nodes.length - 1 ≤ limit)
    (htimeout : 0 < service.queryTimeout) (hdone : scope.isDone tree moment.now = false)
    (htoken : tree.issued :: scope.token ∉ tree.cancelled) (journal : Journal) {budget : Nat}
    (hbudget : 2 * table.slots < budget) {id : PeerId}
    (hid : id ≠ service.advertisement.info.id) {record : ProviderRecord}
    (hrecord : (latest? log service.advertisement.label (minuteOf moment.unixSeconds) id.bytes).or
      (latest? log service.advertisement.label
        (previousMinute (minuteOf moment.unixSeconds)) id.bytes) = some record) :
    ∃ answer, (Activity.runCall
        (Lookup.step (service.find (.slotted table) tree moment.now scope limit).2 moment) budget
        ⟨.slotted table, journal⟩ (service.find (.slotted table) tree moment.now scope limit).1).call =
          .inr answer ∧
      answer.filter (·.id = id) =
        [Sighting.ofInfo (PeerInfo.ofList id record.stored.addresses)] := by
  have hfind := h.find_remaining hlabel (minuteOf moment.unixSeconds) id
  rw [hrecord, Option.map_some] at hfind
  obtain ⟨taken, htaken, hended, hcall⟩ := Lookup.run_call_slots rfl
    service.advertisement.label.toUTF8.toList _ ((table.length_remaining _ _ 2).trans_lt hbudget)
    (service.find_not_done (.slotted table) limit htimeout hdone htoken) rfl table journal rfl
  refine ⟨_, hcall, ?_⟩
  have hfresh : (service.find (.slotted table) tree moment.now scope limit).1.IsSelective :=
    ⟨List.nodup_nil, List.not_mem_nil⟩
  rw [(hfresh.foldl_take taken).filter_answer, hfresh.find_of_limit rfl hlocal hlimit ?_
    htaken hended hid hfind]
  · rfl
  · intro info hinfo
    exact h.id_of_mem_peers hlabel hlog hinfo

end Find

end Rendezvous

end PeerFinder
