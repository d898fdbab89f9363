import PeerFinder.Proofs.Seed.Histories

/-!
# What is about one seed

All seeds share the flags, the transport and the journal. What of these is about one seed is a part
of its own (`Board.part`). A dial or a supervisor of the seed goes on in that part as it does among
the others, and one of another seed leaves the part as it is (`Dial.isolates`,
`Supervisor.isolates`). The same holds of a sweep, by the seed that it has come to
(`Sweep.step_only`, `Sweep.only_step`).
-/

namespace PeerFinder

namespace PeerSet

/-- A peer of a set, and no other. -/
def only (peers : PeerSet) (id : PeerId) : PeerSet :=
  peers.filter (· = id)

variable {peers : PeerSet} {id other : PeerId}

@[simp]
theorem mem_only : other ∈ only peers id ↔ other = id ∧ other ∈ peers := by
  simp [only, Std.ExtTreeSet.mem_filter, and_comm]

@[simp]
theorem contains_only : (only peers id).contains id = peers.contains id := by
  rw [Bool.eq_iff_iff]
  simp

@[simp]
theorem only_insert : only (peers.insert other) id =
    if other = id then (only peers id).insert id else only peers id := by
  ext peer
  split_ifs with hother
  · subst hother
    simp only [mem_only, Std.ExtTreeSet.mem_insert, Std.LawfulEqCmp.compare_eq_iff_eq]
    tauto
  · simp only [mem_only, Std.ExtTreeSet.mem_insert, Std.LawfulEqCmp.compare_eq_iff_eq]
    refine and_congr_right fun hpeer => or_iff_right fun heq => ?_
    exact hother (heq.trans hpeer)

@[simp]
theorem only_erase : only (peers.erase other) id =
    if other = id then (only peers id).erase id else only peers id := by
  ext peer
  split_ifs with hother
  · subst hother
    simp only [mem_only, Std.ExtTreeSet.mem_erase]
    tauto
  · simp only [mem_only, Std.ExtTreeSet.mem_erase, ne_eq, Std.LawfulEqCmp.compare_eq_iff_eq]
    refine and_congr_right fun hpeer => and_iff_right fun heq => ?_
    exact hother (heq.trans hpeer)

end PeerSet

namespace Transport

/-- What a transport holds of a peer, and of no other. -/
def only (transport : Transport) (id : PeerId) : Transport :=
  { transport with
    reachable := transport.reachable.only id
    connected := transport.connected.only id
    known := transport.known.filter fun peer _ => peer = id
    attempts := transport.attempts.filter (·.2 = id) }

variable {transport : Transport} {id : PeerId} {peer : PeerInfo}

/-- Addresses of the peer are added as if there were no others. -/
theorem add_known_only (hpeer : peer.id = id) :
    (transport.only id).addKnown peer = (transport.addKnown peer).only id := by
  have hheld : (transport.only id).known.getD id ∅ = transport.known.getD id ∅ := by
    simp only [only, Std.ExtTreeMap.getD_eq_getD_getElem?, Std.ExtTreeMap.getElem?_filter']
    cases transport.known[id]? with
    | none => rfl
    | some held => simp [Option.filter]
  simp only [addKnown, hpeer, hheld]
  simp only [only]
  congr 1
  apply Std.ExtTreeMap.ext_getElem?
  intro other
  by_cases hother : other = id
  · subst hother
    simp [Option.filter]
  · simp [Std.ExtTreeMap.mem_filter, hother, Ne.symm hother]

/-- Addresses of another peer are added without the peer. -/
theorem only_add_known (hpeer : peer.id ≠ id) :
    (transport.addKnown peer).only id = transport.only id := by
  simp only [addKnown, only]
  congr 1
  apply Std.ExtTreeMap.ext_getElem?
  intro other
  by_cases hother : other = id
  · subst hother
    simp [Std.ExtTreeMap.getElem?_insert, hpeer]
  · simp [Std.ExtTreeMap.mem_filter, hother]

/-- A connect to the peer begins as if there were no others. -/
theorem begin_connect_only (now : Clock.Instant) (hpeer : peer.id = id) :
    (transport.only id).beginConnect now peer =
      ((transport.beginConnect now peer).1, (transport.beginConnect now peer).2.only id) := by
  refine Prod.ext rfl ?_
  simp [beginConnect, only, hpeer]

/-- A connect to another peer begins without the peer. -/
theorem only_begin_connect (now : Clock.Instant) (hpeer : peer.id ≠ id) :
    (transport.beginConnect now peer).2.only id = transport.only id := by
  simp [beginConnect, only, hpeer]

/-- A connect to the peer ends as if there were no others. -/
theorem finish_connect_only (hpeer : peer.id = id) :
    (transport.only id).finishConnect peer =
      ((transport.finishConnect peer).1, (transport.finishConnect peer).2.only id) := by
  have hreachable : (transport.only id).reachable.contains peer.id =
      transport.reachable.contains peer.id := by simp [only, hpeer]
  unfold finishConnect
  rw [hreachable, add_known_only hpeer]
  split_ifs
  · simp [only, addKnown, hpeer]
  · rfl

/-- A connect to another peer ends without the peer. -/
theorem only_finish_connect (hpeer : peer.id ≠ id) :
    (transport.finishConnect peer).2.only id = transport.only id := by
  have hknown : (transport.addKnown peer).only id = transport.only id := only_add_known hpeer
  unfold finishConnect
  split_ifs
  · simpa [only, addKnown, hpeer] using hknown
  · rfl

end Transport

/-- The seed that a notice is about. -/
def Notice.seed? : Notice → Option PeerId
  | .seedRefused peer .. | .seedConnected peer _ | .seedLost peer | .seedReconnected peer
  | .seedStillLost peer _ => some peer
  | .population .. | .eviction .. | .evictionStopped | .seedIgnored _ | .queryComplete ..
  | .queryTimedOut _ | .queryFailed .. | .subscriptionEnded | .publisherRunning | .advertised _
  | .advertiseFailed .. | .recordUnreadable .. | .slotTaken _ | .peerConnected _
  | .peerUnreachable .. | .noRoutingTable => none

namespace Seed

/-- The flags of a seed, and of no other. -/
def Flags.only (flags : Flags) (id : PeerId) : Flags where
  connected := flags.connected.only id
  dialing := flags.dialing.only id
  supervised := flags.supervised.only id

namespace Flags

variable (flags : Flags) (seed id : PeerId)

@[simp]
theorem only_connect : (flags.connect seed).only id =
    if seed = id then (flags.only id).connect id else flags.only id := by
  simp only [connect, only, PeerSet.only_insert]
  split_ifs <;> rfl

@[simp]
theorem only_lose : (flags.lose seed).only id =
    if seed = id then (flags.only id).lose id else flags.only id := by
  simp only [lose, only, PeerSet.only_erase]
  split_ifs <;> rfl

@[simp]
theorem only_claim : (flags.claim seed).only id =
    if seed = id then (flags.only id).claim id else flags.only id := by
  simp only [claim, only, PeerSet.only_insert]
  split_ifs <;> rfl

@[simp]
theorem only_release : (flags.release seed).only id =
    if seed = id then (flags.only id).release id else flags.only id := by
  simp only [release, only, PeerSet.only_erase]
  split_ifs <;> rfl

@[simp]
theorem only_supervise : (flags.supervise seed).only id =
    if seed = id then (flags.only id).supervise id else flags.only id := by
  simp only [supervise, only, PeerSet.only_insert]
  split_ifs <;> rfl

@[simp]
theorem only_dismiss : (flags.dismiss seed).only id =
    if seed = id then (flags.only id).dismiss id else flags.only id := by
  simp only [dismiss, only, PeerSet.only_erase]
  split_ifs <;> rfl

end Flags

/-- What a board holds of a seed, and of no other. -/
def Board.only (board : Board) (id : PeerId) : Board where
  transport := board.transport.only id
  flags := board.flags.only id
  recruits := board.recruits.filter (·.seed.id = id)

/-- The notices about a seed. -/
def noticesOf (id : PeerId) (journal : Journal) : Journal :=
  journal.filter (·.2.seed? = some id)

/-- What a board holds of a seed, with the notices about it. -/
def Board.part (id : PeerId) (board : Noted Board) : Noted Board :=
  ⟨board.state.only id, noticesOf id board.journal⟩

section Parts

variable {board : Noted Board} {moment : Moment} {id : PeerId} {call : BoundedConnect}
  {transport : Transport}

/-- A notice about a seed is noted in its part. -/
theorem Board.part_note (now : Clock.Instant) {notice : Notice} (hnotice : notice.seed? = some id) :
    part id (board.note now notice) = (part id board).note now notice := by
  simp [part, noticesOf, Noted.note, hnotice]

/-- A notice about another seed is not noted in its part. -/
theorem Board.part_note_of_ne (now : Clock.Instant) {notice : Notice}
    (hnotice : notice.seed? ≠ some id) : part id (board.note now notice) = part id board := by
  simp [part, noticesOf, Noted.note, hnotice]

/-- Flags of a seed are changed in its part. -/
theorem Board.part_map_flags {change : Flags → Flags}
    (hchange : ∀ flags, (change flags).only id = change (flags.only id)) :
    part id (board.modify (·.mapFlags change)) = (part id board).modify (·.mapFlags change) := by
  simp [part, only, mapFlags, Noted.modify, hchange]

/-- Flags of another seed are not changed in its part. -/
theorem Board.part_map_flags_of_ne {change : Flags → Flags}
    (hchange : ∀ flags, (change flags).only id = flags.only id) :
    part id (board.modify (·.mapFlags change)) = part id board := by
  simp [part, only, mapFlags, Noted.modify, hchange]

/-- A connect to a seed goes on as if there were no others. -/
theorem connect_outcome_only (hpeer : call.connect.peer.id = id) :
    connectOutcome? moment call (transport.only id) =
      (connectOutcome? moment call transport).map fun ended => (ended.1, ended.2.only id) := by
  unfold connectOutcome? BoundedConnect.outcome?
  split_ifs <;> simp [Transport.finish_connect_only hpeer]

/-- A connect to another seed goes on without the seed. -/
theorem only_connect_outcome (hpeer : call.connect.peer.id ≠ id)
    {ended : Except Error Unit × Transport}
    (hended : connectOutcome? moment call transport = some ended) :
    ended.2.only id = transport.only id := by
  unfold connectOutcome? BoundedConnect.outcome? at hended
  split_ifs at hended <;> cases hended
  · rfl
  · exact Transport.only_finish_connect hpeer
  · rfl

end Parts

namespace Dial

variable {id : PeerId}

/-- What a dial notes is about its seed. -/
theorem seed_of_notice (policy : Policy) (seed : Seed) (attempt : Nat)
    (outcome : Except Error Unit) : (notice policy seed attempt outcome).seed? = some seed.id := by
  cases outcome <;> rfl

/-- A dial that connected flags its seed, puts it under supervision, and calls for a supervisor
unless there is one; one that did not only releases it. -/
theorem settle_eq (seed : Seed) (connected : Bool) (board : Board) :
    settle seed connected board =
      { board with
        flags :=
          if connected then ((board.flags.release seed.id).connect seed.id).supervise seed.id
          else board.flags.release seed.id
        recruits := board.recruits ++
          if connected = true ∧ seed.id ∉ board.flags.supervised then [Supervisor.ofSeed seed]
          else [] } := by
  cases connected with
  | false => simp [settle, Board.mapFlags]
  | true =>
      by_cases hsupervised : seed.id ∈ board.flags.supervised
      · have hsame : board.flags.supervised.insert seed.id = board.flags.supervised := by
          ext other
          simp only [Std.ExtTreeSet.mem_insert, Std.LawfulEqCmp.compare_eq_iff_eq]
          exact or_iff_right_of_imp fun heq => heq ▸ hsupervised
        simp [settle, Board.mapFlags, Flags.release, Flags.connect, Flags.supervise, hsupervised,
          hsame]
      · simp [settle, Board.mapFlags, Flags.release, Flags.connect, Flags.supervise, hsupervised]

/-- A dial settles its seed as if there were no others. -/
theorem settle_only (seed : Seed) (connected : Bool) (board : Board) :
    settle seed connected (board.only seed.id) = (settle seed connected board).only seed.id := by
  have hsupervised : seed.id ∈ (board.only seed.id).flags.supervised ↔
      seed.id ∈ board.flags.supervised := by simp [Board.only, Flags.only]
  rw [settle_eq, settle_eq]
  simp only [hsupervised]
  cases connected with
  | false => simp [Board.only]
  | true =>
      by_cases hmem : seed.id ∈ board.flags.supervised <;>
        simp [Board.only, hmem, Supervisor.ofSeed]

/-- A dial settles its seed without the others. -/
theorem only_settle (seed : Seed) (connected : Bool) (board : Board) (hseed : seed.id ≠ id) :
    (settle seed connected board).only id = board.only id := by
  have hrecruit : (Supervisor.ofSeed seed).seed.id ≠ id := hseed
  rw [settle_eq]
  cases connected <;> simp [Board.only, hseed, hrecruit]

/-- Dials of a seed go on as if there were no other seeds, and those of others go on without the
seed. -/
theorem isolates (policy : Policy) (moment : Moment) (id : PeerId) :
    Activity.Isolates (step policy moment) (Board.part id) (fun dial => dial.seed.id = id)
      IsSound where
  stays _ hnext left hmem := by
    obtain ⟨hsound, hseed⟩ := sound_of_step hnext left hmem
    exact ⟨hsound, by rw [hseed]⟩
  inside {board dial} hsound hown := by
    obtain ⟨seed, point⟩ := dial
    obtain rfl : seed.id = id := of_decide_eq_true hown
    cases point with
    | ready attempt backoff =>
        simp only [step]
        split_ifs
        · rfl
        · simp only [conclude, Option.map_some,
            Board.part_note moment.now (seed_of_notice policy seed attempt _)]
        · simp only [Board.connect, BoundedConnect.start, Board.part, Board.only,
            Transport.begin_connect_only moment.now (show seed.info.id = seed.id from rfl),
            Option.map_some]
    | trying attempt backoff call =>
        have hended : connectOutcome? moment call (Board.part seed.id board).state.transport = _ :=
          connect_outcome_only hsound
        simp only [step, hended, Option.map_map]
        congr 1
        funext ended
        simp only [Function.comp_apply, conclude,
          Board.part_note moment.now (seed_of_notice policy seed attempt _)]
        rfl
    | resting attempt backoff resume =>
        simp only [step]
        split_ifs <;> rfl
    | ending connected =>
        simp only [step, Option.map_some, Noted.modify, Board.part, settle_only]
  outside {board dial after next} hsound hother hnext := by
    obtain ⟨seed, point⟩ := dial
    have hseed : seed.id ≠ id := of_decide_eq_false hother
    have hsilent : ∀ attempt outcome, (notice policy seed attempt outcome).seed? ≠ some id := by
      intro attempt outcome heq
      rw [seed_of_notice] at heq
      exact hseed (Option.some.inj heq)
    cases point with
    | ready attempt backoff =>
        simp only [step, conclude] at hnext
        split_ifs at hnext <;> cases hnext
        · rfl
        · exact Board.part_note_of_ne _ (hsilent attempt _)
        · simp only [Board.part, Board.only, Board.connect, BoundedConnect.start,
            Transport.only_begin_connect moment.now (show seed.info.id ≠ id from hseed)]
    | trying attempt backoff call =>
        obtain ⟨ended, hended, heq⟩ := Option.map_eq_some_iff.1 hnext
        have htransport := only_connect_outcome (hsound.trans_ne hseed) hended
        cases heq
        refine (Board.part_note_of_ne _ (hsilent attempt _)).trans ?_
        simp only [Board.part, Board.only, Noted.modify, htransport]
    | resting attempt backoff resume =>
        simp only [step] at hnext
        split_ifs at hnext <;> cases hnext <;> rfl
    | ending connected =>
        cases hnext
        simp only [Board.part, Noted.modify, only_settle seed connected board.state hseed]

end Dial

namespace Supervisor

variable {supervisor : Supervisor} {board : Noted Board} {id : PeerId}

/-- A supervisor acts on a look at its seed as if there were no others. -/
theorem look_part (ticker : Ticker) (connected : Bool) (now : Clock.Instant)
    (hown : supervisor.seed.id = id) :
    supervisor.look ticker connected now (Board.part id board) =
      (Board.part id (supervisor.look ticker connected now board).1,
        (supervisor.look ticker connected now board).2) := by
  have hconnected : (Board.part id board).state.flags.connected.contains id =
      board.state.flags.connected.contains id := PeerSet.contains_only
  have hdialing : (Board.part id board).state.flags.dialing.contains id =
      board.state.flags.dialing.contains id := PeerSet.contains_only
  unfold look
  simp only [hown, hconnected, hdialing]
  split_ifs <;>
    simp [Board.part_map_flags,
      Board.part_note now (show (Notice.seedLost id).seed? = some id from rfl)]

/-- A supervisor acts on a look at another seed without the seed. -/
theorem part_look (ticker : Ticker) (connected : Bool) (now : Clock.Instant)
    (hother : supervisor.seed.id ≠ id) :
    Board.part id (supervisor.look ticker connected now board).1 = Board.part id board := by
  have hsilent : (Notice.seedLost supervisor.seed.id).seed? ≠ some id := by simpa [Notice.seed?]
  unfold look
  dsimp only
  split_ifs <;>
    simp [Board.part_map_flags_of_ne, Board.part_note_of_ne now hsilent, hother]

/-- A supervisor acts on a reconnect to its seed as if there were no others. -/
theorem settle_part (ticker : Ticker) (outcome : Except Error Unit) (now : Clock.Instant)
    (hown : supervisor.seed.id = id) :
    supervisor.settle ticker outcome now (Board.part id board) =
      (Board.part id (supervisor.settle ticker outcome now board).1,
        (supervisor.settle ticker outcome now board).2) := by
  cases outcome with
  | ok =>
      simp [settle, hown, Board.part_map_flags,
        Board.part_note now (show (Notice.seedReconnected id).seed? = some id from rfl)]
  | error error =>
      simp [settle, hown, Board.part_map_flags,
        Board.part_note now (show (Notice.seedStillLost id error).seed? = some id from rfl)]

/-- A supervisor acts on a reconnect to another seed without the seed. -/
theorem part_settle (ticker : Ticker) (outcome : Except Error Unit) (now : Clock.Instant)
    (hother : supervisor.seed.id ≠ id) :
    Board.part id (supervisor.settle ticker outcome now board).1 = Board.part id board := by
  have hsilent : ∀ notice : Notice, notice.seed? = some supervisor.seed.id →
      notice.seed? ≠ some id :=
    fun notice hnotice heq => hother (Option.some.inj (hnotice.symm.trans heq))
  cases outcome with
  | ok =>
      simp [settle, hother, Board.part_map_flags_of_ne,
        Board.part_note_of_ne now (hsilent (.seedReconnected _) rfl)]
  | error error =>
      simp [settle, hother, Board.part_map_flags_of_ne,
        Board.part_note_of_ne now (hsilent (.seedStillLost _ error) rfl)]

/-- Supervisors of a seed go on as if there were no other seeds, and those of others go on without
the seed. -/
theorem isolates (policy : Policy) (moment : Moment) (id : PeerId) :
    Activity.Isolates (step policy moment) (Board.part id)
      (fun supervisor => supervisor.seed.id = id) IsSound where
  stays hsound hnext left hmem :=
    ⟨(sound_of_step hsound hnext left hmem).1, by rw [seed_of_step hnext left hmem]⟩
  inside {board supervisor} hsound hown := by
    obtain ⟨seed, point⟩ := supervisor
    obtain rfl : seed.id = id := of_decide_eq_true hown
    cases point with
    | ready =>
        simp only [step]
        split_ifs <;> rfl
    | waiting ticker =>
        have hconnected : (Board.part seed.id board).state.transport.isConnected seed.id =
            board.state.transport.isConnected seed.id := PeerSet.contains_only
        simp only [step, hconnected]
        split_ifs
        · rfl
        · rw [Option.map_map]
          rfl
    | looked ticker connected => exact congrArg some (look_part ticker connected moment.now rfl)
    | claimed ticker =>
        simp only [step]
        split_ifs
        · rfl
        · simp only [Board.connect, BoundedConnect.start, Board.part, Board.only,
            Transport.begin_connect_only moment.now (show seed.info.id = seed.id from rfl),
            Option.map_some]
    | redialing ticker call =>
        have hended : connectOutcome? moment call (Board.part seed.id board).state.transport = _ :=
          connect_outcome_only hsound.2
        simp only [step, hended, Option.map_map]
        rfl
    | redialed ticker outcome => exact congrArg some (settle_part ticker outcome moment.now rfl)
    | ending =>
        simp only [step, Option.map_some]
        rw [Board.part_map_flags (by simp)]
  outside {board supervisor after next} hsound hother hnext := by
    obtain ⟨seed, point⟩ := supervisor
    have hseed : seed.id ≠ id := of_decide_eq_false hother
    cases point with
    | ready =>
        simp only [step] at hnext
        split_ifs at hnext <;> cases hnext <;> rfl
    | waiting ticker =>
        simp only [step] at hnext
        split_ifs at hnext
        · cases hnext
          rfl
        · obtain ⟨fired, -, heq⟩ := Option.map_eq_some_iff.1 hnext
          cases heq
          rfl
    | looked ticker connected =>
        have hlooked := @part_look ⟨seed, .looked ticker connected⟩ board id ticker connected
          moment.now hseed
        rwa [Option.some.inj hnext] at hlooked
    | claimed ticker =>
        simp only [step] at hnext
        split_ifs at hnext <;> cases hnext
        · rfl
        · simp only [Board.part, Board.only, Board.connect, BoundedConnect.start,
            Transport.only_begin_connect moment.now (show seed.info.id ≠ id from hseed)]
    | redialing ticker call =>
        obtain ⟨ended, hended, heq⟩ := Option.map_eq_some_iff.1 hnext
        have htransport := only_connect_outcome (hsound.2.trans_ne hseed) hended
        cases heq
        simp only [Board.part, Board.only, Noted.modify, htransport]
    | redialed ticker outcome =>
        have hsettled := @part_settle ⟨seed, .redialed ticker outcome⟩ board id ticker outcome
          moment.now hseed
        rwa [Option.some.inj hnext] at hsettled
    | ending =>
        cases hnext
        exact Board.part_map_flags_of_ne (by simp [hseed])

end Supervisor

namespace Service

/-- The mechanism of one seed. -/
def only (service : Service) (id : PeerId) : Service :=
  { service with
    seeds := service.seeds.filter (·.id = id)
    flags := service.flags.only id
    dials := service.dials.filter (·.seed.id = id)
    supervisors := service.supervisors.filter (·.seed.id = id) }

variable {service : Service} {seed : Seed} {id : PeerId}

/-- A sweep comes to the seed as if there were no others. -/
theorem sweep_seed_only (hseed : seed.id = id) :
    (service.only id).sweepSeed seed = (service.sweepSeed seed).only id := by
  have hflagged : ((service.only id).flags.connected.contains seed.id ||
      (service.only id).flags.dialing.contains seed.id) =
      (service.flags.connected.contains seed.id || service.flags.dialing.contains seed.id) := by
    simp [only, Flags.only, hseed]
  unfold sweepSeed
  rw [hflagged]
  split_ifs
  · rfl
  · simp [only, hseed, Dial.ofSeed]

/-- A sweep comes to another seed without the seed. -/
theorem only_sweep_seed (hseed : seed.id ≠ id) :
    (service.sweepSeed seed).only id = service.only id := by
  unfold sweepSeed
  split_ifs
  · rfl
  · simp [only, hseed, Dial.ofSeed]

/-- The seed is added as if there were no others. -/
theorem add_seed_only (hseed : seed.id = id) :
    ((service.only id).addSeed seed).2 = ((service.addSeed seed).2).only id := by
  have hlisted : (service.only id).seeds.any (·.id == seed.id) =
      service.seeds.any (·.id == seed.id) := by
    rw [Bool.eq_iff_iff]
    simp [only, hseed]
  unfold addSeed
  rw [hlisted]
  split_ifs
  · rfl
  · simp [only, hseed]

/-- Another seed is added without the seed. -/
theorem only_add_seed (hseed : seed.id ≠ id) :
    ((service.addSeed seed).2).only id = service.only id := by
  unfold addSeed
  split_ifs
  · rfl
  · simp [only, hseed]

end Service

namespace Sweep

/-- What a sweep has to do with a seed, and with no other. -/
def only (sweep : Sweep) (id : PeerId) : Sweep :=
  match sweep with
  | .reading => .reading
  | .looking rest => .looking (rest.filter (·.id = id))

variable {sweep : Sweep} {service : Service} {id : PeerId}

/-- What has to do with the seed comes to no other. -/
theorem next_only (sweep : Sweep) (id : PeerId) : (sweep.only id).next?.all (· = id) = true := by
  cases sweep with
  | reading => rfl
  | looking rest =>
      cases hrest : rest.filter (·.id = id) with
      | nil => simp [only, hrest, next?]
      | cons seed others =>
          have hseed : seed ∈ rest.filter (·.id = id) := by simp [hrest]
          simpa [only, hrest, next?] using (List.mem_filter.1 hseed).2

/-- A sweep comes to what it would come to if there were no others, unless that is one of them. -/
theorem next_only_eq (hnext : sweep.next?.all (· = id) = true) :
    (sweep.only id).next? = sweep.next? := by
  cases sweep with
  | reading => rfl
  | looking rest =>
      cases rest with
      | nil => rfl
      | cons seed rest =>
          have hseed : seed.id = id := by simpa [next?] using hnext
          simp [only, next?, hseed]

/-- A sweep goes on as if there were no others, unless it has come to one of them. -/
theorem step_only (hnext : sweep.next?.all (· = id) = true) :
    (sweep.only id).step (service.only id) =
      (sweep.step service).map fun moved => (moved.1.only id, moved.2.map (·.only id)) := by
  cases sweep with
  | reading => rfl
  | looking rest =>
      cases rest with
      | nil => rfl
      | cons seed rest =>
          have hseed : seed.id = id := by simpa [next?] using hnext
          simp only [only, List.filter_cons, hseed, decide_true, if_true, step,
            Service.sweep_seed_only hseed, Option.map_some]

/-- A sweep that has come to another seed goes on without the seed. -/
theorem only_step {after : Service} {next : Option Sweep} (hnext : sweep.next?.all (· = id) = false)
    (hstep : sweep.step service = some (after, next)) :
    after.only id = service.only id ∧ next.map (·.only id) = some (sweep.only id) := by
  cases sweep with
  | reading => cases hnext
  | looking rest =>
      cases rest with
      | nil => cases hnext
      | cons seed rest =>
          have hseed : seed.id ≠ id := by simpa [next?] using hnext
          cases hstep
          exact ⟨Service.only_sweep_seed hseed, by simp [only, hseed]⟩

end Sweep

end Seed

end PeerFinder
