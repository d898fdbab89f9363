import Mathlib.Tactic.Tauto
import PeerFinder.Proofs.Seed.Dialing
import PeerFinder.Proofs.Seed.Watching

/-!
# Nothing is dialed after a stop

A stop may come while a dial connects, rests or is about to begin, and while a supervisor is at any
of its points; one that waits may even look at its seed once more. `Dial.step_of_stopping` and
`Supervisor.step_of_stopping` say what is left of a step then: none begins a connect, and none lets
a connect come through. What is flagged is released again by the dial or the supervisor that flagged
it, so that nothing is left of the flags of dialing and supervision when all of these have ended.
-/

namespace PeerFinder.Seed

/-- Whether every seed under supervision has one supervisor, and no other seed has any. Other than
`AreWatched`, this holds after a stop too. -/
structure AreSupervised (flags : Flags) (supervisors : List Supervisor) : Prop where
  nodup : (supervisors.map (·.seed.id)).Nodup
  supervised : ∀ id, id ∈ flags.supervised ↔ id ∈ supervisors.map (·.seed.id)

namespace Dial

variable {policy : Policy} {moment : Moment} {dial : Dial} {next : Option Dial}

/-- After a stop, a dial leaves the transport alone; it does not connect, and is not about to flag
its seed as connected unless it was before. -/
theorem step_of_stopping {board after : Noted Board} (hstopping : moment.stopping = true)
    (hstep : dial.step policy moment board = some (after, next)) :
    after.state.transport = board.state.transport ∧
      ∀ left ∈ next, left.seed = dial.seed ∧ left.isConnecting = false ∧ left.point ≠ .ending true := by
  obtain ⟨seed, point⟩ := dial
  cases point with
  | ready attempt backoff =>
      simp only [step, goTo, conclude, afterTry, hstopping, if_true] at hstep
      split_ifs at hstep <;> cases hstep <;> simp [isConnecting, Noted.note]
  | trying attempt backoff call =>
      simp only [step, connectOutcome?, goTo, conclude, afterTry, hstopping, if_true] at hstep
      cases hstep
      simp [isConnecting, Noted.note, Noted.modify]
  | resting attempt backoff resume =>
      simp only [step, goTo] at hstep
      split_ifs at hstep <;> cases hstep <;> simp [isConnecting]
  | ending connected =>
      cases hstep
      simp only [Noted.modify, settle]
      split_ifs <;> simp [Board.mapFlags]

variable {board after : Board}

/-- A dial flags its seed as connected when its connect came through. -/
theorem Moves.connected_cases (hmoves : Moves policy dial board after next) {id : PeerId}
    (hmem : id ∈ after.flags.connected) :
    id ∈ board.flags.connected ∨ dial.seed.id = id ∧ dial.point = .ending true := by
  cases hmoves with
  | went transport point => exact .inl hmem
  | settled connected _ hpoint hafter =>
      subst hafter
      rw [mem_connected_settle] at hmem
      rcases hmem with ⟨rfl, hid⟩ | hmem
      · exact .inr ⟨hid, hpoint⟩
      · exact .inl hmem

/-- A dial puts its seed under supervision together with the one supervisor of it. -/
theorem Moves.are_supervised (hmoves : Moves policy dial board after next)
    {watching : List Supervisor} (h : AreSupervised board.flags (watching ++ board.recruits)) :
    AreSupervised after.flags (watching ++ after.recruits) := by
  cases hmoves with
  | went transport point => exact h
  | settled connected _ hpoint hafter =>
      subst hafter
      by_cases hcalls : connected = true ∧ dial.seed.id ∉ board.flags.supervised
      · have hnew := mt (h.supervised dial.seed.id).2 hcalls.2
        have hids : (watching ++ (board.recruits ++ [Supervisor.ofSeed dial.seed])).map (·.seed.id) =
            (watching ++ board.recruits).map (·.seed.id) ++ [dial.seed.id] := by
          simp [Supervisor.ofSeed]
        rw [recruits_settle, if_pos hcalls]
        refine ⟨?_, fun id => ?_⟩
        · rw [hids, ← List.concat_eq_append]
          exact h.nodup.concat hnew
        · rw [mem_supervised_settle, h.supervised, hids, List.mem_append, List.mem_singleton,
            or_comm, and_iff_right hcalls.1, eq_comm]
      · rw [recruits_settle, if_neg hcalls, List.append_nil]
        refine ⟨h.nodup, fun id => ?_⟩
        rw [mem_supervised_settle, ← h.supervised]
        refine ⟨?_, .inr⟩
        rintro (⟨hconnects, rfl⟩ | hmem)
        · by_contra hunsupervised
          exact hcalls ⟨hconnects, hunsupervised⟩
        · exact hmem

end Dial

namespace Supervisor

/-- Whether a supervisor has looked at its seed and found it connected, and is about to flag it. -/
def HasSeen (supervisor : Supervisor) : Prop :=
  ∃ ticker, supervisor.point = .looked ticker true

/-- Whether a connect of a supervisor has come through, and it is about to flag its seed. -/
def HasReached (supervisor : Supervisor) : Prop :=
  ∃ ticker, supervisor.point = .redialed ticker (.ok ())

section Acts

variable (supervisor : Supervisor) (ticker : Ticker) (connected : Bool) (outcome : Except Error Unit)
  (now : Clock.Instant) (board : Noted Board)

/-- Acting on a look leaves the transport alone, and the supervisor waits or has claimed its seed.
-/
theorem look_result :
    (supervisor.look ticker connected now board).1.state.transport = board.state.transport ∧
      ∀ left ∈ (supervisor.look ticker connected now board).2,
        left.point = .waiting ticker ∨ left.point = .claimed ticker := by
  unfold look
  dsimp only
  split_ifs <;> simp [Noted.modify, Noted.note, Board.mapFlags, goTo]

/-- Acting on the outcome of a reconnect leaves the transport alone, and the supervisor waits. -/
theorem settle_result :
    (supervisor.settle ticker outcome now board).1.state.transport = board.state.transport ∧
      ∀ left ∈ (supervisor.settle ticker outcome now board).2, left.point = .waiting ticker := by
  cases outcome <;> simp [settle, Noted.modify, Noted.note, Board.mapFlags, goTo]

/-- Acting on the outcome of a reconnect flags the seed as connected only if it succeeded. -/
theorem connected_settle {id : PeerId}
    (hmem : id ∈ (supervisor.settle ticker outcome now board).1.state.flags.connected) :
    id ∈ board.state.flags.connected ∨ supervisor.seed.id = id ∧ outcome = .ok () := by
  cases outcome with
  | error error => exact .inl hmem
  | ok =>
      simp only [settle, Noted.modify, Noted.note, Board.mapFlags, Flags.connect, Flags.release,
        Std.ExtTreeSet.mem_insert, Std.LawfulEqCmp.compare_eq_iff_eq] at hmem
      exact hmem.symm.imp_right fun heq => ⟨heq, rfl⟩

end Acts

variable {policy : Policy} {moment : Moment} {supervisor : Supervisor} {next : Option Supervisor}
  {board after : Noted Board}

/-- After a stop, a supervisor leaves the transport alone; it does not connect, and no connect of it
comes through. -/
theorem step_of_stopping (hstopping : moment.stopping = true)
    (hstep : supervisor.step policy moment board = some (after, next)) :
    after.state.transport = board.state.transport ∧
      ∀ left ∈ next, left.point.isConnecting = false ∧ ¬ left.HasReached := by
  obtain ⟨seed, point⟩ := supervisor
  cases point with
  | ready =>
      simp only [step, goTo] at hstep
      split_ifs at hstep <;> cases hstep <;> simp [Point.isConnecting, HasReached]
  | waiting ticker =>
      simp only [step, goTo] at hstep
      split_ifs at hstep
      · cases hstep
        simp [Point.isConnecting, HasReached]
      · obtain ⟨fired, -, heq⟩ := Option.map_eq_some_iff.1 hstep
        cases heq
        simp [Point.isConnecting, HasReached]
  | looked ticker connected =>
      have hresult := look_result ⟨seed, .looked ticker connected⟩ ticker connected moment.now board
      rw [Option.some.inj hstep] at hresult
      refine ⟨hresult.1, fun left hmem => ?_⟩
      rcases hresult.2 left hmem with hpoint | hpoint <;>
        simp [HasReached, Point.isConnecting, hpoint]
  | claimed ticker =>
      simp only [step, goTo, hstopping, if_true] at hstep
      cases hstep
      simp [Point.isConnecting, HasReached]
  | redialing ticker call =>
      simp only [step, connectOutcome?, goTo, hstopping, if_true] at hstep
      cases hstep
      simp [Point.isConnecting, HasReached, Noted.modify]
  | redialed ticker outcome =>
      have hresult := settle_result ⟨seed, .redialed ticker outcome⟩ ticker outcome moment.now board
      rw [Option.some.inj hstep] at hresult
      refine ⟨hresult.1, fun left hmem => ?_⟩
      simp [HasReached, Point.isConnecting, hresult.2 left hmem]
  | ending =>
      cases hstep
      simp [Noted.modify, Board.mapFlags]

/-- A supervisor sees a connection that the transport has. -/
theorem has_seen_of_step (hstep : supervisor.step policy moment board = some (after, next)) :
    ∀ left ∈ next, left.HasSeen → supervisor.seed.id ∈ board.state.transport.connected := by
  obtain ⟨seed, point⟩ := supervisor
  rintro left hmem ⟨seen, hseen⟩
  cases point with
  | ready | claimed ticker =>
      simp only [step, goTo] at hstep
      split_ifs at hstep <;> cases hstep <;> cases hmem
      all_goals cases hseen
  | waiting ticker =>
      simp only [step, goTo] at hstep
      split_ifs at hstep
      · cases hstep
        cases hmem
        cases hseen
      · obtain ⟨fired, -, heq⟩ := Option.map_eq_some_iff.1 hstep
        cases heq
        cases hmem
        exact (Point.looked.inj hseen).2
  | looked ticker connected =>
      have hresult := look_result ⟨seed, .looked ticker connected⟩ ticker connected moment.now board
      rw [Option.some.inj hstep] at hresult
      rcases hresult.2 left hmem with hpoint | hpoint <;> rw [hpoint] at hseen <;> cases hseen
  | redialing ticker call =>
      obtain ⟨_, -, heq⟩ := Option.map_eq_some_iff.1 hstep
      cases heq
      cases hmem
      cases hseen
  | redialed ticker outcome =>
      have hresult := settle_result ⟨seed, .redialed ticker outcome⟩ ticker outcome moment.now board
      rw [Option.some.inj hstep] at hresult
      rw [hresult.2 left hmem] at hseen
      cases hseen
  | ending =>
      cases hstep
      cases hmem

/-- A supervisor flags its seed as connected when it has seen a connection, or when its connect came
through. -/
theorem connected_cases (hstep : supervisor.step policy moment board = some (after, next))
    {id : PeerId} (hmem : id ∈ after.state.flags.connected) :
    id ∈ board.state.flags.connected ∨
      supervisor.seed.id = id ∧ (supervisor.HasSeen ∨ supervisor.HasReached) := by
  have hmoves := step_moves hstep
  generalize hstate : after.state = state at hmoves hmem
  cases hmoves with
  | unfit | went => exact .inl hmem
  | kept ticker hpoint =>
      simp only [Board.mapFlags, Flags.connect, Std.ExtTreeSet.mem_insert,
        Std.LawfulEqCmp.compare_eq_iff_eq] at hmem
      exact hmem.symm.imp_right fun heq => ⟨heq, .inl ⟨ticker, hpoint⟩⟩
  | yielded | claimed =>
      simp only [Board.mapFlags, Flags.lose, Flags.claim, Std.ExtTreeSet.mem_erase] at hmem
      exact .inl hmem.2
  | failed | ended => exact .inl hmem
  | reconnected ticker outcome hpoint =>
      obtain ⟨seed, point⟩ := supervisor
      subst hpoint
      rw [← hstate] at hmem
      have hsettled := @connected_settle ⟨seed, .redialed ticker outcome⟩ ticker outcome moment.now
        board id
      rw [Option.some.inj hstep] at hsettled
      exact (hsettled hmem).imp_right fun h => ⟨h.1, .inr ⟨ticker, congrArg _ h.2⟩⟩

variable {board after : Board}

/-- A supervisor goes on with its seed under supervision, or ends and takes the seed from it. -/
theorem Moves.are_supervised (hmoves : Moves policy moment supervisor board after next)
    {before later : List Supervisor} (hinterval : policy.superviseInterval ≠ 0)
    (h : AreSupervised board.flags (before ++ supervisor :: later)) :
    AreSupervised after.flags (before ++ next.toList ++ later) := by
  have hnodup := h.nodup
  have hsupervised := h.supervised
  cases hmoves with
  | unfit hpoint hzero => exact absurd hzero hinterval
  | went | kept | yielded | claimed | reconnected | failed =>
      refine ⟨by simpa using hnodup, fun id => ?_⟩
      simpa [Board.mapFlags, Flags.connect, Flags.lose, Flags.claim, Flags.release]
        using hsupervised id
  | ended hpoint =>
      rw [List.map_append, List.map_cons, List.nodup_middle, List.nodup_cons] at hnodup
      refine ⟨by simpa using hnodup.2, fun id => ?_⟩
      have hid := hsupervised id
      simp only [Board.mapFlags, Flags.dismiss, Std.ExtTreeSet.mem_erase, Option.toList_none,
        List.append_nil, List.map_append, List.map_cons, List.mem_append, List.mem_cons] at hid hnodup ⊢
      rw [hid]
      by_cases hsame : supervisor.seed.id = id
      · subst hsame
        simpa using hnodup.1
      · simp [hsame, Ne.symm hsame]

end Supervisor

namespace Scene

/-- Whether a connect to a seed has come through, and the seed is about to be flagged for it. -/
def HasReached (scene : Scene) (id : PeerId) : Prop :=
  (∃ dial ∈ scene.service.dials, dial.seed.id = id ∧ dial.point = .ending true) ∨
    ∃ supervisor ∈ scene.service.supervisors, supervisor.seed.id = id ∧ supervisor.HasReached

/-- Whether a supervisor has found a seed connected, and is about to flag it. -/
def HasSeen (scene : Scene) (id : PeerId) : Prop :=
  ∃ supervisor ∈ scene.service.supervisors, supervisor.seed.id = id ∧ supervisor.HasSeen

variable {scene after stopped : Scene} {label : Label} {id : PeerId}

/-- An activity that is there after a step of one of them was there before, or is what is left of
that one. -/
theorem mem_replaced {α : Type} {before later : List α} {activity : α} {next : Option α} {left : α}
    (hmem : left ∈ before ++ next.toList ++ later) :
    left ∈ before ++ activity :: later ∨ left ∈ next := by
  simp only [List.mem_append, Option.mem_toList, List.mem_cons] at hmem ⊢
  tauto

/-- After a stop no step begins a connect, and only the surroundings change the transport. -/
theorem Step.silent (hstep : Step scene label after) (hstopping : scene.stopping = true) :
    (∀ id, after.connecting id ≤ scene.connecting id) ∧
      (after.transport = scene.transport ∨ ∃ now transport journal,
        after = { scene with now := now, transport := transport, journal := journal }) := by
  cases hstep with
  | surroundings now transport journal =>
      exact ⟨fun id => Nat.le_refl _, .inr ⟨now, transport, journal, rfl⟩⟩
  | stop | begin | abandon => exact ⟨fun id => Nat.le_refl _, .inl rfl⟩
  | add seed =>
      refine ⟨fun id => Nat.le_of_eq ?_, .inl rfl⟩
      unfold connecting Service.addSeed
      split_ifs <;> rfl
  | sweep before sweep later service next hsweeps hnext =>
      refine ⟨fun id => Nat.le_of_eq ?_, .inl rfl⟩
      cases Sweep.step_moves hnext with
      | read | finished | passed => rfl
      | dialed => simp [connecting, Dial.connects, Dial.ofSeed, Dial.isConnecting]
  | dial moment before dial later watching recruits board next _ hmoment hdials hsupervisors hnext =>
      obtain ⟨htransport, hleft⟩ := Dial.step_of_stopping (hmoment.trans hstopping) hnext
      refine ⟨fun id => ?_, .inl htransport⟩
      obtain ⟨added, hrecruits, hadded⟩ := (Dial.step_moves hnext).recruits_eq
      have hsum := sum_of_step (Dial.connects id) before dial next later
      have hready : (Supervisor.ofSeed dial.seed).connects id = 0 := by
        simp [Supervisor.connects, Supervisor.ofSeed, Supervisor.Point.isConnecting]
      have hsilent := sum_of_recruits hadded hready
      have hquiet : (next.map (Dial.connects id)).getD 0 = 0 := by
        cases next with
        | none => rfl
        | some left => simp [Dial.connects, (hleft left rfl).2.1]
      simp only [connecting, withWork, hdials, hsupervisors, hrecruits, Scene.board, List.map_append,
        List.map_cons, List.sum_append, List.sum_cons] at hsum ⊢
      omega
  | supervisor moment before supervisor later recruits board next _ hmoment hsupervisors hnext =>
      obtain ⟨htransport, hleft⟩ := Supervisor.step_of_stopping (hmoment.trans hstopping) hnext
      refine ⟨fun id => ?_, .inl htransport⟩
      have hsum := sum_of_step (Supervisor.connects id) before supervisor next later
      have hquiet : (next.map (Supervisor.connects id)).getD 0 = 0 := by
        cases next with
        | none => rfl
        | some left => simp [Supervisor.connects, (hleft left rfl).1]
      simp only [connecting, withWork, hsupervisors] at hsum ⊢
      omega

/-- After a stop no connect comes through. -/
theorem Step.has_reached (hstep : Step scene label after) (hstopping : scene.stopping = true)
    (hreached : after.HasReached id) : scene.HasReached id := by
  cases hstep with
  | surroundings | stop | begin | abandon => exact hreached
  | add seed =>
      unfold Service.addSeed at hreached
      split_ifs at hreached <;> exact hreached
  | sweep before sweep later service next hsweeps hnext =>
      cases Sweep.step_moves hnext with
      | read | finished | passed => exact hreached
      | dialed seed rest hfree =>
          refine hreached.imp_left ?_
          rintro ⟨dial, hmem, hid, hpoint⟩
          rcases List.mem_append.1 hmem with hmem | hmem
          · exact ⟨dial, hmem, hid, hpoint⟩
          · rw [List.mem_singleton.1 hmem] at hpoint
            cases hpoint
  | dial moment before dial later watching recruits board next _ hmoment hdials hsupervisors hnext =>
      obtain ⟨-, hleft⟩ := Dial.step_of_stopping (hmoment.trans hstopping) hnext
      obtain ⟨added, hrecruits, hadded⟩ := (Dial.step_moves hnext).recruits_eq
      rcases hreached with ⟨other, hmem, hid, hpoint⟩ | ⟨other, hmem, hid, hother⟩
      · rcases mem_replaced hmem with hmem | hmem
        · exact .inl ⟨other, hdials ▸ hmem, hid, hpoint⟩
        · exact absurd hpoint (hleft other hmem).2.2
      · simp only [withWork, hrecruits, List.mem_append] at hmem
        rcases hmem with hmem | hmem | hmem
        · exact .inr ⟨other, hsupervisors ▸ List.mem_append_left _ hmem, hid, hother⟩
        · exact .inr ⟨other, hsupervisors ▸ List.mem_append_right _ hmem, hid, hother⟩
        · obtain ⟨ticker, hpoint⟩ := hother
          rw [hadded other hmem] at hpoint
          cases hpoint
  | supervisor moment before supervisor later recruits board next _ hmoment hsupervisors hnext =>
      obtain ⟨-, hleft⟩ := Supervisor.step_of_stopping (hmoment.trans hstopping) hnext
      refine hreached.imp_right ?_
      rintro ⟨other, hmem, hid, hother⟩
      rcases mem_replaced hmem with hmem | hmem
      · exact ⟨other, hsupervisors ▸ hmem, hid, hother⟩
      · exact absurd hother (hleft other hmem).2

/-- A supervisor finds a seed connected only if the transport has a connection to it. -/
theorem Step.has_seen (hstep : Step scene label after) (hseen : after.HasSeen id) :
    scene.HasSeen id ∨ id ∈ scene.transport.connected := by
  cases hstep with
  | surroundings | stop | begin | abandon => exact .inl hseen
  | add seed =>
      unfold Service.addSeed at hseen
      split_ifs at hseen <;> exact .inl hseen
  | sweep before sweep later service next hsweeps hnext =>
      cases Sweep.step_moves hnext <;> exact .inl hseen
  | dial moment before dial later watching recruits board next _ _ hdials hsupervisors hnext =>
      obtain ⟨added, hrecruits, hadded⟩ := (Dial.step_moves hnext).recruits_eq
      obtain ⟨other, hmem, hid, hother⟩ := hseen
      simp only [withWork, hrecruits, List.mem_append] at hmem
      rcases hmem with hmem | hmem | hmem
      · exact .inl ⟨other, hsupervisors ▸ List.mem_append_left _ hmem, hid, hother⟩
      · exact .inl ⟨other, hsupervisors ▸ List.mem_append_right _ hmem, hid, hother⟩
      · obtain ⟨ticker, hpoint⟩ := hother
        rw [hadded other hmem] at hpoint
        cases hpoint
  | supervisor moment before supervisor later recruits board next _ _ hsupervisors hnext =>
      obtain ⟨other, hmem, hid, hother⟩ := hseen
      rcases mem_replaced hmem with hmem | hmem
      · exact .inl ⟨other, hsupervisors ▸ hmem, hid, hother⟩
      · right
        have hsame := (Supervisor.step_moves hnext).ids_eq other.seed.id
          (List.mem_map_of_mem (Option.mem_toList.2 hmem))
        rw [← hid, ← hsame]
        exact Supervisor.has_seen_of_step hnext other hmem hother

/-- A seed is flagged as connected when a connect to it came through or a supervisor found it
connected. -/
theorem Step.connected_cases (hstep : Step scene label after)
    (hmem : id ∈ after.service.flags.connected) :
    id ∈ scene.service.flags.connected ∨ scene.HasReached id ∨ scene.HasSeen id := by
  cases hstep with
  | surroundings | stop | begin | abandon => exact .inl hmem
  | add seed =>
      unfold Service.addSeed at hmem
      split_ifs at hmem <;> exact .inl hmem
  | sweep before sweep later service next hsweeps hnext =>
      cases Sweep.step_moves hnext <;> exact .inl hmem
  | dial moment before dial later watching recruits board next _ _ hdials hsupervisors hnext =>
      refine ((Dial.step_moves hnext).connected_cases hmem).imp_right fun h => .inl (.inl ?_)
      exact ⟨dial, by simp [hdials], h⟩
  | supervisor moment before supervisor later recruits board next _ _ hsupervisors hnext =>
      have hmember : supervisor ∈ scene.service.supervisors := by simp [hsupervisors]
      rcases Supervisor.connected_cases hnext hmem with hmem | ⟨hid, hseen | hreached⟩
      · exact .inl hmem
      · exact .inr (.inr ⟨supervisor, hmember, hid, hseen⟩)
      · exact .inr (.inl (.inr ⟨supervisor, hmember, hid, hreached⟩))

/-- Steps keep every seed under supervision with its one supervisor, also after a stop. -/
theorem Step.are_supervised (hstep : Step scene label after)
    (hinterval : scene.service.policy.superviseInterval ≠ 0)
    (h : AreSupervised scene.service.flags scene.service.supervisors) :
    AreSupervised after.service.flags after.service.supervisors := by
  cases hstep with
  | surroundings | stop | begin | abandon => exact h
  | add seed =>
      unfold Service.addSeed
      split_ifs <;> exact h
  | sweep before sweep later service next hsweeps hnext =>
      cases Sweep.step_moves hnext with
      | read | finished | passed => exact h
      | dialed => exact ⟨h.nodup, h.supervised⟩
  | dial moment before dial later watching recruits board next _ _ hdials hsupervisors hnext =>
      rw [hsupervisors] at h
      exact (Dial.step_moves hnext).are_supervised h
  | supervisor moment before supervisor later recruits board next _ _ hsupervisors hnext =>
      rw [hsupervisors] at h
      exact (Supervisor.step_moves hnext).are_supervised hinterval h

/-- A seed whose connect is in flight is not also about to be flagged for one that came through: it
has one owner. -/
theorem not_has_reached_of_connecting (hbalanced : stopped.IsBalanced)
    (hconnecting : stopped.connecting id ≠ 0) : ¬ stopped.HasReached id := by
  have howners : stopped.owners id ≤ 1 := by
    rw [hbalanced id, Flags.claims]
    split_ifs <;> omega
  suffices hless : stopped.HasReached id → stopped.connecting id < stopped.owners id from
    fun hreached => absurd (hless hreached) (by omega)
  have hdials : ∀ dial ∈ stopped.service.dials, dial.connects id ≤ dial.owned id :=
    fun dial _ => Dial.connects_le id dial
  have hsupervisors : ∀ supervisor ∈ stopped.service.supervisors,
      supervisor.connects id ≤ supervisor.owned id :=
    fun supervisor _ => Supervisor.connects_le id supervisor
  rintro (⟨dial, hmem, hid, hpoint⟩ | ⟨supervisor, hmem, hid, ticker, hpoint⟩)
  · refine Nat.add_lt_add_of_lt_of_le (List.sum_lt_sum _ _ hdials ⟨dial, hmem, ?_⟩)
      (List.sum_le_sum hsupervisors)
    simp [Dial.connects, Dial.owned, Dial.isConnecting, hid, hpoint]
  · refine Nat.add_lt_add_of_le_of_lt (List.sum_le_sum hdials)
      (List.sum_lt_sum _ _ hsupervisors ⟨supervisor, hmem, ?_⟩)
    simp [Supervisor.connects, Supervisor.owned, Supervisor.Point.isConnecting,
      Supervisor.Point.owns, Supervisor.Point.stepsLeft, hid, hpoint]

section Stopped

variable {labels : List Label}

/-- A mechanism that was stopped stays so along every path. -/
theorem Path.stopping (hpath : Path stopped labels scene) (hstopping : stopped.stopping = true) :
    scene.stopping = true := by
  induction hpath with
  | refl => exact hstopping
  | step _ _ _ _ _ hstep ih =>
      by_contra hrunning
      have hbefore := hstep.stopping_of_stopping (Bool.eq_false_iff.2 hrunning)
      rw [ih] at hbefore
      cases hbefore

/-- A path after a stop brings no connect through. -/
theorem Path.has_reached (hpath : Path stopped labels scene) (hstopping : stopped.stopping = true)
    (hreached : scene.HasReached id) : stopped.HasReached id := by
  induction hpath with
  | refl => exact hreached
  | step _ _ _ _ hbefore hstep ih =>
      exact ih (hstep.has_reached (hbefore.stopping hstopping) hreached)

/-- Along every path from a new mechanism the timings stay, and every seed under supervision has its
one supervisor. -/
theorem Path.are_supervised {seeds : List Seed} {policy : Policy} {shutdown : Token}
    {transport : Transport} (hpath : Path (initial seeds policy shutdown transport) labels scene)
    (hinterval : policy.superviseInterval ≠ 0) :
    scene.service.policy = policy ∧
      AreSupervised scene.service.flags scene.service.supervisors := by
  generalize horigin : initial seeds policy shutdown transport = origin at hpath
  induction hpath with
  | refl =>
      subst horigin
      refine ⟨rfl, ?_⟩
      constructor <;> simp [initial, Service.ofSeeds]
  | step _ _ _ _ _ hstep ih =>
      obtain ⟨hpolicy, hsupervised⟩ := ih
      exact ⟨hstep.policy_eq.trans hpolicy, hstep.are_supervised (hpolicy ▸ hinterval) hsupervised⟩

/-- Paths one after the other are a path. -/
theorem Path.append {first second : List Label} {middle : Scene} (hfirst : Path stopped first middle)
    (hsecond : Path middle second scene) : Path stopped (first ++ second) scene := by
  induction hsecond with
  | refl =>
      rw [List.append_nil]
      exact hfirst
  | step _ _ _ _ _ hstep ih =>
      rw [← List.append_assoc]
      exact .step _ _ _ _ _ ih hstep

/-- Whatever a mechanism of seeds with an interval above zero is about when it is stopped, no later
step begins a connect, and only the surroundings change the transport. A seed with a connect in
flight at the stop is not flagged as connected for it: it is flagged only once a supervisor finds it
connected, which the transport then says it is. When no dial and no supervisor is left, no seed is
flagged as being dialed or as being under supervision. -/
theorem nothing_is_dialed_after_stop (seeds : List Seed) (policy : Policy) (shutdown : Token)
    (transport : Transport) (hinterval : policy.superviseInterval ≠ 0) {later : List Label}
    (hpath : Path (initial seeds policy shutdown transport) labels stopped)
    (hstopping : stopped.stopping = true) (hlater : Path stopped later scene) :
    (∀ label after, Step scene label after →
      (∀ id, after.connecting id ≤ scene.connecting id) ∧
      (after.transport = scene.transport ∨ ∃ now transport journal,
        after = { scene with now := now, transport := transport, journal := journal })) ∧
    (∀ id, stopped.connecting id ≠ 0 → ∀ label after, Step scene label after →
      (id ∈ after.service.flags.connected → id ∈ scene.service.flags.connected ∨ scene.HasSeen id) ∧
      (after.HasSeen id → scene.HasSeen id ∨ id ∈ scene.transport.connected)) ∧
    (scene.service.dials = [] → scene.service.supervisors = [] →
      scene.service.flags.dialing = ∅ ∧ scene.service.flags.supervised = ∅) := by
  have hwhole := hpath.append hlater
  refine ⟨fun label after hstep => hstep.silent (hlater.stopping hstopping),
    fun id hconnecting label after hstep => ⟨fun hmem => ?_, hstep.has_seen⟩,
    fun hdials hsupervisors => ?_⟩
  · have hbalanced := hpath.is_balanced (initial_is_balanced seeds policy shutdown transport)
    rcases hstep.connected_cases hmem with hmem | hreached | hseen
    · exact .inl hmem
    · exact absurd (hlater.has_reached hstopping hreached)
        (not_has_reached_of_connecting hbalanced hconnecting)
    · exact .inr hseen
  · have hbalanced := hwhole.is_balanced (initial_is_balanced seeds policy shutdown transport)
    obtain ⟨-, hsupervised⟩ := hwhole.are_supervised hinterval
    constructor
    · apply Std.ExtTreeSet.ext_mem
      intro id
      have hid := hbalanced id
      rw [owners, hdials, hsupervisors, Flags.claims] at hid
      split_ifs at hid with hclaimed
      · simp at hid
      · simp [hclaimed]
    · apply Std.ExtTreeSet.ext_mem
      intro id
      rw [hsupervised.supervised id, hsupervisors]
      simp

/-- The seed of a new mechanism is swept and its connect is in flight when the mechanism is stopped:
the dial ends without it and leaves no flags. -/
theorem nothing_is_dialed_after_stop_connecting :
    ∃ labels stopped later scene, Path fresh labels stopped ∧ stopped.stopping = true ∧
      stopped.connecting lone.id = 1 ∧ Path stopped later scene ∧ scene.service.dials = [] ∧
      scene.service.supervisors = [] ∧ scene.service.flags.dialing = ∅ ∧
      scene.service.flags.supervised = ∅ ∧
      ∀ label after, Step scene label after → ∀ id, after.connecting id ≤ scene.connecting id := by
  have hbegun := Path.step _ _ _ _ _ (Path.refl fresh) (.begin fresh rfl)
  have hread := Path.step _ _ _ _ _ hbegun (.sweep _ [] .reading [] _ _ rfl rfl)
  have hswept := Path.step _ _ _ _ _ hread (.sweep _ [] (.looking [lone]) [] _ _ rfl rfl)
  have hdialed := Path.step _ _ _ _ _ hswept
    (.dial _ { now := 0 } [] (Dial.ofSeed {} lone) [] [] [] _ _ rfl rfl rfl rfl rfl)
  have hstopped : Path (initial [lone] {} [0] { localId := nodeId }) _ _ :=
    Path.step _ _ _ _ _ hdialed (.stop _)
  have hpaused : ∀ {labels scene}, Path fresh labels scene → Path scene [] scene :=
    fun {_ scene} _ => .refl scene
  have hgiven := Path.step _ _ _ _ _ (hpaused hstopped)
    (.dial _ { now := 0, stopping := true } [] ⟨lone, .trying 1 1000 _⟩ [] [] [] _ _ rfl rfl rfl
      rfl rfl)
  have hended := Path.step _ _ _ _ _ hgiven
    (.dial _ { now := 0, stopping := true } [] ⟨lone, .ending false⟩ [] [] [] _ _ rfl rfl rfl rfl rfl)
  obtain ⟨hsilent, -, hflags⟩ :=
    nothing_is_dialed_after_stop [lone] {} [0] { localId := nodeId } (by decide) hstopped rfl hended
  refine ⟨_, _, _, _, hstopped, rfl, rfl, hended, rfl, rfl, (hflags rfl rfl).1, (hflags rfl rfl).2, ?_⟩
  exact fun label after hstep => (hsilent label after hstep).1

end Stopped

end Scene

end PeerFinder.Seed
