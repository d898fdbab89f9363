import PeerFinder.Proofs.Seed.Schedule
import PeerFinder.Proofs.Seed.Settling

/-!
# The tries of a dial

A dial goes on among its surroundings, which change whatever they share with it (`Pursuit.Step`), while
the transport does with its tries what a script says, and time does not run past an instant at which the
dial goes on. This is what each dial of a mechanism sees of its steps (`Pursuit.Path.of_scene_step`).
`Pursuit.Stage` says how far the dial has got, and every step keeps it (`Pursuit.Stage.next`). So a dial
makes its tries when they are due and no others, and ends with the last of them
(`Pursuit.Path.tries_on_schedule`).
-/

namespace PeerFinder.Seed

/-- Whether a transport does with the next step of a dial what the script says. -/
def Script.Rules (script : Script) (dial : Dial) (transport : Transport) : Prop :=
  match dial.point with
  | .ready attempt _ => transport.delay = script.takes (attempt - 1)
  | .trying attempt _ _ =>
      transport.reachable.contains dial.seed.id = script.connects (attempt - 1)
  | .resting .. | .ending _ => True

namespace Dial

variable {policy : Policy} {moment : Moment} {dial : Dial} {board after : Noted Board}
  {next : Option Dial}

/-- The connect of a try that is made now. -/
def tryNow (policy : Policy) (seed : Seed) (now : Clock.Instant) (delay : Clock.Span) :
    BoundedConnect :=
  ⟨⟨seed.info, if delay = 0 then now else Clock.after now delay⟩,
    Clock.after now policy.connectTimeout, connectBound⟩

/-- A dial without tries left ends. -/
theorem step_ready_of_lt {seed : Seed} {attempt : Nat} {backoff : Clock.Span}
    (hspent : policy.attempts < attempt) :
    step policy moment board ⟨seed, .ready attempt backoff⟩ =
      some (board, some ⟨seed, .ending false⟩) :=
  if_pos hspent

/-- A dial with tries left makes the next one, and the transport hears of it. -/
theorem step_ready_of_le {seed : Seed} {attempt : Nat} (backoff : Clock.Span) (board : Noted Board)
    (hleft : attempt ≤ policy.attempts) (hrunning : moment.stopping = false) :
    ∃ transport, step policy moment board ⟨seed, .ready attempt backoff⟩ =
        some (⟨{ board.state with transport := transport }, board.journal⟩,
          some ⟨seed, .trying attempt backoff
            (tryNow policy seed moment.now board.state.transport.delay)⟩) ∧
      transport.attempts = (moment.now, seed.id) :: board.state.transport.attempts := by
  refine ⟨(board.state.transport.beginConnect moment.now seed.info).2, ?_, rfl⟩
  simp only [step, if_neg (Nat.not_lt.2 hleft), hrunning, Bool.false_eq_true, if_false]
  rfl

/-- A try ends with the answer of the transport, or at its bound if that comes first. -/
theorem step_trying {seed : Seed} {attempt : Nat} {backoff : Clock.Span} {call : BoundedConnect}
    (hrunning : moment.stopping = false) (hpeer : call.connect.peer.id = seed.id)
    (hstep : step policy moment board ⟨seed, .trying attempt backoff call⟩ = some (after, next)) :
    ∃ outcome, next = some ⟨seed, afterTry policy moment attempt backoff outcome⟩ ∧
      after.state.transport.attempts = board.state.transport.attempts ∧
      (call.connect.due ≤ moment.now ∧
          (outcome = .ok () ↔ board.state.transport.reachable.contains seed.id = true) ∨
        moment.now < call.connect.due ∧ call.expires ≤ moment.now ∧ outcome ≠ .ok ()) := by
  obtain ⟨⟨outcome, transport⟩, houtcome, heq⟩ := Option.map_eq_some_iff.1 hstep
  cases heq
  refine ⟨outcome, rfl, ?_⟩
  simp only [connectOutcome?, hrunning, Bool.false_eq_true, if_false, BoundedConnect.outcome?]
    at houtcome
  split_ifs at houtcome with hdue hexpires
  · rw [Transport.finishConnect, hpeer] at houtcome
    split_ifs at houtcome with hreachable <;> cases houtcome
    · exact ⟨rfl, .inl ⟨hdue, iff_of_true rfl hreachable⟩⟩
    · exact ⟨rfl, .inl ⟨hdue, iff_of_false (by simp) hreachable⟩⟩
  · cases houtcome
    exact ⟨rfl, .inr ⟨Nat.lt_of_not_le hdue, hexpires, by simp⟩⟩

/-- A dial rests until the next try is due. -/
theorem step_resting {seed : Seed} {attempt : Nat} {backoff : Clock.Span} {resume : Clock.Instant}
    (hrunning : moment.stopping = false)
    (hstep : step policy moment board ⟨seed, .resting attempt backoff resume⟩ = some (after, next)) :
    resume ≤ moment.now ∧ after = board ∧
      next = some ⟨seed, .ready (attempt + 1) (Clock.double backoff)⟩ := by
  simp only [step, Moment.stops, hrunning, Bool.false_and, Bool.false_eq_true, if_false, goTo]
    at hstep
  split_ifs at hstep with hrested
  cases hstep
  exact ⟨of_decide_eq_true hrested, rfl, rfl⟩

/-- A step of a dial adds to the tries that the transport has heard of, if anything. -/
theorem attempts_of_step (hstep : dial.step policy moment board = some (after, next)) :
    ∃ made, after.state.transport.attempts = made ++ board.state.transport.attempts := by
  obtain ⟨seed, point⟩ := dial
  cases point with
  | ready attempt backoff =>
      simp only [step, conclude] at hstep
      split_ifs at hstep <;> cases hstep
      · exact ⟨[], rfl⟩
      · exact ⟨[], rfl⟩
      · exact ⟨[(moment.now, seed.id)], rfl⟩
  | trying attempt backoff call =>
      obtain ⟨⟨outcome, transport⟩, houtcome, heq⟩ := Option.map_eq_some_iff.1 hstep
      cases heq
      refine ⟨[], ?_⟩
      simp only [connectOutcome?, BoundedConnect.outcome?, Transport.finishConnect] at houtcome
      split_ifs at houtcome <;> cases houtcome <;> rfl
  | resting attempt backoff resume =>
      simp only [step] at hstep
      split_ifs at hstep <;> cases hstep <;> exact ⟨[], rfl⟩
  | ending connected =>
      cases hstep
      refine ⟨[], ?_⟩
      simp only [Noted.modify, settle]
      split_ifs <;> rfl

end Dial

/-- A dial, if it has not ended, with what it shares with others. -/
structure Pursuit where
  now : Clock.Instant
  board : Noted Board
  dial : Option Dial

namespace Pursuit

variable {policy : Policy} {script : Script} {seed : Seed}

/-- What can happen, with the tries that are made. -/
inductive Step (policy : Policy) (script : Script) :
    Pursuit → List (Clock.Instant × PeerId) → Pursuit → Prop where
  /-- Something else happens to what the dial shares with others. -/
  | around (pursuit : Pursuit) (board : Noted Board) :
      Step policy script pursuit [] { pursuit with board := board }
  /-- The dial, which is not stopped, takes its next step, and the transport does what the script says.
  The tries are those that the transport hears of. -/
  | go (pursuit : Pursuit) (moment : Moment) (dial : Dial) (board : Noted Board) (next : Option Dial)
      (made : List (Clock.Instant × PeerId)) (hnow : moment.now = pursuit.now)
      (hrunning : moment.stopping = false) (hdial : pursuit.dial = some dial)
      (hscript : script.Rules dial pursuit.board.state.transport)
      (hstep : dial.step policy moment pursuit.board = some (board, next))
      (hmade : board.state.transport.attempts = made ++ pursuit.board.state.transport.attempts) :
      Step policy script pursuit made { pursuit with board := board, dial := next }
  /-- Time passes while the dial waits, up to when it goes on. -/
  | pass (pursuit : Pursuit) (later : Clock.Instant) (hlater : pursuit.now ≤ later)
      (hwaits : ∀ dial ∈ pursuit.dial,
        ∃ wake, dial.wake = some wake ∧ pursuit.now < wake ∧ later ≤ wake) :
      Step policy script pursuit [] { pursuit with now := later }

/-- What happens one after another, with the tries that are made. -/
inductive Path (policy : Policy) (script : Script) (start : Pursuit) :
    List (Clock.Instant × PeerId) → Pursuit → Prop where
  | refl : Path policy script start [] start
  | step (tries : List (Clock.Instant × PeerId)) (middle : Pursuit)
      (made : List (Clock.Instant × PeerId)) (after : Pursuit)
      (hpath : Path policy script start tries middle) (hstep : Step policy script middle made after) :
      Path policy script start (tries ++ made) after

/-- What a scene shows of one of its dials. -/
def ofScene (scene : Scene) (dial : Option Dial) : Pursuit :=
  ⟨scene.now, scene.board [], dial⟩

/-- At one instant, scenes may show different boards. -/
theorem of_scene_eq {scene after : Scene} (hnow : after.now = scene.now) (dial next : Option Dial) :
    ofScene after next = { ofScene scene dial with board := after.board [], dial := next } := by
  simp only [ofScene, hnow]

namespace Path

variable {scene after : Scene} {dial : Dial}

/-- What is not about a dial happens around it. -/
theorem of_around (dial : Option Dial) (hnow : after.now = scene.now) :
    Path policy script (ofScene scene dial) [] (ofScene after dial) := by
  rw [of_scene_eq hnow dial dial]
  exact .step [] _ [] _ .refl (.around _ _)

/-- A dial among others takes its step among what happens around it. -/
theorem of_dial_step {moment : Moment} {next : Option Dial} {recruits : List Supervisor}
    {board : Noted Board} (hnow : moment.now = scene.now) (hrunning : moment.stopping = false)
    (hscript : script.Rules dial scene.transport)
    (hstep : dial.step policy moment (scene.board recruits) = some (board, next)) :
    ∃ made, ∀ after : Scene, after.now = scene.now →
      Path policy script (ofScene scene (some dial)) made (ofScene after next) := by
  obtain ⟨made, hmade⟩ := Dial.attempts_of_step hstep
  let ready := { ofScene scene (some dial) with board := scene.board recruits }
  have hready : Path policy script (ofScene scene (some dial)) [] ready :=
    .step [] _ [] _ .refl (.around _ _)
  have hgone : Path policy script (ofScene scene (some dial)) made
      { ready with board := board, dial := next } :=
    .step [] ready made _ hready (.go _ moment dial board next made hnow hrunning rfl hscript hstep hmade)
  refine ⟨made, fun after hafter => ?_⟩
  rw [of_scene_eq hafter (some dial), ← List.append_nil made]
  exact .step made _ [] _ hgone (.around _ _)

/-- A step of the mechanism is for each of its dials a step of its own or something around it, as long
as the mechanism is not stopped. -/
theorem of_scene_step {label : Scene.Label} {front back : List Dial}
    (hstep : Scene.Step scene label after) (hrunning : scene.stopping = false)
    (hdials : scene.service.dials = front ++ dial :: back)
    (htime : after.now = scene.now ∨ scene.now ≤ after.now ∧
      ∃ wake, dial.wake = some wake ∧ scene.now < wake ∧ after.now ≤ wake)
    (hscript : script.Rules dial scene.transport) :
    ∃ before next later made, after.service.dials = before ++ next.toList ++ later ∧
      Path scene.service.policy script (ofScene scene (some dial)) made (ofScene after next) := by
  have hsame (hkept : after.service.dials = scene.service.dials) (hnow : after.now = scene.now) :
      ∃ before next later made, after.service.dials = before ++ next.toList ++ later ∧
        Path scene.service.policy script (ofScene scene (some dial)) made (ofScene after next) :=
    ⟨front, some dial, back, [], by simp [hkept, hdials], of_around _ hnow⟩
  cases hstep with
  | surroundings now transport journal =>
      refine ⟨front, some dial, back, [], by simp [hdials], ?_⟩
      rcases htime with hnow | ⟨hlater, hwakes⟩
      · exact of_around _ hnow
      · have hpass : Step scene.service.policy script (ofScene scene (some dial)) []
            { ofScene scene (some dial) with now := now } := by
          refine .pass _ now hlater ?_
          rintro _ ⟨⟩
          exact hwakes
        exact .step [] _ [] _ (.step [] _ [] _ .refl hpass) (.around _ _)
  | stop | begin | abandon | supervisor => exact hsame rfl rfl
  | add seed =>
      refine hsame ?_ rfl
      simp only [Service.addSeed]
      split_ifs <;> rfl
  | sweep earlier sweep others service next hsweeps hgoes =>
      cases Sweep.step_moves hgoes with
      | read | finished | passed => exact hsame rfl rfl
      | dialed seed rest hfree =>
          exact ⟨front, some dial, back ++ [Dial.ofSeed scene.service.policy seed], [],
            by simp [hdials], of_around _ rfl⟩
  | dial moment earlier moving others watching recruits board next hnow hstopping hmoving
      hsupervisors hgoes =>
      rw [hdials] at hmoving
      rw [← hstopping] at hrunning
      -- The dial that goes on is this one, or it stands behind it or before it.
      rcases List.append_eq_append_iff.1 hmoving with ⟨part, rfl, hrest⟩ | ⟨part, rfl, hrest⟩ <;>
        rcases part with _ | ⟨first, part⟩ <;> cases hrest
      · obtain ⟨made, hpath⟩ := of_dial_step hnow hrunning hscript hgoes
        exact ⟨front, next, back, made, by simp [Scene.withWork], hpath _ rfl⟩
      · exact ⟨front, some dial, part ++ next.toList ++ others, [], by simp [Scene.withWork],
          of_around _ rfl⟩
      · obtain ⟨made, hpath⟩ := of_dial_step hnow hrunning hscript hgoes
        exact ⟨earlier, next, back, made, by simp [Scene.withWork], hpath _ rfl⟩
      · exact ⟨earlier ++ next.toList ++ part, some dial, back, [], by simp [Scene.withWork],
          of_around _ rfl⟩

end Path

/-- How far a dial of a seed has got that began at an instant, with the tries so far. -/
inductive Stage (policy : Policy) (script : Script) (seed : Seed) (begun : Clock.Instant)
    (tries : List (Clock.Instant × PeerId)) (pursuit : Pursuit) : Prop where
  /-- So many tries have failed, and the next one is due now if there are more. -/
  | ready (index : Nat)
      (hdial : pursuit.dial = some ⟨seed, .ready (index + 1) (policy.backoff index)⟩)
      (hnow : pursuit.now = script.tryTime policy begun index)
      (htries : tries = script.tries policy begun seed.id index)
      (hleft : index < policy.attempts ∨ index = 0)
      (hfailed : ∀ earlier < index, ¬ script.Succeeds policy begun earlier)
  /-- A try is under way. -/
  | trying (index : Nat)
      (hdial : pursuit.dial = some ⟨seed, .trying (index + 1) (policy.backoff index)
        (Dial.tryNow policy seed (script.tryTime policy begun index) (script.takes index))⟩)
      (hpast : script.tryTime policy begun index ≤ pursuit.now)
      (hahead : pursuit.now ≤ script.endTime policy begun index)
      (htries : tries = script.tries policy begun seed.id (index + 1))
      (hleft : index < policy.attempts)
      (hfailed : ∀ earlier < index, ¬ script.Succeeds policy begun earlier)
  /-- A try has failed, and there are more. -/
  | resting (index : Nat)
      (hdial : pursuit.dial = some ⟨seed, .resting (index + 1) (policy.backoff index)
        (script.tryTime policy begun (index + 1))⟩)
      (hpast : script.endTime policy begun index ≤ pursuit.now)
      (hahead : pursuit.now ≤ script.tryTime policy begun (index + 1))
      (htries : tries = script.tries policy begun seed.id (index + 1))
      (hleft : index + 1 < policy.attempts)
      (hfailed : ∀ earlier < index + 1, ¬ script.Succeeds policy begun earlier)
  /-- All tries were made, and the flags are still to be settled. -/
  | ending (count : Nat) (connected : Bool) (hdial : pursuit.dial = some ⟨seed, .ending connected⟩)
      (hnow : pursuit.now = script.finish policy begun count)
      (htries : tries = script.tries policy begun seed.id count)
      (hmakes : script.Makes policy begun count)
      (hconnected : connected = true ↔ ∃ index < count, script.Succeeds policy begun index)
  /-- The dial has ended. -/
  | ended (count : Nat) (hdial : pursuit.dial = none)
      (hpast : script.finish policy begun count ≤ pursuit.now)
      (htries : tries = script.tries policy begun seed.id count)
      (hmakes : script.Makes policy begun count)

/-- Whether a dial of a seed is about to begin. -/
def IsBegun (pursuit : Pursuit) (policy : Policy) (seed : Seed) : Prop :=
  pursuit.dial = some (Dial.ofSeed policy seed)

namespace Stage

variable {begun : Clock.Instant} {tries : List (Clock.Instant × PeerId)} {pursuit after : Pursuit}

/-- What a dial shares with others does not say how far it has got. -/
theorem with_board (h : Stage policy script seed begun tries pursuit) (board : Noted Board) :
    Stage policy script seed begun tries { pursuit with board := board } := by
  cases h with
  | ready index hdial hnow htries hleft hfailed =>
      exact .ready index hdial hnow htries hleft hfailed
  | trying index hdial hpast hahead htries hleft hfailed =>
      exact .trying index hdial hpast hahead htries hleft hfailed
  | resting index hdial hpast hahead htries hleft hfailed =>
      exact .resting index hdial hpast hahead htries hleft hfailed
  | ending count connected hdial hnow htries hmakes hconnected =>
      exact .ending count connected hdial hnow htries hmakes hconnected
  | ended count hdial hpast htries hmakes => exact .ended count hdial hpast htries hmakes

/-- Time that passes while the dial waits keeps its stage. -/
theorem pass (h : Stage policy script seed begun tries pursuit) {later : Clock.Instant}
    (hlater : pursuit.now ≤ later)
    (hwaits : ∀ dial ∈ pursuit.dial,
      ∃ wake, dial.wake = some wake ∧ pursuit.now < wake ∧ later ≤ wake) :
    Stage policy script seed begun tries { pursuit with now := later } := by
  cases h with
  | ready index hdial =>
      obtain ⟨wake, hwake, -⟩ := hwaits _ hdial
      cases hwake
  | trying index hdial hpast hahead htries hleft hfailed =>
      obtain ⟨wake, hwake, -, hle⟩ := hwaits _ hdial
      cases hwake
      exact .trying index hdial (hpast.trans hlater) hle htries hleft hfailed
  | resting index hdial hpast hahead htries hleft hfailed =>
      obtain ⟨wake, hwake, -, hle⟩ := hwaits _ hdial
      cases hwake
      exact .resting index hdial (hpast.trans hlater) hle htries hleft hfailed
  | ending count connected hdial =>
      obtain ⟨wake, hwake, -⟩ := hwaits _ hdial
      cases hwake
  | ended count hdial hpast htries hmakes =>
      exact .ended count hdial (hpast.trans hlater) htries hmakes

section Steps

variable {moment : Moment} {board : Noted Board} {next : Option Dial}
  {made : List (Clock.Instant × PeerId)} {index : Nat}

/-- A dial that is ready makes its next try, or ends if it has none. -/
theorem go_ready (hnow : pursuit.now = script.tryTime policy begun index)
    (htries : tries = script.tries policy begun seed.id index)
    (hleft : index < policy.attempts ∨ index = 0)
    (hfailed : ∀ earlier < index, ¬ script.Succeeds policy begun earlier)
    (hmoment : moment.now = pursuit.now) (hrunning : moment.stopping = false)
    (hscript : pursuit.board.state.transport.delay = script.takes index)
    (hstep : Dial.step policy moment pursuit.board
      ⟨seed, .ready (index + 1) (policy.backoff index)⟩ = some (board, next))
    (hmade : board.state.transport.attempts = made ++ pursuit.board.state.transport.attempts) :
    Stage policy script seed begun (tries ++ made) { pursuit with board := board, dial := next } := by
  rcases Nat.lt_or_ge index policy.attempts with hlt | hspent
  · obtain ⟨transport, htry, hattempts⟩ :=
      Dial.step_ready_of_le (policy.backoff index) pursuit.board hlt hrunning
    cases htry.symm.trans hstep
    have hlast : made = [(script.tryTime policy begun index, seed.id)] := by
      rw [hattempts, hmoment, hnow] at hmade
      exact (List.append_cancel_right hmade).symm
    refine .trying index ?_ hnow.ge ?_ ?_ hlt hfailed
    · rw [hmoment, hnow, hscript]
    · exact hnow.le.trans (script.try_time_le_end_time policy begun index)
    · rw [htries, hlast, Script.tries_succ]
  · obtain rfl := hleft.resolve_left (Nat.not_lt.2 hspent)
    rw [Dial.step_ready_of_lt (Nat.lt_succ_of_le hspent)] at hstep
    cases hstep
    obtain rfl := List.self_eq_append_left.1 hmade
    exact .ending 0 false rfl hnow ((List.append_nil _).trans htries)
      (.of_failed (Nat.le_zero.1 hspent).symm hfailed) (by simp)

/-- A try that has ended is the last one if it succeeded or there are no more, and otherwise the dial
rests. -/
theorem go_trying (hahead : pursuit.now ≤ script.endTime policy begun index)
    (htries : tries = script.tries policy begun seed.id (index + 1))
    (hleft : index < policy.attempts)
    (hfailed : ∀ earlier < index, ¬ script.Succeeds policy begun earlier)
    (hmoment : moment.now = pursuit.now) (hrunning : moment.stopping = false)
    (hscript : pursuit.board.state.transport.reachable.contains seed.id = script.connects index)
    (hstep : Dial.step policy moment pursuit.board ⟨seed, .trying (index + 1) (policy.backoff index)
      (Dial.tryNow policy seed (script.tryTime policy begun index) (script.takes index))⟩ =
        some (board, next))
    (hmade : board.state.transport.attempts = made ++ pursuit.board.state.transport.attempts) :
    Stage policy script seed begun (tries ++ made) { pursuit with board := board, dial := next } := by
  obtain ⟨outcome, rfl, hattempts, houtcome⟩ := Dial.step_trying hrunning rfl hstep
  obtain rfl : made = [] := List.self_eq_append_left.1 (hattempts.symm.trans hmade)
  rw [List.append_nil]
  -- Time did not run past the end of the try, which is therefore now.
  have hends : pursuit.now = script.endTime policy begun index := by
    refine le_antisymm hahead ?_
    rw [← hmoment]
    rcases houtcome with ⟨hanswered, -⟩ | ⟨-, hexpired, -⟩
    · exact (min_le_left _ _).trans hanswered
    · exact (min_le_right _ _).trans hexpired
  have hsucceeds : outcome = .ok () ↔ script.Succeeds policy begun index := by
    rcases houtcome with ⟨hanswered, hreached⟩ | ⟨hlate, hexpired, hrefused⟩
    · rw [hreached, hscript]
      refine ⟨fun h => ⟨?_, h⟩, fun h => h.2⟩
      exact hanswered.trans ((hmoment.trans hends).le.trans (min_le_right _ _))
    · refine iff_of_false hrefused fun h => ?_
      exact absurd (h.1.trans hexpired) (Nat.not_le.2 hlate)
  cases outcome with
  | ok =>
      have hsucceeded := hsucceeds.1 rfl
      exact .ending (index + 1) true rfl hends htries (.of_succeeds hleft hfailed hsucceeded)
        (iff_of_true rfl ⟨index, Nat.lt_succ_self index, hsucceeded⟩)
  | error error =>
      have hfailure : ¬ script.Succeeds policy begun index := by
        intro h
        cases hsucceeds.2 h
      have hnone : ∀ earlier < index + 1, ¬ script.Succeeds policy begun earlier :=
        Nat.forall_lt_succ_right.2 ⟨hfailed, hfailure⟩
      simp only [Dial.afterTry, hrunning, Bool.false_eq_true, if_false]
      split_ifs with hmore
      · refine .resting index ?_ hends.ge ?_ htries hmore hnone
        · rw [hmoment, hends]
          rfl
        · exact hends.le.trans (script.end_time_le_try_time policy begun index)
      · have hspent : index + 1 = policy.attempts := le_antisymm hleft (Nat.not_lt.1 hmore)
        refine .ending (index + 1) false rfl hends htries (.of_failed hspent hnone)
          (iff_of_false Bool.false_ne_true ?_)
        rintro ⟨earlier, hlt, h⟩
        exact hnone earlier hlt h

/-- Every step of the dial keeps its stage. -/
theorem go (h : Stage policy script seed begun tries pursuit) {dial : Dial}
    (hmoment : moment.now = pursuit.now) (hrunning : moment.stopping = false)
    (hdial : pursuit.dial = some dial) (hscript : script.Rules dial pursuit.board.state.transport)
    (hstep : dial.step policy moment pursuit.board = some (board, next))
    (hmade : board.state.transport.attempts = made ++ pursuit.board.state.transport.attempts) :
    Stage policy script seed begun (tries ++ made) { pursuit with board := board, dial := next } := by
  cases h with
  | ready index hready hnow htries hleft hfailed =>
      cases hready.symm.trans hdial
      exact go_ready hnow htries hleft hfailed hmoment hrunning hscript hstep hmade
  | trying index htrying hpast hahead htries hleft hfailed =>
      cases htrying.symm.trans hdial
      exact go_trying hahead htries hleft hfailed hmoment hrunning hscript hstep hmade
  | resting index hresting hpast hahead htries hleft hfailed =>
      cases hresting.symm.trans hdial
      obtain ⟨hrested, rfl, rfl⟩ := Dial.step_resting hrunning hstep
      obtain rfl := List.self_eq_append_left.1 hmade
      rw [List.append_nil, ← Policy.backoff_succ]
      exact .ready (index + 1) rfl (le_antisymm hahead (hmoment ▸ hrested)) htries (.inl hleft)
        hfailed
  | ending count connected hending hnow htries hmakes hconnected =>
      cases hending.symm.trans hdial
      cases hstep
      have hattempts : (Dial.settle seed connected pursuit.board.state).transport =
          pursuit.board.state.transport := by
        simp only [Dial.settle]
        split_ifs <;> rfl
      have hnone : made = [] := by
        refine List.self_eq_append_left.1 (Eq.trans ?_ hmade)
        exact congrArg Transport.attempts hattempts.symm
      rw [hnone, List.append_nil]
      exact .ended count rfl hnow.ge htries hmakes
  | ended count hnone =>
      rw [hnone] at hdial
      cases hdial

end Steps

/-- Every step keeps the stage of the dial. -/
theorem next (h : Stage policy script seed begun tries pursuit)
    {made : List (Clock.Instant × PeerId)} (hstep : Step policy script pursuit made after) :
    Stage policy script seed begun (tries ++ made) after := by
  cases hstep with
  | around board =>
      rw [List.append_nil]
      exact h.with_board board
  | go moment dial board next _ hnow hrunning hdial hscript hgoes hmade =>
      exact h.go hnow hrunning hdial hscript hgoes hmade
  | pass later hlater hwaits =>
      rw [List.append_nil]
      exact h.pass hlater hwaits

/-- The tries so far are the first ones, those that were due, and all of them if the dial has ended. -/
theorem tries_eq (h : Stage policy script seed begun tries pursuit) {total : Nat}
    (htotal : script.Makes policy begun total) :
    ∃ count ≤ total, tries = script.tries policy begun seed.id count ∧
      (∀ index < count, script.tryTime policy begun index ≤ pursuit.now) ∧
      (∀ index < total, script.tryTime policy begun index < pursuit.now → index < count) ∧
      (pursuit.dial = none → count = total ∧ script.finish policy begun total ≤ pursuit.now) := by
  have hmono := script.try_time_mono policy begun
  cases h with
  | ready index hdial hnow htries hleft hfailed =>
      have hle : index ≤ total := by
        rcases hleft with hlt | rfl
        · exact (htotal.lt_of_failed hlt hfailed).le
        · exact Nat.zero_le total
      refine ⟨index, hle, htries, fun earlier hearlier => ?_, fun other _ hdue => ?_, fun hnone => ?_⟩
      · exact (hmono hearlier.le).trans hnow.ge
      · exact hmono.reflect_lt (hdue.trans_eq hnow)
      · rw [hdial] at hnone
        cases hnone
  | trying index hdial hpast hahead htries hleft hfailed =>
      refine ⟨index + 1, htotal.lt_of_failed hleft hfailed, htries, fun earlier hearlier => ?_,
        fun other _ hdue => ?_, fun hnone => ?_⟩
      · exact (hmono (Nat.le_of_lt_succ hearlier)).trans hpast
      · exact hmono.reflect_lt
          (hdue.trans_le (hahead.trans (script.end_time_le_try_time policy begun index)))
      · rw [hdial] at hnone
        cases hnone
  | resting index hdial hpast hahead htries hleft hfailed =>
      refine ⟨index + 1, (htotal.lt_of_failed hleft hfailed).le, htries, fun earlier hearlier => ?_,
        fun other _ hdue => ?_, fun hnone => ?_⟩
      · exact (hmono (Nat.le_of_lt_succ hearlier)).trans
          ((script.try_time_le_end_time policy begun index).trans hpast)
      · exact hmono.reflect_lt (hdue.trans_le hahead)
      · rw [hdial] at hnone
        cases hnone
  | ending count connected hdial hnow htries hmakes =>
      obtain rfl := hmakes.unique htotal
      refine ⟨count, le_rfl, htries, fun earlier hearlier => ?_, fun other hother _ => hother,
        fun hnone => ?_⟩
      · exact (script.try_time_le_finish policy begun hearlier).trans hnow.ge
      · rw [hdial] at hnone
        cases hnone
  | ended count hdial hpast htries hmakes =>
      obtain rfl := hmakes.unique htotal
      exact ⟨count, le_rfl, htries,
        fun earlier hearlier => (script.try_time_le_finish policy begun hearlier).trans hpast,
        fun other hother _ => hother, fun _ => ⟨rfl, hpast⟩⟩

/-- A dial has not ended before the end of its last try, and is not there any more after it. -/
theorem now_le_finish (h : Stage policy script seed begun tries pursuit) {total : Nat}
    (htotal : script.Makes policy begun total) (hdial : pursuit.dial ≠ none) :
    pursuit.now ≤ script.finish policy begun total := by
  cases h with
  | ready index _ hnow _ hleft hfailed =>
      rcases hleft with hlt | rfl
      · exact hnow.le.trans
          (script.try_time_le_finish policy begun (htotal.lt_of_failed hlt hfailed))
      · exact hnow.le.trans (script.begun_le_finish policy begun total)
  | trying index _ _ hahead _ hleft hfailed =>
      exact hahead.trans (script.end_time_le_finish policy begun (htotal.lt_of_failed hleft hfailed))
  | resting index _ _ hahead _ hleft hfailed =>
      exact hahead.trans (script.try_time_le_finish policy begun (htotal.lt_of_failed hleft hfailed))
  | ending count connected _ hnow _ hmakes =>
      obtain rfl := hmakes.unique htotal
      exact hnow.le
  | ended count hnone => exact absurd hnone hdial

/-- The step by which a dial ends comes with the end of its last try. It releases the seed, and flags it
as connected exactly if a try succeeded. -/
theorem of_end (h : Stage policy script seed begun tries pursuit)
    {made : List (Clock.Instant × PeerId)} (hstep : Step policy script pursuit made after)
    (hdial : pursuit.dial ≠ none) (hended : after.dial = none) {total : Nat}
    (htotal : script.Makes policy begun total) :
    after.now = script.finish policy begun total ∧
      seed.id ∉ after.board.state.flags.dialing ∧
      ∀ id, id ∈ after.board.state.flags.connected ↔
        id ∈ pursuit.board.state.flags.connected ∨
          id = seed.id ∧ ∃ index < total, script.Succeeds policy begun index := by
  cases hstep with
  | around => exact absurd hended hdial
  | pass => exact absurd hended hdial
  | go moment dial board next _ hnow hrunning hsome hscript hgoes hmade =>
      cases hended
      have hmoves := Dial.step_moves hgoes
      generalize hstate : board.state = state at hmoves
      cases hmoves with
      | settled connected _ hpoint hafter =>
          cases h with
          | ready _ hother | trying _ hother | resting _ hother =>
              cases hother.symm.trans hsome
              cases hpoint
          | ended _ hnone => cases hnone.symm.trans hsome
          | ending count flag hending hfinish htries hmakes hconnected =>
              cases hending.symm.trans hsome
              cases hpoint
              obtain rfl := hmakes.unique htotal
              refine ⟨hfinish, ?_, fun id => ?_⟩
              · rw [hafter]
                simp
              · rw [hafter, Dial.mem_connected_settle, hconnected, or_comm, and_comm, eq_comm]

end Stage

section Progress

variable (script)

/-- A dial that waits goes on once the time has passed. -/
theorem exists_awake (pursuit : Pursuit) : ∃ awake, Path policy script pursuit [] awake ∧
    awake.dial = pursuit.dial ∧
    ∀ dial ∈ awake.dial, ∀ wake, dial.wake = some wake → wake ≤ awake.now := by
  by_cases hwaits : ∃ dial ∈ pursuit.dial, ∃ wake, dial.wake = some wake ∧ pursuit.now < wake
  · obtain ⟨dial, hdial, wake, hwake, hlater⟩ := hwaits
    have hunique : ∀ other ∈ pursuit.dial, other = dial := fun other hother =>
      Option.mem_unique hother hdial
    refine ⟨{ pursuit with now := wake }, .step [] pursuit [] _ .refl (.pass pursuit wake hlater.le
      fun other hother => ⟨wake, ?_, hlater, le_rfl⟩), rfl, fun other hother due hdue => ?_⟩
    · rw [hunique other hother, hwake]
    · rw [hunique other hother, hwake, Option.some.injEq] at hdue
      exact hdue.ge
  · refine ⟨pursuit, .refl, rfl, fun dial hdial wake hwake => ?_⟩
    by_contra hlater
    exact hwaits ⟨dial, hdial, wake, hwake, Nat.lt_of_not_le hlater⟩

/-- The transport may do what the script says. -/
theorem exists_rules (board : Noted Board) (dial : Dial) :
    ∃ ruled : Noted Board, script.Rules dial ruled.state.transport := by
  obtain ⟨seed, point⟩ := dial
  cases point with
  | ready attempt backoff =>
      exact ⟨board.modify fun board =>
        { board with transport := { board.transport with delay := script.takes (attempt - 1) } }, rfl⟩
  | trying attempt backoff call =>
      refine ⟨board.modify fun board => { board with
        transport := board.transport.setReachable seed.id (script.connects (attempt - 1)) }, ?_⟩
      simp only [Script.Rules, Noted.modify, Transport.setReachable]
      cases script.connects (attempt - 1) <;> simp
  | resting | ending => exact ⟨board, trivial⟩

/-- A dial can go on. -/
theorem exists_go {pursuit : Pursuit} {dial : Dial} (hdial : pursuit.dial = some dial) :
    ∃ made after, Path policy script pursuit made after ∧
      ∀ left ∈ after.dial, left.stepsLeft policy < dial.stepsLeft policy := by
  obtain ⟨awake, hawake, hsame, hdue⟩ := exists_awake script pursuit
  obtain ⟨board, hrules⟩ := exists_rules script awake.board dial
  let ready := { awake with board := board }
  have hready : Path policy script pursuit [] ready := .step [] awake [] _ hawake (.around awake board)
  rw [hsame, hdial] at hdue
  cases hstep : dial.step policy ⟨awake.now, 0, false, true⟩ board with
  | none =>
      obtain ⟨-, wake, hwake, hlater⟩ := Dial.step_eq_none_iff.1 hstep
      exact absurd (hdue dial rfl wake hwake) (Nat.not_le.2 hlater)
  | some result =>
      obtain ⟨noted, next⟩ := result
      obtain ⟨made, hmade⟩ := Dial.attempts_of_step hstep
      refine ⟨made, { ready with board := noted, dial := next }, ?_, fun left hleft => ?_⟩
      · exact .step [] ready made _ hready (.go ready ⟨awake.now, 0, false, true⟩ dial noted next made
          rfl rfl (hsame.trans hdial) hrules hstep hmade)
      · cases hleft
        have hmoves := Dial.step_moves hstep
        generalize noted.state = state at hmoves
        cases hmoves with
        | went _ _ hlower => exact hlower

end Progress

namespace Path

variable {start middle after : Pursuit} {tries more : List (Clock.Instant × PeerId)}

/-- What happens goes on. -/
theorem trans (hpath : Path policy script start tries middle)
    (hmore : Path policy script middle more after) :
    Path policy script start (tries ++ more) after := by
  induction hmore with
  | refl => rwa [List.append_nil]
  | step more between made after _ hstep ih =>
      rw [← List.append_assoc]
      exact .step _ between made after ih hstep

/-- A dial that begins is at the first of its stages, and has got to another after every step. -/
theorem stage (hpath : Path policy script start tries after) (hbegun : start.IsBegun policy seed) :
    Stage policy script seed start.now tries after := by
  induction hpath with
  | refl =>
      exact .ready 0 hbegun rfl rfl (.inr rfl) fun earlier h => absurd h (Nat.not_lt_zero earlier)
  | step _ _ _ _ _ hstep ih => exact ih.next hstep

/-- A dial can come to its end. -/
theorem exists_end (policy : Policy) (script : Script) (start : Pursuit) :
    ∃ more ended, Path policy script start more ended ∧ ended.dial = none := by
  cases hdial : start.dial with
  | none => exact ⟨[], start, .refl, hdial⟩
  | some dial =>
      induction hleft : dial.stepsLeft policy using Nat.strong_induction_on
        generalizing start dial with
      | _ left ih =>
          obtain ⟨made, after, hpath, hlower⟩ := exists_go script hdial
          cases hnext : after.dial with
          | none => exact ⟨made, after, hpath, hnext⟩
          | some next =>
              obtain ⟨more, ended, hmore, hended⟩ :=
                ih _ (hleft ▸ hlower next hnext) after next hnext rfl
              exact ⟨made ++ more, ended, hpath.trans hmore, hended⟩

/-- Whatever happens around it, a dial makes its tries when they are due and no others: it stops at the
first that succeeds, or when it has made them all. It ends with the last of them, its seed is released,
and flagged as connected by that exactly if a try succeeded; and it can always come to its end. While
the clock reaches what the tries wait for, they are due after what the ones before have lasted and the
rests after them, which double, and succeed exactly if they connect within their bound. -/
theorem tries_on_schedule (hbegun : start.IsBegun policy seed)
    (hpath : Path policy script start tries after) :
    ∃ total, script.Makes policy start.now total ∧
      (∃ count ≤ total, tries = script.tries policy start.now seed.id count ∧
        (∀ index < count, script.tryTime policy start.now index ≤ after.now) ∧
        (∀ index < total, script.tryTime policy start.now index < after.now → index < count) ∧
        (after.dial = none → count = total ∧ script.finish policy start.now total ≤ after.now)) ∧
      (script.finish policy start.now total < after.now → after.dial = none) ∧
      (∀ made ended, Step policy script after made ended → after.dial ≠ none → ended.dial = none →
        ended.now = script.finish policy start.now total ∧
          seed.id ∉ ended.board.state.flags.dialing ∧
          ∀ id, id ∈ ended.board.state.flags.connected ↔
            id ∈ after.board.state.flags.connected ∨
              id = seed.id ∧ ∃ index < total, script.Succeeds policy start.now index) ∧
      (∃ more ended, Path policy script after more ended ∧ ended.dial = none) ∧
      (policy.initialBackoff ≤ Clock.longest → ∀ count,
        (∀ index < count, script.IsReached policy start.now index) →
          script.tryTime policy start.now count = start.now + ∑ index ∈ Finset.range count,
            (min (script.takes index) policy.connectTimeout +
              min (2 ^ index * policy.initialBackoff) Clock.longest)) ∧
      ∀ index, script.IsReached policy start.now index →
        (script.Succeeds policy start.now index ↔
          script.takes index ≤ policy.connectTimeout ∧ script.connects index = true) := by
  obtain ⟨total, htotal⟩ : ∃ total, script.Makes policy start.now total := Script.exists_makes
  have hstage := hpath.stage hbegun
  refine ⟨total, htotal, hstage.tries_eq htotal, fun hlate => ?_, ?_,
    exists_end policy script after, Script.try_time_eq,
    fun index => Script.IsReached.succeeds_iff⟩
  · by_contra hdial
    exact absurd (hstage.now_le_finish htotal hdial) (Nat.not_le.2 hlate)
  · exact fun made ended hstep hdial hended => hstage.of_end hstep hdial hended htotal

/-- A dial of a seed that is about to begin. -/
def lone (policy : Policy) : Pursuit :=
  ⟨0, Scene.fresh.board [], some (Dial.ofSeed policy Scene.lone)⟩

/-- Three tries of a second, with a rest of half a second after the first. -/
def threeTries : Policy where
  attempts := 3
  connectTimeout := 1000
  initialBackoff := 500

/-- The first answer comes too late, the second is a refusal, and the third comes at the last moment. -/
def slowly : Script where
  takes index := [5000, 0, 1000].getD index 0
  connects index := index != 1

/-- The third try is made after the bound of the first and two rests, and is the last. -/
theorem tries_on_schedule_third :
    (lone threeTries).IsBegun threeTries Scene.lone ∧
      ∃ tries after, Path threeTries slowly (lone threeTries) tries after ∧ after.dial = none ∧
        tries = [(0, Scene.lone.id), (1500, Scene.lone.id), (2500, Scene.lone.id)] ∧
        3500 ≤ after.now := by
  have hbegun : (lone threeTries).IsBegun threeTries Scene.lone := rfl
  obtain ⟨tries, after, hpath, hended⟩ := Path.exists_end threeTries slowly (lone threeTries)
  obtain ⟨total, htotal, ⟨count, -, htries, -, -, hover⟩, -⟩ := tries_on_schedule hbegun hpath
  have hthree : slowly.Makes threeTries 0 3 := .of_succeeds (by decide) (by decide) (by decide)
  obtain ⟨hcount, hfinish⟩ := hover hended
  rw [htotal.unique hthree] at hcount hfinish
  rw [hcount] at htries
  exact ⟨hbegun, tries, after, hpath, hended, htries, hfinish⟩

/-- Two tries with the longest rest between them. -/
def longRest : Policy where
  attempts := 2
  initialBackoff := Clock.longest

/-- Nothing connects. -/
def never : Script where
  takes _ := 0
  connects _ := false

/-- It is not so that the second try is always made after the whole of the rest. -/
theorem not_tried_after_rest :
    ¬ ∀ tries after, Path longRest never (lone longRest) tries after → ∀ made ∈ tries.drop 1,
      made.1 = (lone longRest).now + (min (never.takes 0) longRest.connectTimeout +
        min (2 ^ 0 * longRest.initialBackoff) Clock.longest) := by
  intro hall
  obtain ⟨tries, after, hpath, hended⟩ := Path.exists_end longRest never (lone longRest)
  have htwo : never.Makes longRest 0 2 := .of_failed rfl fun _ _ h => Bool.false_ne_true h.2
  obtain ⟨count, -, htries, -, -, hover⟩ := (hpath.stage rfl).tries_eq htwo
  rw [(hover hended).1] at htries
  have hsecond : (Clock.farFuture, Scene.lone.id) ∈ tries.drop 1 := by
    rw [htries]
    exact List.mem_singleton.2 rfl
  exact absurd (hall tries after hpath _ hsecond) (by decide)

end Path

end Pursuit

end PeerFinder.Seed
