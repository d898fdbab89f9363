import PeerFinder.Proofs.Seed.Shutdown
import PeerFinder.Proofs.Ticks

/-!
# Work at one instant

A dial or a supervisor waits only for an instant that is still to come (`Dial.step_eq_none_iff`,
`Supervisor.step_eq_none_iff`). With every step it is a step closer to such a wait or to its end
(`Dial.Moves.steps_lt`, `Supervisor.sound_of_step`), so that the work at one instant comes to rest
if nothing comes from outside. This is for work that is sound: it connects to the seed that it is
for, and its tickers have a period.
-/

namespace PeerFinder

namespace Ticker

/-- How many milliseconds have come since a ticker fell due, that one included. -/
def lag (ticker : Ticker) (now : Clock.Instant) : Nat :=
  now + 1 - ticker.due

variable {ticker : Ticker} {now : Clock.Instant}

/-- A ticker whose first tick is still to come has no lag. -/
theorem lag_deferred {period : Clock.Span} (hperiod : period ≠ 0) (late : Late) :
    (deferred now period late).lag now = 0 := by
  refine Nat.sub_eq_zero_of_le ?_
  simp only [deferred, Clock.after, Clock.after?]
  split_ifs
  · exact Nat.add_le_add_left (Nat.pos_of_ne_zero hperiod) now
  · exact Nat.add_le_add_left (show 1 ≤ Clock.farFuture by decide) now

/-- A ticker that is fired falls due again later than it was due. -/
theorem due_lt_next (hdue : ticker.due ≤ now) (hperiod : ticker.period ≠ 0) :
    ticker.due < ticker.next now := by
  have hpositive := Nat.pos_of_ne_zero hperiod
  unfold next Clock.after?
  split_ifs
  · cases ticker.late with
    | delay => exact Nat.lt_of_le_of_lt hdue (Nat.lt_add_of_pos_right hpositive)
    | skip =>
        have hrest := Nat.mod_lt (now - ticker.due) hpositive
        dsimp only
        rw [Nat.add_sub_assoc hrest.le]
        exact Nat.lt_of_le_of_lt hdue (Nat.lt_add_of_pos_right (Nat.sub_pos_of_lt hrest))
  · exact Nat.lt_add_of_pos_right hpositive
  · exact Nat.lt_of_le_of_lt hdue (Nat.lt_add_of_pos_right (show 0 < Clock.farFuture by decide))

/-- A ticker that is fired keeps its period and has less lag than before. -/
theorem lag_of_fire {fired : Ticker} (hfire : ticker.fire? now = some fired)
    (hperiod : ticker.period ≠ 0) :
    fired.period = ticker.period ∧ fired.lag now < ticker.lag now := by
  unfold fire? at hfire
  split_ifs at hfire with hdue
  cases hfire
  exact ⟨rfl, Nat.sub_lt_sub_left (Nat.lt_succ_of_le hdue) (due_lt_next hdue hperiod)⟩

end Ticker

namespace Seed

/-- A connect waits exactly while it waits for an instant to come and was not stopped. -/
theorem connect_outcome_eq_none_iff {moment : Moment} {call : BoundedConnect}
    {transport : Transport} : connectOutcome? moment call transport = none ↔
      moment.stopping = false ∧ moment.now < call.wake := by
  refine ⟨connect_outcome_eq_none, fun ⟨hstopping, hlater⟩ => ?_⟩
  obtain ⟨hdue, hexpires⟩ := Nat.lt_min.1 hlater
  simp [connectOutcome?, BoundedConnect.outcome?, hstopping, Nat.not_le.2 hdue,
    Nat.not_le.2 hexpires]

namespace Dial

variable {policy : Policy} {moment : Moment} {dial : Dial} {board after : Noted Board}
  {next : Option Dial}

/-- Whether the connect of a dial, if one is in flight, goes to the seed of the dial. -/
def IsSound (dial : Dial) : Prop :=
  match dial.point with
  | .trying _ _ call => call.connect.peer.id = dial.seed.id
  | .ready .. | .resting .. | .ending _ => True

/-- A dial stays with its seed and connects to it. -/
theorem sound_of_step (hstep : dial.step policy moment board = some (after, next)) :
    ∀ left ∈ next, left.IsSound ∧ left.seed = dial.seed := by
  obtain ⟨seed, point⟩ := dial
  rintro left hmem
  cases point with
  | ready attempt backoff =>
      simp only [step, goTo, conclude, afterTry] at hstep
      split_ifs at hstep <;> cases hstep <;> cases hmem
      · exact ⟨trivial, rfl⟩
      · exact ⟨trivial, rfl⟩
      · exact ⟨rfl, rfl⟩
  | trying attempt backoff call =>
      obtain ⟨⟨outcome, transport⟩, -, heq⟩ := Option.map_eq_some_iff.1 hstep
      cases heq
      cases hmem
      refine ⟨?_, rfl⟩
      cases outcome <;> simp only [afterTry, IsSound]
      split_ifs <;> trivial
  | resting attempt backoff resume =>
      simp only [step, goTo] at hstep
      split_ifs at hstep <;> cases hstep <;> cases hmem <;> exact ⟨trivial, rfl⟩
  | ending connected =>
      cases hstep
      cases hmem

/-- A dial waits exactly while it waits for an instant to come and was not stopped. -/
theorem step_eq_none_iff : dial.step policy moment board = none ↔
    moment.stopping = false ∧ ∃ wake, dial.wake = some wake ∧ moment.now < wake := by
  refine ⟨step_eq_none, ?_⟩
  rintro ⟨hstopping, wake, hwake, hlater⟩
  obtain ⟨seed, point⟩ := dial
  cases point with
  | ready | ending => cases hwake
  | trying attempt backoff call =>
      cases hwake
      exact Option.map_eq_none_iff.2 (connect_outcome_eq_none_iff.2 ⟨hstopping, hlater⟩)
  | resting attempt backoff resume =>
      cases hwake
      simp [step, Moment.stops, hstopping, Nat.not_le.2 hlater]

end Dial

namespace Supervisor

/-- How many steps a supervisor takes at most before it waits for an instant to come. -/
def stepsNow (now : Clock.Instant) (supervisor : Supervisor) : Nat :=
  match supervisor.point with
  | .ready => 3
  | .waiting ticker => 5 * ticker.lag now + 2
  | .looked ticker _ => 5 * ticker.lag now + 6
  | .claimed ticker => 5 * ticker.lag now + 5
  | .redialing ticker _ => 5 * ticker.lag now + 4
  | .redialed ticker _ => 5 * ticker.lag now + 3
  | .ending => 1

/-- Whether the connect of a supervisor, if one is in flight, goes to the seed of the supervisor,
and whether its ticker has a period. -/
def IsSound (supervisor : Supervisor) : Prop :=
  match supervisor.point with
  | .ready | .ending => True
  | .waiting ticker | .looked ticker _ | .claimed ticker | .redialed ticker _ => ticker.period ≠ 0
  | .redialing ticker call => ticker.period ≠ 0 ∧ call.connect.peer.id = supervisor.seed.id

/-- A supervisor has a step left before it waits, or until it ends. -/
theorem steps_now_pos (now : Clock.Instant) (supervisor : Supervisor) :
    0 < supervisor.stepsNow now := by
  unfold stepsNow
  split <;> omega

variable {policy : Policy} {moment : Moment} {supervisor : Supervisor} {board after : Noted Board}
  {next : Option Supervisor}

/-- A supervisor stays with its seed. -/
theorem seed_of_step (hstep : supervisor.step policy moment board = some (after, next)) :
    ∀ left ∈ next, left.seed = supervisor.seed := by
  have hmoves := step_moves hstep
  generalize after.state = state at hmoves
  cases hmoves <;> simp

/-- A supervisor connects to its seed, and takes with every step a step closer to where it waits. -/
theorem sound_of_step (hsound : supervisor.IsSound)
    (hstep : supervisor.step policy moment board = some (after, next)) :
    ∀ left ∈ next, left.IsSound ∧ left.stepsNow moment.now < supervisor.stepsNow moment.now := by
  obtain ⟨seed, point⟩ := supervisor
  intro left hmem
  cases point with
  | ready =>
      simp only [step, goTo] at hstep
      split_ifs at hstep with hinterval <;> cases hstep <;> cases hmem
      refine ⟨hinterval, ?_⟩
      simp only [stepsNow, Ticker.lag_deferred hinterval]
      omega
  | waiting ticker =>
      simp only [step, goTo] at hstep
      split_ifs at hstep
      · cases hstep
        cases hmem
        simp [stepsNow, IsSound]
      · obtain ⟨fired, hfire, heq⟩ := Option.map_eq_some_iff.1 hstep
        cases heq
        cases hmem
        obtain ⟨hperiod, hlag⟩ := Ticker.lag_of_fire hfire hsound
        refine ⟨hperiod.trans_ne hsound, ?_⟩
        simp only [stepsNow]
        omega
  | looked ticker connected =>
      have hresult := look_result ⟨seed, .looked ticker connected⟩ ticker connected moment.now board
      rw [Option.some.inj hstep] at hresult
      unfold IsSound stepsNow
      rcases hresult.2 left hmem with hpoint | hpoint <;> rw [hpoint] <;>
        exact ⟨hsound, by dsimp only; omega⟩
  | claimed ticker =>
      simp only [step, goTo] at hstep
      split_ifs at hstep <;> cases hstep <;> cases hmem
      · exact ⟨hsound, Nat.add_lt_add_left (by decide) _⟩
      · exact ⟨⟨hsound, rfl⟩, Nat.add_lt_add_left (by decide) _⟩
  | redialing ticker call =>
      obtain ⟨_, -, heq⟩ := Option.map_eq_some_iff.1 hstep
      cases heq
      cases hmem
      exact ⟨hsound.1, Nat.add_lt_add_left (by decide) _⟩
  | redialed ticker outcome =>
      have hresult := settle_result ⟨seed, .redialed ticker outcome⟩ ticker outcome moment.now board
      rw [Option.some.inj hstep] at hresult
      unfold IsSound stepsNow
      rw [hresult.2 left hmem]
      exact ⟨hsound, Nat.add_lt_add_left (by decide) _⟩
  | ending =>
      cases hstep
      cases hmem

/-- A supervisor waits exactly while it waits for an instant to come and was not stopped. -/
theorem step_eq_none_iff : supervisor.step policy moment board = none ↔
    moment.stopping = false ∧ ∃ wake, supervisor.wake = some wake ∧ moment.now < wake := by
  obtain ⟨seed, point⟩ := supervisor
  cases point with
  | ready | claimed ticker =>
      simp only [step, wake]
      split_ifs <;> simp
  | waiting ticker =>
      simp only [step, wake, Option.some.injEq, exists_eq_left', ← Ticker.fire_eq_none_iff]
      cases ticker.fire? moment.now <;> cases hstopping : moment.stopping <;>
        cases hheeds : moment.heedsStop <;> simp [Moment.stops, hstopping, hheeds]
  | redialing ticker call =>
      simp only [step, wake, Option.map_eq_none_iff, connect_outcome_eq_none_iff,
        Option.some.injEq, exists_eq_left']
  | looked | redialed | ending => simp [step, wake]

end Supervisor

/-- A dial takes with every step a step closer to its end. The steps of a supervisor it calls for
were counted among its own. -/
theorem Dial.Moves.steps_lt {policy : Policy} {dial : Dial} {board after : Board}
    {next : Option Dial} (hmoves : Moves policy dial board after next) (now : Clock.Instant) :
    4 * (next.map (stepsLeft policy)).getD 0 +
        (after.recruits.map (Supervisor.stepsNow now)).sum <
      4 * dial.stepsLeft policy + (board.recruits.map (Supervisor.stepsNow now)).sum := by
  cases hmoves with
  | went transport point hleft =>
      simp only [Option.map_some, Option.getD_some]
      omega
  | settled connected _ hpoint hafter =>
      subst hafter
      rw [recruits_settle]
      simp only [Option.map_none, Option.getD_none, stepsLeft, hpoint]
      split_ifs
      · simp only [List.map_append, List.sum_append, List.map_singleton, List.sum_singleton,
          Supervisor.stepsNow, Supervisor.ofSeed]
        omega
      · simp

/-- Whether all work under way is about the seed that it is for. -/
structure Service.IsSound (service : Service) : Prop where
  dials : ∀ dial ∈ service.dials, dial.IsSound
  supervisors : ∀ supervisor ∈ service.supervisors, supervisor.IsSound

end Seed

end PeerFinder
