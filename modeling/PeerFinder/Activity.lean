import PeerFinder.Clock

/-!
# Activities

Background work is an activity: a value that says where the work stands. A step function takes the
activity on from one point where it may have to wait to the next. It answers nothing while the
activity waits, and otherwise the state after the step and the activity that is left, if it has not
ended. What activities do together is decided by the order of their steps alone.
-/

namespace PeerFinder

/-- What background work sees of the world at a step: the time, the Unix seconds at which the clock
began, whether the work was told to stop, and whether a wait that could end either way ends by the
stop. -/
structure Moment where
  now : Clock.Instant
  wall : Int := 0
  stopping : Bool := false
  heedsStop : Bool := true
deriving DecidableEq, Repr

/-- The Unix time of a moment in whole seconds. -/
def Moment.unixSeconds (moment : Moment) : Nat :=
  Clock.unixSeconds moment.wall moment.now

/-- Whether a wait ends by the stop, given whether it could also end otherwise. -/
def Moment.stops (moment : Moment) (ready : Bool) : Bool :=
  moment.stopping && (moment.heedsStop || !ready)

namespace Activity

/-- A step of activities `α` on a state `σ`: nothing while the activity waits. -/
abbrev Step (σ α : Type) := σ → α → Option (σ × Option α)

/-- What is left of an activity that was taken on: the state, the activity if it has not ended, and
whether it moved at all. -/
structure Outcome (σ α : Type) where
  state : σ
  activity : Option α
  moved : Bool

/-- Take an activity on by at most `budget` steps. -/
def run {σ α : Type} (step : Step σ α) : (budget : Nat) → σ → α → Outcome σ α
  | 0, state, activity => ⟨state, some activity, false⟩
  | budget + 1, state, activity =>
      match step state activity with
      | none => ⟨state, some activity, false⟩
      | some (state, none) => ⟨state, none, true⟩
      | some (state, some activity) => { run step budget state activity with moved := true }

/-- The steps that an activity is taken on by before the next one has its turn. -/
def turn : Nat := 64

/-- Give every activity of a list a turn, in order. -/
def runAll {σ α : Type} (step : Step σ α) : σ → List α → σ × List α × Bool
  | state, [] => (state, [], false)
  | state, activity :: rest =>
      let outcome := run step turn state activity
      let (state, remaining, moved) := runAll step outcome.state rest
      (state, outcome.activity.toList ++ remaining, outcome.moved || moved)

/-- Give an activity a turn if there is one. -/
def runOption {σ α : Type} (step : Step σ α) (state : σ) : Option α → σ × Option α × Bool
  | none => (state, none, false)
  | some activity =>
      let outcome := run step turn state activity
      (outcome.state, outcome.activity, outcome.moved)

/-- A step of a call `β` that ends with an answer `ρ`: nothing while the call waits. -/
abbrev CallStep (σ β ρ : Type) := σ → β → Option (σ × (β ⊕ ρ))

/-- What became of a call that was taken on: the state, the call or its answer, and whether it moved
at all. -/
structure CallOutcome (σ β ρ : Type) where
  state : σ
  call : β ⊕ ρ
  moved : Bool

/-- Take a call on by at most `budget` steps. -/
def runCall {σ β ρ : Type} (step : CallStep σ β ρ) :
    (budget : Nat) → σ → β → CallOutcome σ β ρ
  | 0, state, call => ⟨state, .inl call, false⟩
  | budget + 1, state, call =>
      match step state call with
      | none => ⟨state, .inl call, false⟩
      | some (state, .inr answer) => ⟨state, .inr answer, true⟩
      | some (state, .inl call) => { runCall step budget state call with moved := true }

end Activity

end PeerFinder
