import PeerFinder.Activity

/-!
# What steps and turns of activities keep

Activities have their turns one after another, and a turn is some steps of one activity. What every
single step keeps holds when all had their turns (`run_all_keeps`). Of a state that activities share,
some may have a part to themselves (`Isolates`).
-/

namespace PeerFinder

namespace Activity

variable {σ α : Type} {step : Step σ α}

/-- What every step of an activity keeps holds when its turn is over. -/
theorem run_keeps {motive : σ → Option α → Prop}
    (hstep : ∀ state activity after next, motive state (some activity) →
      step state activity = some (after, next) → motive after next)
    (budget : Nat) (state : σ) (activity : α) (h : motive state (some activity)) :
    motive (run step budget state activity).state (run step budget state activity).activity := by
  induction budget generalizing state activity with
  | zero => exact h
  | succ budget ih =>
      cases hnext : step state activity with
      | none =>
          simp only [run, hnext]
          exact h
      | some moved =>
          obtain ⟨after, next⟩ := moved
          have hafter := hstep state activity after next h hnext
          cases next with
          | none =>
              simp only [run, hnext]
              exact hafter
          | some activity =>
              simp only [run, hnext]
              exact ih after activity hafter

/-- What every step of an activity that may have ended keeps holds when its turn is over. -/
theorem run_option_keeps {motive : σ → Option α → Prop}
    (hstep : ∀ state activity after next, motive state (some activity) →
      step state activity = some (after, next) → motive after next)
    (state : σ) (activity : Option α) (h : motive state activity) :
    motive (runOption step state activity).1 (runOption step state activity).2.1 := by
  cases activity with
  | none => exact h
  | some activity => exact run_keeps hstep turn state activity h

/-- What every step of one of several activities keeps holds when all had their turns. -/
theorem run_all_keeps {motive : σ → List α → Prop}
    (hstep : ∀ state before activity later after next,
      motive state (before ++ activity :: later) → step state activity = some (after, next) →
      motive after (before ++ next.toList ++ later))
    (state : σ) (before activities : List α) (h : motive state (before ++ activities)) :
    motive (runAll step state activities).1 (before ++ (runAll step state activities).2.1) := by
  -- The activities before the one whose turn it is have had theirs.
  induction activities generalizing state before with
  | nil => exact h
  | cons activity rest ih =>
      have hturn := run_keeps
        (motive := fun state next => motive state (before ++ next.toList ++ rest))
        (fun state activity after next hmotive hnext =>
          hstep state before activity rest after next (by simpa using hmotive) hnext)
        turn state activity (by simpa using h)
      have hrest := ih _ _ hturn
      simpa [runAll] using hrest

/-- How the activities that are a part's own go together with the others: they go on in the part as
they do in the whole, and the others do not change the part. This is for activities that are valid,
and what is left of a valid one is valid and as much the part's own as before. -/
structure Isolates (step : Step σ α) (part : σ → σ) (own : α → Bool) (valid : α → Prop) : Prop where
  stays : ∀ {state activity after next}, valid activity → step state activity = some (after, next) →
    ∀ left ∈ next, valid left ∧ own left = own activity
  inside : ∀ {state activity}, valid activity → own activity = true →
    step (part state) activity =
      (step state activity).map fun moved => (part moved.1, moved.2)
  outside : ∀ {state activity after next}, valid activity → own activity = false →
    step state activity = some (after, next) → part after = part state

namespace Isolates

variable {part : σ → σ} {own : α → Bool} {valid : α → Prop}

/-- What is left of an activity is the part's own if the activity is. -/
theorem filter_left (h : Isolates step part own valid) {state after : σ} {activity : α}
    {next : Option α} (hvalid : valid activity) (hnext : step state activity = some (after, next)) :
    next.toList.filter own = if own activity then next.toList else [] := by
  cases next with
  | none => simp
  | some left =>
      have hsame := (h.stays hvalid hnext left rfl).2
      cases hown : own activity <;> simp [hsame, hown]

end Isolates

end Activity

end PeerFinder
