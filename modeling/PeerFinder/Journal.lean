import PeerFinder.Clock
import PeerFinder.Notice

/-!
# The journal

Every notice is entered into a journal with the instant it was made at. Work that makes notices runs
on a state together with the journal.
-/

namespace PeerFinder

/-- Every notice so far with its instant, the latest first. -/
abbrev Journal := List (Clock.Instant × Notice)

/-- A state together with the journal. -/
structure Noted (σ : Type) where
  state : σ
  journal : Journal

namespace Noted

/-- Enter a notice. -/
def note {σ : Type} (noted : Noted σ) (now : Clock.Instant) (notice : Notice) : Noted σ :=
  { noted with journal := (now, notice) :: noted.journal }

/-- Change the state alone. -/
def modify {σ τ : Type} (noted : Noted σ) (change : σ → τ) : Noted τ :=
  ⟨change noted.state, noted.journal⟩

end Noted

end PeerFinder
