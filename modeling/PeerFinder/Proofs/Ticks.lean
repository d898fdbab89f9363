import Mathlib.Order.Monotone.Basic
import Mathlib.Tactic.SplitIfs
import PeerFinder.Ticker

/-!
# Regular ticks

A ticker that is fired whenever it falls due ticks at the instants of `Clock.tickTime`, which are
multiples of its period while the clock reaches them (`Clock.tick_time_eq`).
-/

namespace PeerFinder

namespace Clock

/-- A wait whose end the clock reaches ends then. -/
theorem after_of_lt {now : Instant} {span : Span} (hreached : now + span < horizon) :
    after now span = now + span := by
  rw [after, after?, if_pos hreached, Option.getD_some]

/-- A wait whose end the clock does not reach lasts thirty years. -/
theorem after_of_le {now : Instant} {span : Span} (hbeyond : horizon ≤ now + span) :
    after now span = now + farFuture := by
  rw [after, after?, if_neg (Nat.not_lt.2 hbeyond), Option.getD_none]

/-- No wait ends before it began. -/
theorem le_after (now : Instant) (span : Span) : now ≤ after now span := by
  rcases Nat.lt_or_ge (now + span) horizon with hreached | hbeyond
  · rw [after_of_lt hreached]
    exact Nat.le_add_right _ _
  · rw [after_of_le hbeyond]
    exact Nat.le_add_right _ _

/-- A wait for a span above zero takes time. -/
theorem lt_after (now : Instant) {span : Span} (hspan : 0 < span) : now < after now span := by
  rcases Nat.lt_or_ge (now + span) horizon with hreached | hbeyond
  · rw [after_of_lt hreached]
    exact Nat.lt_add_of_pos_right hspan
  · rw [after_of_le hbeyond]
    exact Nat.lt_add_of_pos_right (show 0 < farFuture by decide)

section Ticks

variable (begun : Instant) (period : Span)

/-- The instants that are one period after another, from a first one on. -/
def tickTime : Nat → Instant
  | 0 => begun
  | count + 1 => after (tickTime count) period

/-- While the clock reaches them, ticks are at multiples of the period. -/
theorem tick_time_eq (count : Nat) (hreached : begun + count * period < horizon) :
    tickTime begun period count = begun + count * period := by
  induction count with
  | zero => simp [tickTime]
  | succ count ih =>
      rw [Nat.succ_mul, ← Nat.add_assoc] at hreached ⊢
      have hbefore := ih (Nat.lt_of_le_of_lt (Nat.le_add_right _ _) hreached)
      rw [tickTime, hbefore, after_of_lt hreached]

variable {period}

/-- Ticks come one after another. -/
theorem tick_time_strict_mono (hperiod : 0 < period) : StrictMono (tickTime begun period) :=
  strictMono_nat_of_lt_succ fun count => lt_after (tickTime begun period count) hperiod

end Ticks

end Clock

namespace Ticker

/-- A ticker that is fired when it is due goes on one period later. -/
theorem next_of_due (due : Clock.Instant) (period : Clock.Span) (late : Late) :
    next ⟨due, period, late⟩ due = Clock.after due period :=
  if_neg (Nat.not_lt.2 (Nat.le_add_right _ _))

/-- A ticker is not fired exactly while it is still to fall due. -/
theorem fire_eq_none_iff {ticker : Ticker} {now : Clock.Instant} :
    ticker.fire? now = none ↔ now < ticker.due := by
  unfold fire?
  split_ifs with hdue
  · simp [Nat.not_lt.2 hdue]
  · simp [Nat.lt_of_not_le hdue]

end Ticker

end PeerFinder
