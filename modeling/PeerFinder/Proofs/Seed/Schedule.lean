import Mathlib.Algebra.BigOperators.Group.Finset.Basic
import Mathlib.Data.Nat.Find
import PeerFinder.Proofs.Config.Durations
import PeerFinder.Proofs.Ticks
import PeerFinder.Seed.Dial

/-!
# When the tries of a dial are due

A `Script` says what a transport does with the tries of one dial: how long each takes and whether it
connects. `Script.tryTime` is when the tries are due then, and `Script.Makes` how many there are, of
which there is exactly one number (`Script.exists_makes`, `Script.Makes.unique`). A wait beyond the
end of the clock is shorter than it says. While the clock reaches what the tries wait for
(`Script.IsReached`), they are due after the sum of what the ones before have lasted and of the rests,
which double (`Script.try_time_eq`).
-/

namespace PeerFinder.Seed

/-- How long a dial rests after a failed try, by the number of the try from zero on. -/
def Policy.backoff (policy : Policy) (index : Nat) : Clock.Span :=
  Clock.double^[index] policy.initialBackoff

/-- The rest after a try that failed is twice the one before. -/
theorem Policy.backoff_succ (policy : Policy) (index : Nat) :
    policy.backoff (index + 1) = Clock.double (policy.backoff index) :=
  Function.iterate_succ_apply' Clock.double index policy.initialBackoff

/-- What a transport does with the tries of a dial, by the number of the try from zero on: how long it
takes to answer, and whether it has connected then. -/
structure Script where
  takes : Nat → Clock.Span
  connects : Nat → Bool

namespace Script

variable (script : Script) (policy : Policy)

/-- When the transport answers a try that was made at an instant. -/
def answerTime (index : Nat) (tried : Clock.Instant) : Clock.Instant :=
  if script.takes index = 0 then tried else Clock.after tried (script.takes index)

/-- When a try ends that was made at an instant: with the answer, or at its bound. -/
def endOfTry (index : Nat) (tried : Clock.Instant) : Clock.Instant :=
  min (script.answerTime index tried) (Clock.after tried policy.connectTimeout)

variable (begun : Clock.Instant)

/-- When the tries of a dial are due that began at an instant, as long as they fail. -/
def tryTime : Nat → Clock.Instant
  | 0 => begun
  | index + 1 => Clock.after (script.endOfTry policy index (tryTime index)) (policy.backoff index)

/-- When they end. -/
def endTime (index : Nat) : Clock.Instant :=
  script.endOfTry policy index (script.tryTime policy begun index)

/-- Whether a try succeeds: the transport connects, and answers at the bound or before. -/
def Succeeds (index : Nat) : Prop :=
  script.answerTime index (script.tryTime policy begun index) ≤
      Clock.after (script.tryTime policy begun index) policy.connectTimeout ∧
    script.connects index = true

/-- Whether a dial makes so many tries: it ends with the first that succeeds, or when it has no more. -/
structure Makes (count : Nat) : Prop where
  le : count ≤ policy.attempts
  failed : ∀ index, index + 1 < count → ¬ script.Succeeds policy begun index
  last : count < policy.attempts → ∃ index, count = index + 1 ∧ script.Succeeds policy begun index

/-- When a dial ends that makes so many tries: at once, or with the last of them. -/
def finish : Nat → Clock.Instant
  | 0 => begun
  | index + 1 => script.endTime policy begun index

/-- The first tries to a peer. -/
def tries (id : PeerId) (count : Nat) : List (Clock.Instant × PeerId) :=
  (List.range count).map fun index => (script.tryTime policy begun index, id)

/-- One try more comes last. -/
theorem tries_succ (id : PeerId) (count : Nat) :
    script.tries policy begun id (count + 1) =
      script.tries policy begun id count ++ [(script.tryTime policy begun count, id)] := by
  rw [tries, List.range_succ, List.map_append]
  rfl

/-- No answer comes before the try was made. -/
theorem le_answer_time (index : Nat) (tried : Clock.Instant) :
    tried ≤ script.answerTime index tried := by
  unfold answerTime
  split_ifs
  · exact le_rfl
  · exact Clock.le_after _ _

/-- A try ends when it was made or later. -/
theorem try_time_le_end_time (index : Nat) :
    script.tryTime policy begun index ≤ script.endTime policy begun index :=
  le_min (script.le_answer_time index _) (Clock.le_after _ _)

/-- The next try is due when a try has ended or later. -/
theorem end_time_le_try_time (index : Nat) :
    script.endTime policy begun index ≤ script.tryTime policy begun (index + 1) :=
  Clock.le_after _ _

/-- Tries are due one after another. -/
theorem try_time_mono : Monotone (script.tryTime policy begun) :=
  monotone_nat_of_le_succ fun index =>
    (script.try_time_le_end_time policy begun index).trans
      (script.end_time_le_try_time policy begun index)

/-- A dial does not end before the last of its tries does. -/
theorem end_time_le_finish {index count : Nat} (hindex : index < count) :
    script.endTime policy begun index ≤ script.finish policy begun count := by
  obtain ⟨last, rfl⟩ : ∃ last, count = last + 1 := ⟨count - 1, by omega⟩
  have hmono : Monotone (script.endTime policy begun) :=
    monotone_nat_of_le_succ fun index =>
      (script.end_time_le_try_time policy begun index).trans
        (script.try_time_le_end_time policy begun (index + 1))
  exact hmono (Nat.le_of_lt_succ hindex)

/-- A dial does not end before its tries are made. -/
theorem try_time_le_finish {index count : Nat} (hindex : index < count) :
    script.tryTime policy begun index ≤ script.finish policy begun count :=
  (script.try_time_le_end_time policy begun index).trans
    (script.end_time_le_finish policy begun hindex)

/-- A dial does not end before it began. -/
theorem begun_le_finish (count : Nat) : begun ≤ script.finish policy begun count := by
  cases count with
  | zero => exact le_rfl
  | succ last => exact script.try_time_le_finish policy begun (Nat.succ_pos last)

variable {script policy begun}

instance (index : Nat) : Decidable (script.Succeeds policy begun index) :=
  inferInstanceAs (Decidable (_ ∧ _))

/-- A try that succeeds is the last one. -/
theorem Makes.of_succeeds {index : Nat} (hindex : index < policy.attempts)
    (hfailed : ∀ earlier < index, ¬ script.Succeeds policy begun earlier)
    (hsucceeds : script.Succeeds policy begun index) : script.Makes policy begun (index + 1) where
  le := hindex
  failed earlier hearlier := hfailed earlier (Nat.lt_of_succ_lt_succ hearlier)
  last _ := ⟨index, rfl, hsucceeds⟩

/-- As long as all tries fail, a dial makes all it has. -/
theorem Makes.of_failed {count : Nat} (hcount : count = policy.attempts)
    (hfailed : ∀ index < count, ¬ script.Succeeds policy begun index) :
    script.Makes policy begun count where
  le := hcount.le
  failed index hindex := hfailed index (Nat.lt_of_succ_lt hindex)
  last hless := absurd hcount hless.ne

/-- A dial makes a number of tries. -/
theorem exists_makes : ∃ count, script.Makes policy begun count := by
  by_cases hexists : ∃ index, index < policy.attempts ∧ script.Succeeds policy begun index
  · obtain ⟨hlt, hsucceeds⟩ := Nat.find_spec hexists
    refine ⟨_, .of_succeeds hlt (fun earlier hearlier hsucceeded => ?_) hsucceeds⟩
    exact Nat.find_min hexists hearlier ⟨hearlier.trans hlt, hsucceeded⟩
  · exact ⟨_, .of_failed rfl fun index hindex hsucceeds => hexists ⟨index, hindex, hsucceeds⟩⟩

/-- A dial goes on after failed tries as long as it has more. -/
theorem Makes.lt_of_failed {count index : Nat} (h : script.Makes policy begun count)
    (hindex : index < policy.attempts)
    (hfailed : ∀ earlier < index, ¬ script.Succeeds policy begun earlier) : index < count := by
  by_contra hle
  obtain ⟨last, rfl, hsucceeds⟩ := h.last (by omega)
  exact hfailed last (by omega) hsucceeds

/-- There is one number of tries that a dial makes. -/
theorem Makes.unique {count other : Nat} (h : script.Makes policy begun count)
    (hother : script.Makes policy begun other) : count = other := by
  have hle {left right : Nat} (hleft : script.Makes policy begun left)
      (hright : script.Makes policy begun right) : left ≤ right := by
    by_contra hlt
    obtain ⟨last, rfl, hsucceeds⟩ := hright.last (by have := hleft.le; omega)
    exact hleft.failed last (by omega) hsucceeds
  exact le_antisymm (hle h hother) (hle hother h)

/-- Whether the clock reaches what a try waits for: its bound, its answer unless the bound comes first
anyway, and the end of the rest after it. -/
structure IsReached (script : Script) (policy : Policy) (begun : Clock.Instant) (index : Nat) :
    Prop where
  bound : script.tryTime policy begun index + policy.connectTimeout < Clock.horizon
  answer : script.tryTime policy begun index + script.takes index < Clock.horizon ∨
    policy.connectTimeout < Clock.farFuture
  rest : script.endTime policy begun index + policy.backoff index < Clock.horizon

namespace IsReached

variable {index : Nat}

/-- An answer comes when it takes so long, or after the bound. -/
theorem answer_time_cases (h : script.IsReached policy begun index) :
    script.answerTime index (script.tryTime policy begun index) =
        script.tryTime policy begun index + script.takes index ∨
      policy.connectTimeout < script.takes index ∧
        script.tryTime policy begun index + policy.connectTimeout <
          script.answerTime index (script.tryTime policy begun index) := by
  unfold answerTime
  split_ifs with hzero
  · exact .inl (by rw [hzero, Nat.add_zero])
  · rcases Nat.lt_or_ge (script.tryTime policy begun index + script.takes index) Clock.horizon with
      hreached | hbeyond
    · exact .inl (Clock.after_of_lt hreached)
    · have hshort := h.answer.resolve_left (Nat.not_lt.2 hbeyond)
      refine .inr ⟨Nat.lt_of_add_lt_add_left (h.bound.trans_le hbeyond), ?_⟩
      rw [Clock.after_of_le hbeyond]
      exact Nat.add_lt_add_left hshort _

/-- A try lasts as long as the answer takes, up to its bound. -/
theorem end_time_eq (h : script.IsReached policy begun index) :
    script.endTime policy begun index = script.tryTime policy begun index +
      min (script.takes index) policy.connectTimeout := by
  rw [endTime, endOfTry, Clock.after_of_lt h.bound]
  rcases h.answer_time_cases with heq | ⟨hlong, hlate⟩
  · rw [heq, Nat.add_min_add_left]
  · rw [min_eq_right hlate.le, min_eq_right hlong.le]

/-- A try succeeds exactly if the transport connects and takes no longer than the bound. -/
theorem succeeds_iff (h : script.IsReached policy begun index) :
    script.Succeeds policy begun index ↔
      script.takes index ≤ policy.connectTimeout ∧ script.connects index = true := by
  rw [Succeeds, Clock.after_of_lt h.bound]
  refine and_congr_left fun _ => ?_
  rcases h.answer_time_cases with heq | ⟨hlong, hlate⟩
  · rw [heq, Nat.add_le_add_iff_left]
  · exact iff_of_false hlate.not_ge hlong.not_ge

end IsReached

/-- While the clock reaches what the tries wait for, each is due when the ones before have lasted and
the rests after them, which double. -/
theorem try_time_eq (hbackoff : policy.initialBackoff ≤ Clock.longest) (count : Nat)
    (hreached : ∀ index < count, script.IsReached policy begun index) :
    script.tryTime policy begun count = begun + ∑ index ∈ Finset.range count,
      (min (script.takes index) policy.connectTimeout +
        min (2 ^ index * policy.initialBackoff) Clock.longest) := by
  induction count with
  | zero => rfl
  | succ count ih =>
      have hbefore := ih fun index hindex => hreached index (Nat.lt_succ_of_lt hindex)
      have hlast := hreached count (Nat.lt_succ_self count)
      have hnext : script.tryTime policy begun (count + 1) =
          script.endTime policy begun count + policy.backoff count := Clock.after_of_lt hlast.rest
      rw [hnext, hlast.end_time_eq, hbefore, Finset.sum_range_succ, Policy.backoff,
        Clock.iterate_double hbackoff, Nat.add_assoc, Nat.add_assoc]

end Script

end PeerFinder.Seed
