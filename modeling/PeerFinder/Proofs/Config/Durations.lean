import Mathlib.Algebra.Order.Ring.Nat
import Mathlib.Logic.Function.Iterate
import Mathlib.Tactic.MkIffOfInductiveProp
import PeerFinder.Config.Parts
import PeerFinder.Config.Validity
import PeerFinder.Scope

/-!
# Durations of valid configurations

`Config.IsValid` says what a configuration must be like to be accepted. Then no timer gets the period
zero, and no duration is longer than a year, so that a clock that has a year left reaches the end of
each of them: a deadline after such a duration is neither left out nor put into a far future
(`Config.IsValid.is_exact`). A wait that doubles again and again is twice as long each time until it
is as long as a span can be, and stays so (`Clock.iterate_double`).
-/

namespace PeerFinder

namespace Clock

/-- Whole seconds are no span exactly if there are none. -/
theorem of_seconds_ne_zero {seconds : UInt64} : ofSeconds seconds ≠ 0 ↔ seconds ≠ 0 := by
  rw [ofSeconds, ne_eq, Nat.mul_eq_zero, or_iff_left (by decide), ne_eq, ← UInt64.toNat_inj]
  rfl

/-- Whole seconds are a span that can be told. -/
theorem of_seconds_le_longest (seconds : UInt64) : ofSeconds seconds ≤ longest := by
  have hlt := seconds.toNat_lt
  show seconds.toNat * 1000 ≤ (2 ^ 64 - 1) * 1000 + 999
  omega

/-- A year, the longest span of a valid configuration. -/
def year : Span :=
  Config.longestDuration * 1000

/-- A span whose end every clock reaches that has a year left: a wait for it ends then, and so does a
scope that is bounded by it, unless the scope ends earlier anyway. -/
structure IsExact (span : Span) : Prop where
  after : ∀ now, now + year < horizon → Clock.after now span = now + span
  deadline : ∀ (scope : Scope) (tree : ScopeTree) now, now + year < horizon →
    (scope.withTimeout now span tree).1.deadline = earlier scope.deadline (some (now + span))

/-- The ends of spans up to a year are reached. -/
theorem is_exact_of_le {span : Span} (hspan : span ≤ year) : IsExact span := by
  have hreached : ∀ now, now + year < horizon → after? now span = some (now + span) :=
    fun now hnow => if_pos (Nat.lt_of_le_of_lt (Nat.add_le_add_left hspan now) hnow)
  refine ⟨fun now hnow => ?_, fun scope tree now hnow => ?_⟩
  · rw [after, hreached now hnow, Option.getD_some]
  · rw [Scope.withTimeout, hreached now hnow]

/-- A span that is doubled again and again grows up to the longest one. -/
theorem iterate_double {span : Span} (hspan : span ≤ longest) (count : Nat) :
    double^[count] span = min (2 ^ count * span) longest := by
  induction count with
  | zero => simp [Nat.min_eq_left hspan]
  | succ count ih =>
      rw [Function.iterate_succ_apply', ih, double, pow_succ', Nat.mul_assoc]
      -- Past the longest span, doubling changes nothing any more.
      have hcapped (grown limit : Nat) : min (2 * min grown limit) limit = min (2 * grown) limit := by
        omega
      exact hcapped _ _

end Clock

namespace Config

section Outcomes

/-- A condition that is required holds if nothing is refused. -/
theorem require_eq_ok {condition : Bool} {fault : Fault} :
    require condition fault = .ok () ↔ condition = true := by
  cases condition <;> simp [require]

/-- One check after another refuses nothing if neither of them does. -/
theorem bind_eq_ok {first : Except Fault Unit} {rest : Unit → Except Fault Unit} :
    (first >>= rest) = .ok () ↔ first = .ok () ∧ rest () = .ok () := by
  cases first <;> simp [bind, Except.bind]

/-- A check of all items of a list refuses nothing if it refuses none of them. -/
theorem for_m_eq_ok {α : Type} {items : List α} {check : α → Except Fault Unit} :
    items.forM check = .ok () ↔ ∀ item ∈ items, check item = .ok () := by
  induction items with
  | nil => simp [List.forM, pure, Except.pure]
  | cons item rest ih => rw [List.forM, bind_eq_ok, ih, List.forall_mem_cons]

end Outcomes

/-- What a configuration must be like. -/
@[mk_iff]
structure IsValid (config : Config) : Prop where
  mechanism : (config.localNet.enabled || config.seeds.enabled || config.rendezvous.enabled) = true
  periods : ∀ period ∈ config.periods, period.2 ≠ 0
  durations : ∀ duration ∈ config.durations, duration.2.toNat ≤ longestDuration
  queryLimit : config.coordinator.queryLimit ≠ 0
  maxPeers : config.store.maxPeers ≠ 0
  localNet : config.localNet.enabled = true →
    isName config.localNet.tag = true ∧ config.localNet.services.all isName = true
  seeds : config.seeds.enabled = true →
    config.seeds.attempts ≠ 0 ∧ config.seeds.superviseInterval ≠ 0
  rendezvous : config.rendezvous.enabled = true →
    config.rendezvous.advertiseInterval ≠ 0 ∧ config.rendezvous.label.isEmpty = false

variable {config : Config}

/-- A configuration is accepted exactly if it is valid. -/
theorem validate_eq_ok_iff : config.validate = .ok () ↔ config.IsValid := by
  rw [isValid_iff]
  simp only [validate, bind_eq_ok, for_m_eq_ok, require_eq_ok, decide_eq_true_eq, bne_iff_ne]
  -- Which settings are looked at depends on the mechanisms that are enabled.
  cases config.localNet.enabled <;> cases config.seeds.enabled <;>
    cases config.rendezvous.enabled <;>
    simp [bind_eq_ok, require_eq_ok, pure, Except.pure, and_assoc]

/-- The durations of a configuration as spans. -/
def spans (config : Config) : List Clock.Span :=
  config.durations.map fun duration => Clock.ofSeconds duration.2

/-- A clock with a year left reaches the end of every duration of a valid configuration. -/
theorem IsValid.is_exact (h : config.IsValid) {span : Clock.Span} (hspan : span ∈ config.spans) :
    Clock.IsExact span := by
  obtain ⟨duration, hduration, rfl⟩ := List.mem_map.1 hspan
  exact Clock.is_exact_of_le (Nat.mul_le_mul_right 1000 (h.durations duration hduration))

/-- The loops that always run have periods. -/
theorem IsValid.intervals_ne_zero (h : config.IsValid) :
    Clock.ofSeconds config.coordinator.sweepInterval ≠ 0 ∧
      Clock.ofSeconds config.store.evictionInterval ≠ 0 ∧
      Clock.ofSeconds config.coordinator.statsInterval ≠ 0 := by
  have hperiods := h.periods
  simp only [Config.periods, List.forall_mem_cons] at hperiods
  obtain ⟨hsweep, -, hstats, heviction, -⟩ := hperiods
  exact ⟨Clock.of_seconds_ne_zero.2 hsweep, Clock.of_seconds_ne_zero.2 heviction,
    Clock.of_seconds_ne_zero.2 hstats⟩

end Config

end PeerFinder
