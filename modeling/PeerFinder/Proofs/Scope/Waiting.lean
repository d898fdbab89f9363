import PeerFinder.Proofs.Scope.Lineage

/-!
# Waits for the end of scopes

While scopes are derived and cancelled, others wait for their end. `Forest.IsSound` says what holds of
scopes and of the waits for them, and every step keeps it. `Forest.Path.scopes_follow_lineage` is the
result: a scope is done from the earliest of the cancels and the timeouts on its way up to its root, and
a wait for its end returns at the first instant at which it is done.
-/

namespace PeerFinder

namespace Forest

variable {forest after : Forest} {branch : Branch} {lineage : List Nat} {number : Nat}
  {instant later : Clock.Instant} {waiting : Waiting} {jumped : Bool}

/-- What holds of a wait for the end of a scope. -/
structure IsAwaited (forest : Forest) (branch : Branch) (waiting : Waiting) : Prop where
  wait : waiting.wait = branch.scope.wait
  begun : waiting.begun ≤ forest.now
  returned : ∀ instant ∈ waiting.returned, waiting.done = some instant
  done : ∀ instant ∈ waiting.done, waiting.begun ≤ instant ∧ instant ≤ forest.now ∧
    ∃ stop ∈ forest.stops branch.lineage, stop ≤ instant
  prompt : waiting.returned = none → ∀ instant ∈ waiting.done, instant = forest.now
  ahead : forest.jumped = false → waiting.done = none →
    waiting.begun = forest.now ∨ ∀ stop ∈ forest.stops branch.lineage, forest.now ≤ stop
  first : forest.jumped = false → ∀ instant ∈ waiting.done,
    instant = waiting.begun ∨ ∀ stop ∈ forest.stops branch.lineage, instant ≤ stop

/-- A wait goes on as before when nothing stops its scope but what does so now. -/
theorem IsAwaited.frame (h : forest.IsAwaited branch waiting) {moved : Branch}
    (hscope : moved.scope = branch.scope) (hnow : after.now = forest.now)
    (hjumped : after.jumped = forest.jumped)
    (hold : ∀ stop ∈ forest.stops branch.lineage, stop ∈ after.stops moved.lineage)
    (hnew : ∀ stop ∈ after.stops moved.lineage,
      stop ∈ forest.stops branch.lineage ∨ stop = forest.now) : after.IsAwaited moved waiting where
  wait := hscope ▸ h.wait
  begun := hnow ▸ h.begun
  returned := h.returned
  done instant hdone := by
    obtain ⟨hbegun, hpast, stop, hstop, hle⟩ := h.done instant hdone
    exact ⟨hbegun, hnow ▸ hpast, stop, hold stop hstop, hle⟩
  prompt hgoes instant hdone := hnow ▸ h.prompt hgoes instant hdone
  ahead hsteady hnone := by
    rw [hnow]
    refine (h.ahead (hjumped ▸ hsteady) hnone).imp_right fun hahead stop hstop => ?_
    exact (hnew stop hstop).elim (hahead stop) fun hsame => Nat.le_of_eq hsame.symm
  first hsteady instant hdone := by
    refine (h.first (hjumped ▸ hsteady) instant hdone).imp_right fun hfirst stop hstop => ?_
    exact (hnew stop hstop).elim (hfirst stop) fun hsame => hsame ▸ (h.done instant hdone).2.1

/-- The scope of a wait is done from when it was seen to be done. -/
theorem IsAwaited.is_done (h : forest.IsAwaited branch waiting) (hrooted : forest.IsRooted)
    (hbranch : branch ∈ forest.branches) (hdone : waiting.done = some instant) :
    branch.scope.isDone forest.tree forest.now = true := by
  obtain ⟨-, hpast, stop, hstop, hle⟩ := h.done instant hdone
  exact (hrooted.is_done_iff hbranch).2 ⟨stop, hstop, Nat.le_trans hle hpast⟩

/-- While a scope is not done and its timer runs, nothing has stopped it. -/
theorem le_stops (hrooted : forest.IsRooted) (hbranch : branch ∈ forest.branches)
    (hrunning : branch.scope.isDone forest.tree forest.now = false)
    (hdeadline : ∀ deadline ∈ branch.scope.deadline, later ≤ deadline) :
    ∀ stop ∈ forest.stops branch.lineage, later ≤ stop := by
  intro stop hstop
  obtain hlimit | hcancel := List.mem_append.1 hstop
  · rw [hrooted.deadline branch hbranch] at hdeadline
    obtain ⟨least, hleast⟩ := Option.isSome_iff_exists.1 (List.isSome_min?_of_mem hlimit)
    exact (List.le_min?_iff hleast).1 (hdeadline least hleast) stop hlimit
  · obtain ⟨number, -, other, hother, hcancelled⟩ := mem_cancels.1 hcancel
    have hpast := hrooted.past other (List.mem_of_getElem? hother) stop hcancelled
    rw [(hrooted.is_done_iff hbranch).2 ⟨stop, hstop, hpast⟩] at hrunning
    cases hrunning

/-- A wait goes on while time passes if it could not return before; unless the clock jumps, its timer is
not over before. -/
theorem IsAwaited.pass (h : forest.IsAwaited branch waiting) (hrooted : forest.IsRooted)
    (hbranch : branch ∈ forest.branches) (hlater : forest.now ≤ later)
    (hwait : waiting.returned = none → waiting.wait.step forest.now forest.tree = none)
    (hwake : jumped = false → forest.jumped = false ∧
      (waiting.returned = none → ∀ wake ∈ waiting.wait.wake, later ≤ wake)) :
    IsAwaited { forest with now := later, jumped := jumped } branch waiting where
  wait := h.wait
  begun := Nat.le_trans h.begun hlater
  returned := h.returned
  done instant hdone := by
    obtain ⟨hbegun, hpast, hstops⟩ := h.done instant hdone
    exact ⟨hbegun, Nat.le_trans hpast hlater, hstops⟩
  prompt hgoes instant hdone := by
    have hblocked := hwait hgoes
    rw [h.wait, Scope.Wait.step_wait_eq_none_iff, h.is_done hrooted hbranch hdone] at hblocked
    cases hblocked
  ahead hsteady hnone := by
    have hgoes : waiting.returned = none := by
      refine Option.eq_none_iff_forall_not_mem.2 fun instant hreturned => ?_
      rw [h.returned instant hreturned] at hnone
      cases hnone
    have hblocked := hwait hgoes
    have htimer := (hwake hsteady).2 hgoes
    rw [h.wait] at hblocked htimer
    have hrunning := Scope.Wait.step_wait_eq_none_iff.1 hblocked
    have hstops := le_stops hrooted hbranch hrunning htimer
    exact .inr hstops
  first hsteady := h.first (hwake hsteady).1

/-- What holds of scopes and the waits for them. -/
structure IsSound (forest : Forest) : Prop where
  rooted : forest.IsRooted
  waits : ∀ waiting ∈ forest.waits, ∃ branch,
    forest.branches[waiting.number]? = some branch ∧ forest.IsAwaited branch waiting

/-- Whether all was seen of the scopes that are waited for. -/
def IsObserved (forest : Forest) : Prop :=
  ∀ waiting ∈ forest.waits, waiting.done = none → forest.isDone waiting.number = false

/-- The scope of a number is done if the one is that has it. -/
theorem is_done_eq (hbranch : forest.branches[number]? = some branch) :
    forest.isDone number = branch.scope.isDone forest.tree forest.now := by
  rw [isDone, hbranch, Option.any_some]

/-- What is seen of scopes is as it was. -/
theorem IsSound.observe (h : forest.IsSound) : forest.observe.IsSound := by
  refine ⟨⟨h.rooted.issued, h.rooted.lineage, h.rooted.above, h.rooted.deadline, h.rooted.cancelled,
    h.rooted.past⟩, fun seen hmem => ?_⟩
  obtain ⟨waiting, hwaiting, rfl⟩ := List.mem_map.1 hmem
  obtain ⟨branch, hbranch, haw⟩ := h.waits waiting hwaiting
  have hrooted := h.rooted
  -- A scope was seen to be done before, or is so now.
  have hcases : ∀ instant ∈ waiting.done.or
      (if forest.isDone waiting.number then some forest.now else none),
      instant ∈ waiting.done ∨ waiting.done = none ∧ instant = forest.now ∧
        branch.scope.isDone forest.tree forest.now = true := by
    intro instant hseen
    rw [is_done_eq hbranch] at hseen
    obtain hold | ⟨hnone, hnew⟩ := Option.or_eq_some_iff.1 hseen
    · exact .inl hold
    · split_ifs at hnew with hdone
      exact .inr ⟨hnone, (Option.some.inj hnew).symm, hdone⟩
  refine ⟨branch, hbranch, haw.wait, haw.begun, fun instant hreturned => ?_,
    fun instant hseen => ?_, fun hgoes instant hseen => ?_, fun hsteady hnone => ?_,
    fun hsteady instant hseen => ?_⟩
  · show waiting.done.or _ = some instant
    rw [haw.returned instant hreturned, Option.some_or]
  · obtain hold | ⟨-, rfl, hdone⟩ := hcases instant hseen
    · exact haw.done instant hold
    · exact ⟨haw.begun, Nat.le_refl _,
        (hrooted.is_done_iff (List.mem_of_getElem? hbranch)).1 hdone⟩
  · obtain hold | ⟨-, hnow, -⟩ := hcases instant hseen
    · exact haw.prompt hgoes instant hold
    · exact hnow
  · exact haw.ahead hsteady (Option.or_eq_none_iff.1 hnone).1
  · obtain hold | ⟨hnone, rfl, -⟩ := hcases instant hseen
    · exact haw.first hsteady instant hold
    · exact (haw.ahead hsteady hnone).imp_left Eq.symm

/-- All is seen of the scopes that are waited for when it is looked for. -/
theorem is_observed_observe (forest : Forest) : forest.observe.IsObserved := by
  intro seen hmem hnone
  obtain ⟨waiting, -, rfl⟩ := List.mem_map.1 hmem
  have hunseen := (Option.or_eq_none_iff.1 hnone).2
  split_ifs at hunseen with hdone
  exact Bool.eq_false_iff.2 hdone

/-- A scope that is derived leaves the waits alone. -/
theorem IsSound.grow {derived : Scope × ScopeTree} {timeout : Option Clock.Span}
    (h : forest.IsSound) (hrooted : (forest.grow derived lineage timeout).IsRooted) :
    (forest.grow derived lineage timeout).IsSound := by
  refine ⟨hrooted, fun waiting hmem => ?_⟩
  obtain ⟨branch, hbranch, haw⟩ := h.waits waiting hmem
  have habove := h.rooted.above branch (List.mem_of_getElem? hbranch)
  have hstops : (forest.grow derived lineage timeout).stops branch.lineage =
      forest.stops branch.lineage := by
    rw [stops, (stops_grow habove).1, (stops_grow habove).2, stops]
  exact ⟨branch, get_grow hbranch, haw.frame rfl rfl rfl (fun stop hstop => hstops ▸ hstop)
    fun stop hstop => .inl (hstops ▸ hstop)⟩

/-- A cancel leaves the waits alone. -/
theorem IsSound.cancel (h : forest.IsSound) (hbranch : forest.branches[number]? = some branch) :
    (forest.cancel number branch).IsSound := by
  refine ⟨h.rooted.cancel hbranch, fun waiting hmem => ?_⟩
  obtain ⟨awaited, hawaited, haw⟩ := h.waits waiting hmem
  obtain ⟨moved, hmoved, hscope, hlineage, -⟩ := exists_get_cancel hbranch hawaited
  obtain ⟨hold, hnew⟩ := stops_cancel hbranch awaited.lineage
  refine ⟨moved, hmoved, haw.frame hscope rfl rfl ?_ ?_⟩
  · rw [hlineage]
    exact hold
  · rw [hlineage]
    exact hnew

/-- Time that passes leaves the scopes alone. -/
theorem IsRooted.pass (h : forest.IsRooted) (hlater : forest.now ≤ later) (jumped : Bool) :
    IsRooted { forest with now := later, jumped := jumped } :=
  ⟨h.issued, h.lineage, h.above, h.deadline, h.cancelled,
    fun branch hmem instant hinstant => Nat.le_trans (h.past branch hmem instant hinstant) hlater⟩

/-- Every wait goes on while time passes. -/
theorem IsSound.pass (h : forest.IsSound) (hlater : forest.now ≤ later) (jumped : Bool)
    (hsettled : forest.IsSettled)
    (hwake : jumped = false → forest.jumped = false ∧ ∀ waiting ∈ forest.waits,
      waiting.returned = none → ∀ wake ∈ waiting.wait.wake, later ≤ wake) :
    IsSound { forest with now := later, jumped := jumped } := by
  refine ⟨h.rooted.pass hlater jumped, fun waiting hmem => ?_⟩
  obtain ⟨branch, hbranch, haw⟩ := h.waits waiting hmem
  exact ⟨branch, hbranch, haw.pass h.rooted (List.mem_of_getElem? hbranch) hlater
    (hsettled waiting hmem) fun hsteady => (hwake hsteady).imp_right fun hall => hall waiting hmem⟩

/-- The earlier of the earliest of several instants and another one. -/
theorem earlier_min (instants : List Clock.Instant) (instant : Option Clock.Instant) :
    Clock.earlier instants.min? instant = (instant.toList ++ instants).min? := by
  cases instant with
  | none => cases hleast : instants.min? <;> simp [Clock.earlier, hleast]
  | some instant =>
      rw [Option.toList_some, List.singleton_append, List.min?_cons]
      cases instants.min? with
      | none => rfl
      | some least => exact congrArg some (Nat.min_comm least instant)

/-- Every step keeps what holds of scopes and the waits for them. -/
theorem Step.is_sound (hstep : Step forest after) (h : forest.IsSound)
    (hobserved : forest.IsObserved) : after.IsSound ∧ after.IsObserved := by
  have hrooted := h.rooted
  cases hstep with
  | new =>
      have hgrown := hrooted.grow (Scope.new forest.tree) [] none rfl rfl rfl nofun rfl
      exact ⟨(h.grow hgrown).observe, is_observed_observe _⟩
  | child parent hparent =>
      obtain ⟨number, hnumber⟩ := List.mem_iff_getElem?.1 hparent
      have htoken := (hrooted.lineage number parent hnumber).1
      have hgrown := hrooted.grow (parent.scope.child forest.tree) parent.lineage none rfl rfl
        (congrArg _ htoken)
        (hrooted.above parent hparent) (hrooted.deadline parent hparent)
      exact ⟨(h.grow hgrown).observe, is_observed_observe _⟩
  | withTimeout parent span hparent =>
      obtain ⟨number, hnumber⟩ := List.mem_iff_getElem?.1 hparent
      have htoken := (hrooted.lineage number parent hnumber).1
      have hdeadline : (parent.scope.withTimeout forest.now span forest.tree).1.deadline =
          ((Clock.after? forest.now span).toList ++ forest.limits parent.lineage).min? := by
        rw [← earlier_min, ← hrooted.deadline parent hparent]
        rfl
      have hgrown := hrooted.grow (parent.scope.withTimeout forest.now span forest.tree)
        parent.lineage (some span) rfl rfl (congrArg _ htoken)
        (hrooted.above parent hparent) hdeadline
      exact ⟨(h.grow hgrown).observe, is_observed_observe _⟩
  | cancel number branch hbranch => exact ⟨(h.cancel hbranch).observe, is_observed_observe _⟩
  | wait number branch hbranch =>
      refine ⟨IsSound.observe ⟨⟨hrooted.issued, hrooted.lineage, hrooted.above, hrooted.deadline,
        hrooted.cancelled, hrooted.past⟩, fun waiting hmem => ?_⟩, is_observed_observe _⟩
      obtain hold | hnew := List.mem_append.1 hmem
      · obtain ⟨awaited, hawaited, haw⟩ := h.waits waiting hold
        exact ⟨awaited, hawaited, haw.frame rfl rfl rfl (fun _ hstop => hstop) fun _ => .inl⟩
      · obtain rfl := List.mem_singleton.1 hnew
        exact ⟨branch, hbranch, rfl, Nat.le_refl _, nofun, nofun, fun _ => nofun,
          fun _ _ => .inl rfl, fun _ => nofun⟩
  | finish before waiting later tree hwaits hgoes hreturns =>
      obtain ⟨branch, hbranch, haw⟩ := h.waits waiting (by simp [hwaits])
      rw [haw.wait, Scope.Wait.step_wait] at hreturns
      split_ifs at hreturns with hdone
      obtain rfl := (Prod.mk.inj (Option.some.inj hreturns)).1
      have hseen : waiting.done = some forest.now := by
        cases hnone : waiting.done with
        | none =>
            have hrunning := hobserved waiting (by simp [hwaits]) hnone
            rw [is_done_eq hbranch, hdone] at hrunning
            cases hrunning
        | some instant => rw [haw.prompt hgoes instant hnone]
      refine ⟨IsSound.observe ⟨⟨hrooted.issued, hrooted.lineage, hrooted.above, hrooted.deadline,
        hrooted.cancelled, hrooted.past⟩, fun moved hmem => ?_⟩, is_observed_observe _⟩
      simp only [List.mem_append, List.mem_cons] at hmem
      obtain hbefore | rfl | hlater := hmem
      · obtain ⟨awaited, hawaited, hsame⟩ := h.waits moved (by simp [hwaits, hbefore])
        exact ⟨awaited, hawaited, hsame.frame rfl rfl rfl (fun _ hstop => hstop) fun _ => .inl⟩
      · refine ⟨branch, hbranch, haw.wait, haw.begun, fun instant hnow => ?_, haw.done, nofun,
          haw.ahead, haw.first⟩
        obtain rfl := Option.some.inj hnow
        exact hseen
      · obtain ⟨awaited, hawaited, hsame⟩ := h.waits moved (by simp [hwaits, hlater])
        exact ⟨awaited, hawaited, hsame.frame rfl rfl rfl (fun _ hstop => hstop) fun _ => .inl⟩
  | pass later hlater hsettled hwake =>
      have hpassed := h.pass hlater forest.jumped hsettled fun hsteady => ⟨hsteady, hwake⟩
      exact ⟨hpassed.observe, is_observed_observe _⟩
  | jump later hlater hsettled =>
      have hpassed := h.pass hlater true hsettled nofun
      exact ⟨hpassed.observe, is_observed_observe _⟩

/-- No step takes a cancel back, or time. -/
theorem Step.is_cancelled (hstep : Step forest after) :
    forest.now ≤ after.now ∧ ∀ token, forest.tree.isCancelled token = true →
      after.tree.isCancelled token = true := by
  cases hstep with
  | new | child | withTimeout | wait => exact ⟨Nat.le_refl _, fun _ h => h⟩
  | cancel number branch hbranch =>
      exact ⟨Nat.le_refl _, fun _ h => ScopeTree.is_cancelled_cancel_of _ h⟩
  | finish before waiting later tree hwaits hgoes hreturns =>
      exact ⟨Nat.le_refl _, fun _ h => (Scope.Wait.tree_of_step hreturns).symm ▸ h⟩
  | pass later hlater | jump later hlater => exact ⟨hlater, fun _ h => h⟩

namespace Path

/-- A scope that is done stays so. -/
theorem is_done {scope : Scope} (hpath : Path forest after)
    (hdone : scope.isDone forest.tree forest.now = true) :
    scope.isDone after.tree after.now = true := by
  have hkept : forest.now ≤ after.now ∧ ∀ token, forest.tree.isCancelled token = true →
      after.tree.isCancelled token = true := by
    induction hpath with
    | refl => exact ⟨Nat.le_refl _, fun _ h => h⟩
    | step middle after hpath hstep ih =>
        obtain ⟨hnow, hcancelled⟩ := hstep.is_cancelled
        exact ⟨Nat.le_trans ih.1 hnow, fun token h => hcancelled token (ih.2 token h)⟩
  exact Scope.is_done_of_later hkept.1 hkept.2 hdone

/-- What holds of scopes and the waits for them holds along every path from none. -/
theorem is_sound {start : Clock.Instant} (hpath : Path { now := start } forest) :
    forest.IsSound ∧ forest.IsObserved := by
  generalize horigin : ({ now := start } : Forest) = origin at hpath
  induction hpath with
  | refl =>
      subst horigin
      refine ⟨⟨⟨rfl, nofun, nofun, nofun, fun token => ?_, nofun⟩, nofun⟩, nofun⟩
      simp
  | step middle after hpath hstep ih =>
      obtain ⟨hsound, hobserved⟩ := ih
      exact hstep.is_sound hsound hobserved

end Path

/-- Unless the clock jumped, the scope of a wait is first seen to be done at the earliest instant at
which it stops, or when the wait begins if that is later. -/
theorem IsAwaited.ends_eq (h : forest.IsAwaited branch waiting) (hsteady : forest.jumped = false)
    (hdone : waiting.done = some instant) :
    (forest.ends branch.lineage).map (max waiting.begun) = some instant := by
  obtain ⟨hbegun, -, stop, hstop, hle⟩ := h.done instant hdone
  obtain ⟨least, hleast⟩ := Option.isSome_iff_exists.1 (List.isSome_min?_of_mem hstop)
  obtain ⟨hmem, hleast_le⟩ := List.min?_eq_some_iff.1 hleast
  have hearly : least ≤ instant := Nat.le_trans (hleast_le stop hstop) hle
  rw [ends, hleast, Option.map_some, Option.some.injEq]
  obtain hnow | hfirst := h.first hsteady instant hdone
  · rw [max_eq_left (hnow ▸ hearly), hnow]
  · rw [Nat.le_antisymm hearly (hfirst least hmem), max_eq_right hbegun]

/-- A scope is cancelled exactly if it or one of those above it was, whenever it was derived. Its
deadline is the earliest of the deadlines above it and of the instants at which the timeouts are over
with which it or one above it was derived, as far as the clock reaches them. So it is done exactly from
the earliest of the cancels and the timeouts on, those below it are done with it, and it stays done. A
wait for its end can return exactly if it is done, and returns at the first instant at which it is done
while it is waited for: unless the clock jumps, at the earliest of the cancels and the timeouts, or when
it begins if that is later. -/
theorem Path.scopes_follow_lineage {start : Clock.Instant} (hpath : Path { now := start } forest)
    (hbranch : forest.branches[number]? = some branch) :
    (branch.scope.isCancelled forest.tree = true ↔ ∃ above ∈ branch.lineage,
      ∃ other, forest.branches[above]? = some other ∧ other.cancelled ≠ none) ∧
    branch.scope.deadline =
      (forest.deadlines branch.lineage.tail ++ forest.limits branch.lineage).min? ∧
    (branch.scope.isDone forest.tree forest.now = true ↔
      ∃ least ∈ forest.ends branch.lineage, least ≤ forest.now) ∧
    (branch.scope.isDone forest.tree forest.now = true →
      (∀ below ∈ forest.branches, number ∈ below.lineage →
        below.scope.isDone forest.tree forest.now = true) ∧
      ∀ after, Path forest after → branch.scope.isDone after.tree after.now = true) ∧
    ∀ waiting ∈ forest.waits, waiting.number = number →
      waiting.wait.step forest.now forest.tree =
        (if branch.scope.isDone forest.tree forest.now then some (forest.tree, .inr ()) else none) ∧
      (∀ instant ∈ waiting.returned, waiting.done = some instant) ∧
      (waiting.returned = none → branch.scope.isDone forest.tree forest.now = true →
        waiting.done = some forest.now) ∧
      (forest.jumped = false → ∀ instant ∈ waiting.done,
        (forest.ends branch.lineage).map (max waiting.begun) = some instant) := by
  obtain ⟨⟨hrooted, hwaits⟩, hobserved⟩ := hpath.is_sound
  have hmember := List.mem_of_getElem? hbranch
  refine ⟨hrooted.is_cancelled_iff hmember, hrooted.deadline_eq hmember, ?_,
    fun hdone => ⟨fun below hbelow hmem => ?_, fun after hafter => hafter.is_done hdone⟩,
    fun waiting hwaiting hnumber => ?_⟩
  · rw [hrooted.is_done_iff hmember, ends, exists_min_le_iff]
  · exact hrooted.is_done_of_mem_lineage hbranch hdone hbelow hmem
  · obtain ⟨found, hfound, haw⟩ := hwaits waiting hwaiting
    rw [hnumber] at hfound
    obtain rfl := Option.some.inj (hbranch.symm.trans hfound)
    refine ⟨haw.wait ▸ Scope.Wait.step_wait _ _ _, haw.returned, fun hgoes hdone => ?_,
      fun hsteady instant hseen => haw.ends_eq hsteady hseen⟩
    cases hseen : waiting.done with
    | none =>
        have hrunning := hobserved waiting hwaiting hseen
        rw [hnumber, is_done_eq hbranch, hdone] at hrunning
        cases hrunning
    | some instant => rw [haw.prompt hgoes instant hseen]

/-- The root above a scope is cancelled before the timeout of the scope is over: a wait for the scope
returns with the cancel, and a scope that is derived later is cancelled from the start. -/
theorem Path.scopes_follow_lineage_cancelled_above :
    ∃ forest waited derived, Path { now := 0 } forest ∧ forest.now = 3 ∧ forest.jumped = false ∧
      forest.branches[1]? = some waited ∧ waited.scope.deadline = some 5 ∧
      (∃ waiting ∈ forest.waits, waiting.returned = some 3 ∧
        (forest.ends waited.lineage).map (max waiting.begun) = some 3) ∧
      forest.branches[2]? = some derived ∧ derived.scope.isDone forest.tree forest.now = true ∧
      ∀ after, Path forest after → derived.scope.isDone after.tree after.now = true := by
  have hroot := Path.step _ _ _ (.refl { now := 0 }) (.new _)
  have hwaited := Path.step _ _ _ hroot (.withTimeout _ _ 5 (List.mem_of_getElem? (i := 0) rfl))
  have hwait := Path.step _ _ _ hwaited (.wait _ 1 _ rfl)
  have hpassed := Path.step _ _ _ hwait (.pass _ 3 (by decide)
    (by
      intro waiting hmem _
      obtain rfl := List.mem_singleton.1 hmem
      rfl)
    (by
      intro waiting hmem _ wake hwake
      obtain rfl := List.mem_singleton.1 hmem
      obtain rfl := Option.some.inj hwake
      decide))
  have hcancelled := Path.step _ _ _ hpassed (.cancel _ 0 _ rfl)
  have hreturned := Path.step _ _ _ hcancelled (.finish _ [] _ [] _ rfl rfl rfl)
  have hderived := Path.step _ _ _ hreturned (.child _ _ (List.mem_of_getElem? (i := 1) rfl))
  obtain ⟨-, -, -, -, hwaits⟩ := @scopes_follow_lineage _ _ 1 _ hderived rfl
  obtain ⟨-, hseen, -, hends⟩ := hwaits _ (List.mem_singleton_self _) rfl
  obtain ⟨-, -, -, hdone, -⟩ := @scopes_follow_lineage _ _ 2 _ hderived rfl
  exact ⟨_, _, _, hderived, rfl, rfl, rfl, rfl,
    ⟨_, List.mem_singleton_self _, rfl, hends rfl 3 (hseen 3 rfl)⟩, rfl, rfl, (hdone rfl).2⟩

end Forest

end PeerFinder
