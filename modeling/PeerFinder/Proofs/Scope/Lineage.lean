import Mathlib.Data.List.Basic
import Mathlib.Order.MinMax
import PeerFinder.Proofs.Environment.Surroundings

/-!
# Scopes and the scopes above them

Scopes are derived from one another, cancelled and waited for in any order while time passes. The cancel
of a scope reaches those below it through the tokens, and its deadline is copied when they are derived:
`Forest.Path.scopes_follow_lineage` says that both come to the same. A scope is done from the earliest of
the cancels and the timeouts on its way up to the root, and a wait for its end returns at the first
instant at which it is done.
-/

namespace PeerFinder

namespace Scope.Wait

variable {scope : Scope} {now : Clock.Instant} {tree : ScopeTree}

/-- A wait for the end of a scope returns exactly if the scope is done, and changes nothing. -/
theorem step_wait (scope : Scope) (now : Clock.Instant) (tree : ScopeTree) :
    scope.wait.step now tree = if scope.isDone tree now then some (tree, .inr ()) else none := by
  unfold step wait isDone isCancelled
  cases hcancelled : tree.isCancelled scope.token with
  | true => rfl
  | false => cases scope.deadline <;> simp

/-- A step of a wait cancels nothing. -/
theorem tree_of_step {wait : Wait} {after : ScopeTree} {next : Wait ⊕ Unit}
    (hstep : wait.step now tree = some (after, next)) : after = tree := by
  unfold step at hstep
  split_ifs at hstep
  · cases hstep
    rfl
  · split at hstep
    · split_ifs at hstep
      cases hstep
      rfl
    · cases hstep

/-- A wait for the end of a scope goes on exactly while the scope is not done. -/
theorem step_wait_eq_none_iff :
    scope.wait.step now tree = none ↔ scope.isDone tree now = false := by
  rw [step_wait]
  cases scope.isDone tree now <;> simp

end Scope.Wait

/-- A scope of a forest: itself and the scopes that it was derived from, nearest first, when and with
what timeout it was derived, and when it was first cancelled itself. -/
structure Branch where
  scope : Scope
  lineage : List Nat
  timeout : Option (Clock.Instant × Clock.Span) := none
  cancelled : Option Clock.Instant := none

namespace Branch

/-- The instant at which the timeout of a scope is over, if it has one that the clock reaches. -/
def limit? (branch : Branch) : Option Clock.Instant :=
  branch.timeout.bind fun timeout => Clock.after? timeout.1 timeout.2

/-- The scope cancelled at an instant, if it was not before. -/
def cancel (branch : Branch) (now : Clock.Instant) : Branch :=
  { branch with cancelled := branch.cancelled.or (some now) }

end Branch

/-- A wait for the end of a scope: since when the scope has been done while it is waited for, and when
the wait has returned. -/
structure Waiting where
  number : Nat
  wait : Scope.Wait
  begun : Clock.Instant
  done : Option Clock.Instant := none
  returned : Option Clock.Instant := none

/-- Scopes in the order they were derived, the tree that they live in, and the waits for them. -/
structure Forest where
  now : Clock.Instant
  tree : ScopeTree := {}
  branches : List Branch := []
  waits : List Waiting := []
  /-- Whether the clock went past an instant at which a wait was to return. -/
  jumped : Bool := false

namespace Forest

/-- The instants at which the timeouts are over of scopes that are given by number. -/
def limits (forest : Forest) (lineage : List Nat) : List Clock.Instant :=
  lineage.filterMap fun number => forest.branches[number]?.bind Branch.limit?

/-- The deadlines of scopes that are given by number. -/
def deadlines (forest : Forest) (lineage : List Nat) : List Clock.Instant :=
  lineage.filterMap fun number => forest.branches[number]?.bind fun branch => branch.scope.deadline

/-- The instants at which scopes were cancelled that are given by number. -/
def cancels (forest : Forest) (lineage : List Nat) : List Clock.Instant :=
  lineage.filterMap fun number => forest.branches[number]?.bind Branch.cancelled

/-- The instants at which scopes were cancelled or their timeouts are over. -/
def stops (forest : Forest) (lineage : List Nat) : List Clock.Instant :=
  forest.limits lineage ++ forest.cancels lineage

/-- The earliest instant at which one of several scopes was cancelled or its timeout is over. -/
def ends (forest : Forest) (lineage : List Nat) : Option Clock.Instant :=
  (forest.stops lineage).min?

/-- Whether the scope of a number is done. -/
def isDone (forest : Forest) (number : Nat) : Bool :=
  forest.branches[number]?.any fun branch => branch.scope.isDone forest.tree forest.now

/-- See whether the scopes are done that are waited for. -/
def observe (forest : Forest) : Forest :=
  { forest with
    waits := forest.waits.map fun waiting =>
      { waiting with
        done := waiting.done.or (if forest.isDone waiting.number then some forest.now else none) } }

/-- A scope that is derived from those of a lineage now. -/
def sprout (forest : Forest) (scope : Scope) (lineage : List Nat) (timeout : Option Clock.Span) :
    Branch where
  scope := scope
  lineage := forest.branches.length :: lineage
  timeout := timeout.map fun span => (forest.now, span)

/-- Add a scope that was derived from those of a lineage. -/
def grow (forest : Forest) (derived : Scope × ScopeTree) (lineage : List Nat)
    (timeout : Option Clock.Span) : Forest :=
  { forest with
    tree := derived.2
    branches := forest.branches ++ [forest.sprout derived.1 lineage timeout] }

/-- Cancel the scope of a number. -/
def cancel (forest : Forest) (number : Nat) (branch : Branch) : Forest :=
  { forest with
    tree := forest.tree.cancel branch.scope.token
    branches := forest.branches.set number (branch.cancel forest.now) }

/-- Whether no wait that has not returned can do so. -/
def IsSettled (forest : Forest) : Prop :=
  ∀ waiting ∈ forest.waits, waiting.returned = none →
    waiting.wait.step forest.now forest.tree = none

/-- The single steps of scopes and of waits for them. -/
inductive Step : Forest → Forest → Prop where
  | new (forest : Forest) : Step forest (observe (forest.grow (Scope.new forest.tree) [] none))
  | child (forest : Forest) (parent : Branch) (hparent : parent ∈ forest.branches) :
      Step forest
        (observe (forest.grow (parent.scope.child forest.tree) parent.lineage none))
  | withTimeout (forest : Forest) (parent : Branch) (span : Clock.Span)
      (hparent : parent ∈ forest.branches) :
      Step forest
        (observe (forest.grow (parent.scope.withTimeout forest.now span forest.tree) parent.lineage
          (some span)))
  | cancel (forest : Forest) (number : Nat) (branch : Branch)
      (hbranch : forest.branches[number]? = some branch) :
      Step forest
        (observe (forest.cancel number branch))
  | wait (forest : Forest) (number : Nat) (branch : Branch)
      (hbranch : forest.branches[number]? = some branch) :
      Step forest
        (observe { forest with
          waits := forest.waits ++
            [{ number := number, wait := branch.scope.wait, begun := forest.now }] })
  /-- A wait returns. -/
  | finish (forest : Forest) (before : List Waiting) (waiting : Waiting) (later : List Waiting)
      (tree : ScopeTree) (hwaits : forest.waits = before ++ waiting :: later)
      (hwaiting : waiting.returned = none)
      (hstep : waiting.wait.step forest.now forest.tree = some (tree, .inr ())) :
      Step forest
        (observe { forest with
          tree := tree
          waits := before ++ { waiting with returned := some forest.now } :: later })
  /-- Time passes, and not beyond an instant at which a wait goes on by itself. -/
  | pass (forest : Forest) (later : Clock.Instant) (hlater : forest.now ≤ later)
      (hsettled : forest.IsSettled)
      (hwake : ∀ waiting ∈ forest.waits, waiting.returned = none →
        ∀ wake ∈ waiting.wait.wake, later ≤ wake) :
      Step forest (observe { forest with now := later })
  /-- The clock goes on at once by any span. -/
  | jump (forest : Forest) (later : Clock.Instant) (hlater : forest.now ≤ later)
      (hsettled : forest.IsSettled) :
      Step forest (observe { forest with now := later, jumped := true })

/-- Steps one after another. -/
inductive Path : Forest → Forest → Prop where
  | refl (forest : Forest) : Path forest forest
  | step (forest middle after : Forest) (hpath : Path forest middle) (hstep : Step middle after) :
      Path forest after

/-! ## Scopes -/

/-- The earliest of several instants is past exactly if one of them is. -/
theorem exists_min_le_iff {instants : List Clock.Instant} {now : Clock.Instant} :
    (∃ least ∈ instants.min?, least ≤ now) ↔ ∃ instant ∈ instants, instant ≤ now := by
  constructor
  · intro hleast
    obtain ⟨least, hmem, hle⟩ := hleast
    exact ⟨least, List.min?_mem hmem, hle⟩
  · intro hinstant
    obtain ⟨instant, hmem, hle⟩ := hinstant
    obtain ⟨least, hleast⟩ := Option.isSome_iff_exists.1 (List.isSome_min?_of_mem hmem)
    exact ⟨least, hleast, Nat.le_trans ((List.le_min?_iff hleast).1 (Nat.le_refl _) instant hmem) hle⟩

/-- Instants that are among others do not change which is the earliest. -/
theorem min_append_of_subset {fewer instants : List Clock.Instant}
    (hsubset : ∀ instant ∈ fewer, instant ∈ instants) :
    (fewer ++ instants).min? = instants.min? := by
  cases hleast : instants.min? with
  | none =>
      obtain rfl := List.min?_eq_none_iff.1 hleast
      rw [List.append_nil, List.min?_eq_none_iff]
      exact List.eq_nil_iff_forall_not_mem.2 fun instant hmem => nomatch hsubset instant hmem
  | some least =>
      rw [List.min?_eq_some_iff] at hleast ⊢
      refine ⟨List.mem_append_right _ hleast.1, fun instant hmem => hleast.2 instant ?_⟩
      exact (List.mem_append.1 hmem).elim (hsubset instant) id

variable {forest after : Forest} {branch : Branch} {lineage : List Nat} {number : Nat}
  {instant : Clock.Instant}

/-- Scopes were cancelled at an instant if one of them was. -/
theorem mem_cancels : instant ∈ forest.cancels lineage ↔ ∃ number ∈ lineage,
    ∃ branch, forest.branches[number]? = some branch ∧ branch.cancelled = some instant := by
  simp [cancels, List.mem_filterMap, Option.bind_eq_some_iff]

/-- What holds of scopes and of the tree that they live in. -/
structure IsRooted (forest : Forest) : Prop where
  issued : forest.tree.issued = forest.branches.length
  lineage : ∀ (number : Nat) (branch : Branch), forest.branches[number]? = some branch →
    branch.scope.token = branch.lineage ∧ ∃ rest, branch.lineage = number :: rest
  above : ∀ branch ∈ forest.branches, ∀ number ∈ branch.lineage,
    ∃ other, forest.branches[number]? = some other ∧ other.lineage <:+ branch.lineage
  deadline : ∀ branch ∈ forest.branches,
    branch.scope.deadline = (forest.limits branch.lineage).min?
  cancelled : ∀ token, token ∈ forest.tree.cancelled ↔
    ∃ branch ∈ forest.branches, branch.cancelled ≠ none ∧ branch.lineage = token
  past : ∀ branch ∈ forest.branches, ∀ instant ∈ branch.cancelled, instant ≤ forest.now

namespace IsRooted

/-- A scope is cancelled exactly if it or one of those above it was. -/
theorem is_cancelled_iff (h : forest.IsRooted) (hbranch : branch ∈ forest.branches) :
    branch.scope.isCancelled forest.tree = true ↔ ∃ number ∈ branch.lineage,
      ∃ other, forest.branches[number]? = some other ∧ other.cancelled ≠ none := by
  obtain ⟨own, hown⟩ := List.mem_iff_getElem?.1 hbranch
  rw [Scope.isCancelled, ScopeTree.isCancelled, (h.lineage own branch hown).1, List.any_eq_true]
  constructor
  · intro hcancelled
    obtain ⟨token, hmem, hsuffix⟩ := hcancelled
    rw [List.isSuffixOf_iff_suffix] at hsuffix
    obtain ⟨other, hother, hsome, rfl⟩ := (h.cancelled token).1 hmem
    obtain ⟨number, hnumber⟩ := List.mem_iff_getElem?.1 hother
    obtain ⟨-, rest, hrest⟩ := h.lineage number other hnumber
    -- The lineage of a scope begins with its own number.
    have hmember : number ∈ branch.lineage := hsuffix.subset (hrest ▸ List.mem_cons_self)
    exact ⟨number, hmember, other, hnumber, hsome⟩
  · intro habove
    obtain ⟨number, hmember, other, hnumber, hsome⟩ := habove
    obtain ⟨found, hfound, hsuffix⟩ := h.above branch hbranch number hmember
    obtain rfl := Option.some.inj (hnumber.symm.trans hfound)
    have hmem := (h.cancelled _).2 ⟨other, List.mem_of_getElem? hnumber, hsome, rfl⟩
    exact ⟨other.lineage, hmem, List.isSuffixOf_iff_suffix.2 hsuffix⟩

/-- A scope is done exactly from the earliest instant on at which it or one of those above it was
cancelled or its timeout is over. -/
theorem is_done_iff (h : forest.IsRooted) (hbranch : branch ∈ forest.branches) :
    branch.scope.isDone forest.tree forest.now = true ↔
      ∃ stop ∈ forest.stops branch.lineage, stop ≤ forest.now := by
  have hcancelled : branch.scope.isCancelled forest.tree = true ↔
      ∃ stop ∈ forest.cancels branch.lineage, stop ≤ forest.now := by
    rw [h.is_cancelled_iff hbranch]
    constructor
    · intro habove
      obtain ⟨number, hmember, other, hnumber, hsome⟩ := habove
      obtain ⟨stop, hstop⟩ := Option.ne_none_iff_exists'.1 hsome
      exact ⟨stop, mem_cancels.2 ⟨number, hmember, other, hnumber, hstop⟩,
        h.past other (List.mem_of_getElem? hnumber) stop hstop⟩
    · intro hstops
      obtain ⟨stop, hmem, -⟩ := hstops
      obtain ⟨number, hmember, other, hnumber, hstop⟩ := mem_cancels.1 hmem
      exact ⟨number, hmember, other, hnumber, by rw [hstop]; nofun⟩
  have hdeadline : branch.scope.deadline.any (· ≤ forest.now) = true ↔
      ∃ stop ∈ forest.limits branch.lineage, stop ≤ forest.now := by
    rw [← exists_min_le_iff, ← h.deadline branch hbranch]
    simp [Option.any_eq_true]
  simp only [Scope.isDone, Bool.or_eq_true, hcancelled, hdeadline, stops, List.mem_append, or_and_right,
    exists_or]
  exact or_comm

/-- The deadline of a scope is the earliest of those above it and of the instants at which the timeouts
are over with which it or one above it was derived. -/
theorem deadline_eq (h : forest.IsRooted) (hbranch : branch ∈ forest.branches) :
    branch.scope.deadline =
      (forest.deadlines branch.lineage.tail ++ forest.limits branch.lineage).min? := by
  have hsubset : ∀ deadline ∈ forest.deadlines branch.lineage.tail,
      deadline ∈ forest.limits branch.lineage := by
    intro deadline hmem
    obtain ⟨number, hnumber, hdeadline⟩ := List.mem_filterMap.1 hmem
    obtain ⟨other, hother, hdeadline⟩ := Option.bind_eq_some_iff.1 hdeadline
    obtain ⟨found, hfound, hsuffix⟩ := h.above branch hbranch number (List.mem_of_mem_tail hnumber)
    obtain rfl := Option.some.inj (hother.symm.trans hfound)
    rw [h.deadline other (List.mem_of_getElem? hother)] at hdeadline
    exact (hsuffix.sublist.filterMap _).subset (List.min?_mem hdeadline)
  rw [h.deadline branch hbranch, min_append_of_subset hsubset]

/-- The scopes below one that is done are done. -/
theorem is_done_of_mem_lineage (h : forest.IsRooted) (hbranch : forest.branches[number]? = some branch)
    (hdone : branch.scope.isDone forest.tree forest.now = true) {below : Branch}
    (hbelow : below ∈ forest.branches) (hmem : number ∈ below.lineage) :
    below.scope.isDone forest.tree forest.now = true := by
  obtain ⟨found, hfound, hsuffix⟩ := h.above below hbelow number hmem
  obtain rfl := Option.some.inj (hbranch.symm.trans hfound)
  rw [h.is_done_iff (List.mem_of_getElem? hbranch)] at hdone
  rw [h.is_done_iff hbelow]
  obtain ⟨stop, hstop, hpast⟩ := hdone
  have hstops : List.Sublist (forest.stops branch.lineage) (forest.stops below.lineage) :=
    (hsuffix.sublist.filterMap _).append (hsuffix.sublist.filterMap _)
  exact ⟨stop, hstops.subset hstop, hpast⟩

end IsRooted

/-- The timeout of a scope that is derived now is over when the clock says so. -/
theorem limit_sprout (forest : Forest) (scope : Scope) (lineage : List Nat)
    (timeout : Option Clock.Span) : (forest.sprout scope lineage timeout).limit? =
      timeout.bind (Clock.after? forest.now) := by
  cases timeout <;> rfl

section Grow

variable {derived : Scope × ScopeTree} {timeout : Option Clock.Span}

/-- The scopes of a lineage are found where they were when another one is added. -/
theorem get_grow (hbranch : forest.branches[number]? = some branch) :
    (forest.grow derived lineage timeout).branches[number]? = some branch := by
  rw [grow, List.getElem?_append_left (List.getElem?_eq_some_iff.1 hbranch).1]
  exact hbranch

/-- The instants at which the scopes of a lineage stop are the same when another one is added. -/
theorem stops_grow {own : List Nat} (habove : ∀ number ∈ own,
    ∃ other, forest.branches[number]? = some other ∧ other.lineage <:+ own) :
    (forest.grow derived lineage timeout).limits own = forest.limits own ∧
      (forest.grow derived lineage timeout).cancels own = forest.cancels own := by
  constructor
  all_goals
    refine List.filterMap_congr fun number hmem => ?_
    obtain ⟨other, hother, -⟩ := habove number hmem
    rw [get_grow hother, hother]

/-- The scopes with another one are those that there were, and that one. -/
theorem get_grow_cases (hbranch : (forest.grow derived lineage timeout).branches[number]? = some branch) :
    forest.branches[number]? = some branch ∨
      number = forest.branches.length ∧ branch = forest.sprout derived.1 lineage timeout := by
  rw [grow, List.getElem?_append] at hbranch
  split at hbranch
  · exact .inl hbranch
  · obtain ⟨hnumber, hlast⟩ := List.getElem?_eq_some_iff.1 hbranch
    rw [List.length_singleton] at hnumber
    refine .inr ⟨by omega, ?_⟩
    rw [← hlast, List.getElem_singleton]

/-- A scope may be added that was derived from those of a lineage. -/
theorem IsRooted.grow (h : forest.IsRooted) (derived : Scope × ScopeTree) (lineage : List Nat)
    (timeout : Option Clock.Span) (hissued : derived.2.issued = forest.tree.issued + 1)
    (hcancelled : derived.2.cancelled = forest.tree.cancelled)
    (htoken : derived.1.token = forest.tree.issued :: lineage)
    (habove : ∀ number ∈ lineage,
      ∃ other, forest.branches[number]? = some other ∧ other.lineage <:+ lineage)
    (hdeadline : derived.1.deadline = ((timeout.bind (Clock.after? forest.now)).toList ++
      forest.limits lineage).min?) : (forest.grow derived lineage timeout).IsRooted := by
  have hself : (forest.grow derived lineage timeout).branches[forest.branches.length]? =
      some (forest.sprout derived.1 lineage timeout) := by
    rw [Forest.grow, List.getElem?_concat_length]
  have hcases : ∀ branch ∈ (forest.grow derived lineage timeout).branches,
      branch ∈ forest.branches ∨ branch = forest.sprout derived.1 lineage timeout := by
    intro branch hmem
    simpa [Forest.grow] using hmem
  refine ⟨?_, fun number branch hbranch => ?_, fun branch hmem number hnumber => ?_,
    fun branch hmem => ?_, fun token => ?_, fun branch hmem instant hinstant => ?_⟩
  · simp [Forest.grow, hissued, h.issued]
  · obtain hold | ⟨rfl, rfl⟩ := get_grow_cases hbranch
    · exact h.lineage number branch hold
    · exact ⟨by rw [sprout, htoken, h.issued], lineage, rfl⟩
  · obtain hold | rfl := hcases branch hmem
    · obtain ⟨other, hother, hsuffix⟩ := h.above branch hold number hnumber
      exact ⟨other, get_grow hother, hsuffix⟩
    · obtain rfl | hnumber := List.mem_cons.1 hnumber
      · exact ⟨_, hself, List.suffix_rfl⟩
      · obtain ⟨other, hother, hsuffix⟩ := habove number hnumber
        exact ⟨other, get_grow hother, hsuffix.trans (List.suffix_cons _ _)⟩
  · obtain hold | rfl := hcases branch hmem
    · rw [(stops_grow (h.above branch hold)).1]
      exact h.deadline branch hold
    · have hown : (forest.grow derived lineage timeout).limits (forest.branches.length :: lineage) =
          (timeout.bind (Clock.after? forest.now)).toList ++ forest.limits lineage := by
        rw [limits, List.filterMap_cons, hself, Option.bind_some, limit_sprout, ← limits,
          (stops_grow habove).1]
        cases timeout.bind (Clock.after? forest.now) <;> rfl
      exact hdeadline.trans (congrArg List.min? hown.symm)
  · rw [Forest.grow, hcancelled, h.cancelled]
    simp [sprout, or_and_right, exists_or]
  · obtain hold | rfl := hcases branch hmem
    · exact h.past branch hold instant hinstant
    · exact absurd hinstant (Option.not_mem_none instant)

end Grow

section Cancel

variable {own : Nat}

/-- A cancel changes the scope that is cancelled, and of that when it was cancelled. -/
theorem get_cancel (hbranch : forest.branches[own]? = some branch) (number : Nat) :
    (forest.cancel own branch).branches[number]? =
      forest.branches[number]?.map fun other =>
        if own = number then other.cancel forest.now else other := by
  have hlt := (List.getElem?_eq_some_iff.1 hbranch).1
  rw [cancel, List.getElem?_set]
  split_ifs with hsame
  · subst hsame
    simp [hbranch]
  · simp

/-- The scopes after a cancel are those before it, and the one that is cancelled. -/
theorem get_cancel_cases (hbranch : forest.branches[own]? = some branch) {moved : Branch}
    (hmoved : (forest.cancel own branch).branches[number]? = some moved) :
    ∃ other, forest.branches[number]? = some other ∧ moved.scope = other.scope ∧
      moved.lineage = other.lineage ∧
      (moved.cancelled = other.cancelled ∨
        other = branch ∧ moved.cancelled = other.cancelled.or (some forest.now)) := by
  rw [get_cancel hbranch, Option.map_eq_some_iff] at hmoved
  obtain ⟨other, hother, rfl⟩ := hmoved
  refine ⟨other, hother, ?_⟩
  split_ifs with hsame
  · subst hsame
    exact ⟨rfl, rfl, .inr ⟨Option.some.inj (hother.symm.trans hbranch), rfl⟩⟩
  · exact ⟨rfl, rfl, .inl rfl⟩

/-- A scope is where it was after a cancel, and still cancelled if it was so. -/
theorem exists_get_cancel (hbranch : forest.branches[own]? = some branch) {other : Branch}
    (hother : forest.branches[number]? = some other) :
    ∃ moved, (forest.cancel own branch).branches[number]? = some moved ∧
      moved.scope = other.scope ∧ moved.lineage = other.lineage ∧
      ∀ instant ∈ other.cancelled, moved.cancelled = some instant := by
  refine ⟨_, by rw [get_cancel hbranch, hother]; rfl, ?_⟩
  split_ifs
  · refine ⟨rfl, rfl, fun instant hinstant => ?_⟩
    show other.cancelled.or (some forest.now) = some instant
    rw [Option.mem_def.1 hinstant, Option.some_or]
  · exact ⟨rfl, rfl, fun instant hinstant => hinstant⟩

/-- A cancel leaves the timeouts alone. -/
theorem limits_cancel (hbranch : forest.branches[own]? = some branch) (lineage : List Nat) :
    (forest.cancel own branch).limits lineage = forest.limits lineage := by
  refine List.filterMap_congr fun number _ => ?_
  rw [get_cancel hbranch]
  cases forest.branches[number]? with
  | none => rfl
  | some other =>
      simp only [Option.map_some, Option.bind_some]
      split_ifs <;> rfl

/-- What stopped scopes before a cancel does so after it, and nothing else but the cancel does. -/
theorem stops_cancel (hbranch : forest.branches[own]? = some branch) (lineage : List Nat) :
    (∀ stop ∈ forest.stops lineage, stop ∈ (forest.cancel own branch).stops lineage) ∧
      ∀ stop ∈ (forest.cancel own branch).stops lineage,
        stop ∈ forest.stops lineage ∨ stop = forest.now := by
  simp only [stops, List.mem_append, limits_cancel hbranch, mem_cancels]
  constructor
  · rintro stop (hlimit | ⟨number, hmem, other, hother, hstop⟩)
    · exact .inl hlimit
    · obtain ⟨moved, hmoved, -, -, hkept⟩ := exists_get_cancel hbranch hother
      exact .inr ⟨number, hmem, moved, hmoved, hkept stop hstop⟩
  · rintro stop (hlimit | ⟨number, hmem, moved, hmoved, hstop⟩)
    · exact .inl (.inl hlimit)
    · obtain ⟨other, hother, -, -, hsame | ⟨-, hsame⟩⟩ := get_cancel_cases hbranch hmoved
      · exact .inl (.inr ⟨number, hmem, other, hother, hsame ▸ hstop⟩)
      · rw [hsame, Option.or_eq_some_iff] at hstop
        obtain hold | ⟨-, hnow⟩ := hstop
        · exact .inl (.inr ⟨number, hmem, other, hother, hold⟩)
        · exact .inr (Option.some.inj hnow).symm

/-- A scope may be cancelled. -/
theorem IsRooted.cancel (h : forest.IsRooted) (hbranch : forest.branches[own]? = some branch) :
    (forest.cancel own branch).IsRooted := by
  have hcases : ∀ moved ∈ (forest.cancel own branch).branches,
      ∃ (number : Nat) (other : Branch), forest.branches[number]? = some other ∧
        moved.scope = other.scope ∧ moved.lineage = other.lineage ∧ (moved.cancelled = other.cancelled ∨
          other = branch ∧ moved.cancelled = other.cancelled.or (some forest.now)) := by
    intro moved hmem
    obtain ⟨number, hmoved⟩ := List.mem_iff_getElem?.1 hmem
    exact ⟨number, get_cancel_cases hbranch hmoved⟩
  have htoken := (h.lineage own branch hbranch).1
  refine ⟨?_, fun number moved hmoved => ?_, fun moved hmem number hnumber => ?_,
    fun moved hmem => ?_, fun token => ⟨fun hmem => ?_, fun hcancelled => ?_⟩,
    fun moved hmem instant hinstant => ?_⟩
  · rw [Forest.cancel, List.length_set]
    exact h.issued
  · obtain ⟨other, hother, hscope, hlineage, -⟩ := get_cancel_cases hbranch hmoved
    rw [hscope, hlineage]
    exact h.lineage number other hother
  · obtain ⟨_, other, hother, -, hlineage, -⟩ := hcases moved hmem
    rw [hlineage] at hnumber ⊢
    obtain ⟨parent, hparent, hsuffix⟩ := h.above other (List.mem_of_getElem? hother) number hnumber
    obtain ⟨grown, hgrown, -, hsame, -⟩ := exists_get_cancel hbranch hparent
    exact ⟨grown, hgrown, hsame ▸ hsuffix⟩
  · obtain ⟨_, other, hother, hscope, hlineage, -⟩ := hcases moved hmem
    rw [hscope, hlineage, limits_cancel hbranch]
    exact h.deadline other (List.mem_of_getElem? hother)
  · obtain rfl | hmem := List.mem_cons.1 hmem
    · obtain ⟨hlt, -⟩ := List.getElem?_eq_some_iff.1 hbranch
      refine ⟨branch.cancel forest.now, List.mem_set hlt _, ?_, htoken.symm⟩
      simp [Branch.cancel]
    · obtain ⟨other, hother, hsome, rfl⟩ := (h.cancelled token).1 hmem
      obtain ⟨number, hnumber⟩ := List.mem_iff_getElem?.1 hother
      obtain ⟨moved, hmoved, -, hlineage, hkept⟩ := exists_get_cancel hbranch hnumber
      obtain ⟨instant, hinstant⟩ := Option.ne_none_iff_exists'.1 hsome
      exact ⟨moved, List.mem_of_getElem? hmoved, by rw [hkept instant hinstant]; nofun, hlineage⟩
  · obtain ⟨moved, hmem, hsome, rfl⟩ := hcancelled
    obtain ⟨number, other, hother, -, hlineage, hsame | ⟨rfl, -⟩⟩ := hcases moved hmem
    · refine List.mem_cons_of_mem _ ((h.cancelled _).2 ?_)
      exact ⟨other, List.mem_of_getElem? hother, hsame ▸ hsome, hlineage.symm⟩
    · rw [hlineage, ← htoken]
      exact List.mem_cons_self
  · obtain ⟨number, other, hother, -, -, hsame | ⟨-, hsame⟩⟩ := hcases moved hmem
    · exact h.past other (List.mem_of_getElem? hother) instant (hsame ▸ hinstant)
    · rw [Option.mem_def, hsame, Option.or_eq_some_iff] at hinstant
      obtain hold | ⟨-, hnow⟩ := hinstant
      · exact h.past other (List.mem_of_getElem? hother) instant hold
      · exact Nat.le_of_eq (Option.some.inj hnow).symm

end Cancel

end Forest

end PeerFinder
