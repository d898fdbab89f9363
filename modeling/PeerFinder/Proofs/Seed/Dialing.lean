import Mathlib.Algebra.Order.BigOperators.Group.List
import Mathlib.Algebra.Order.Ring.Nat
import Mathlib.Tactic.SplitIfs
import PeerFinder.Proofs.Seed.Interleaving

/-!
# One dial of a seed at a time

Every dial owns the dialing flag of its seed, and a supervisor owns it from its claim until it has
acted on the outcome of its reconnect. A flag counts one while it is set. The owners of a flag and
the flag are balanced: no step changes the one without the other (`Step.is_balanced`), and only
owners connect. An owner that ends therefore releases its seed, and it comes to its end: every one of
its steps takes it closer to that, and it waits only until an instant that is still to come.
-/

namespace PeerFinder.Seed

/-- A connect goes on at once, unless it waits for an instant to come and was not stopped. -/
theorem connect_outcome_eq_none {moment : Moment} {call : BoundedConnect} {transport : Transport}
    (h : connectOutcome? moment call transport = none) :
    moment.stopping = false ∧ moment.now < call.wake := by
  simp only [connectOutcome?, BoundedConnect.outcome?] at h
  split_ifs at h with hstopping hdue hexpires
  exact ⟨Bool.eq_false_iff.2 hstopping,
    Nat.lt_min.2 ⟨Nat.lt_of_not_le hdue, Nat.lt_of_not_le hexpires⟩⟩

namespace Flags

/-- One while a seed is flagged as being dialed, and otherwise zero. -/
def claims (flags : Flags) (id : PeerId) : Nat :=
  if id ∈ flags.dialing then 1 else 0

variable (flags : Flags) (seed id : PeerId)

@[simp]
theorem claims_connect : (flags.connect seed).claims id = flags.claims id := rfl

@[simp]
theorem claims_lose : (flags.lose seed).claims id = flags.claims id := rfl

@[simp]
theorem claims_supervise : (flags.supervise seed).claims id = flags.claims id := rfl

@[simp]
theorem claims_dismiss : (flags.dismiss seed).claims id = flags.claims id := rfl

@[simp]
theorem claims_claim :
    (flags.claim seed).claims id = if seed = id then 1 else flags.claims id := by
  by_cases hid : seed = id <;> simp [claims, claim, hid]

@[simp]
theorem claims_release :
    (flags.release seed).claims id = if seed = id then 0 else flags.claims id := by
  by_cases hid : seed = id <;> simp [claims, release, hid]

end Flags

namespace Dial

/-- How many dialing flags of a seed a dial owns. -/
def owned (id : PeerId) (dial : Dial) : Nat :=
  if dial.seed.id = id then 1 else 0

/-- How many connects to a seed a dial has in flight. -/
def connects (id : PeerId) (dial : Dial) : Nat :=
  if dial.seed.id = id ∧ dial.isConnecting then 1 else 0

/-- How many steps a dial takes at most until it releases a seed. -/
def stepsFor (policy : Policy) (id : PeerId) (dial : Dial) : Nat :=
  if dial.seed.id = id then dial.stepsLeft policy else 0

variable {policy : Policy} {dial : Dial} {board after : Board} {next : Option Dial}

/-- A dial connects only as the owner of the flag. -/
theorem connects_le (id : PeerId) (dial : Dial) : dial.connects id ≤ dial.owned id := by
  unfold connects owned
  split_ifs <;> simp_all

/-- A dial that is settled releases its seed. -/
@[simp]
theorem claims_settle (seed : Seed) (connected : Bool) (board : Board) (id : PeerId) :
    (settle seed connected board).flags.claims id =
      if seed.id = id then 0 else board.flags.claims id := by
  by_cases hid : seed.id = id <;> simp [Flags.claims, hid]

/-- A dial gives up exactly the flags that it owns. -/
theorem Moves.claims_eq (hmoves : Moves policy dial board after next) (id : PeerId)
    (howned : dial.owned id ≤ board.flags.claims id) (hflag : board.flags.claims id ≤ 1) :
    after.flags.claims id + dial.owned id =
      board.flags.claims id + (next.map (owned id)).getD 0 := by
  cases hmoves with
  | went transport point => rfl
  | settled connected _ hpoint hafter =>
      subst hafter
      simp only [owned, claims_settle, Option.map_none, Option.getD_none] at howned ⊢
      split_ifs at howned ⊢ <;> omega

/-- The supervisors that a dial calls for are yet to begin. -/
theorem Moves.recruits_eq (hmoves : Moves policy dial board after next) :
    ∃ recruits, after.recruits = board.recruits ++ recruits ∧
      ∀ recruit ∈ recruits, recruit = Supervisor.ofSeed dial.seed := by
  cases hmoves with
  | went transport point => exact ⟨[], (List.append_nil _).symm, by simp⟩
  | settled connected _ hpoint hafter =>
      subst hafter
      refine ⟨_, recruits_settle _ _ _, fun recruit hmem => ?_⟩
      split_ifs at hmem <;> simp_all

/-- Every step of a dial takes it closer to the release of its seed. -/
theorem Moves.steps_for_le (hmoves : Moves policy dial board after next) (id : PeerId) :
    (next.map (stepsFor policy id)).getD 0 + dial.owned id ≤ dial.stepsFor policy id := by
  cases hmoves with
  | went transport point hleft =>
      simp only [Option.map_some, Option.getD_some, stepsFor, owned]
      split_ifs <;> omega
  | settled connected _ hpoint hafter =>
      simp only [Option.map_none, Option.getD_none, stepsFor, owned, stepsLeft, hpoint]
      split_ifs <;> omega

/-- A dial goes on at once, unless it waits for an instant to come and was not stopped. -/
theorem step_eq_none {moment : Moment} {board : Noted Board}
    (hstep : dial.step policy moment board = none) :
    moment.stopping = false ∧ ∃ wake, dial.wake = some wake ∧ moment.now < wake := by
  obtain ⟨seed, point⟩ := dial
  cases point with
  | ready attempt backoff =>
      simp only [step] at hstep
      split_ifs at hstep
  | trying attempt backoff call =>
      obtain ⟨hstopping, hwake⟩ := connect_outcome_eq_none (Option.map_eq_none_iff.1 hstep)
      exact ⟨hstopping, _, rfl, hwake⟩
  | resting attempt backoff resume =>
      simp only [step] at hstep
      split_ifs at hstep with hstops hrested
      have hlater : moment.now < resume := by simpa using hrested
      refine ⟨?_, resume, rfl, hlater⟩
      simpa [Moment.stops, hlater] using hstops
  | ending connected => cases hstep

end Dial

namespace Supervisor

/-- How many dialing flags of a seed a supervisor owns. -/
def owned (id : PeerId) (supervisor : Supervisor) : Nat :=
  if supervisor.seed.id = id ∧ supervisor.point.owns then 1 else 0

/-- How many connects to a seed a supervisor has in flight. -/
def connects (id : PeerId) (supervisor : Supervisor) : Nat :=
  if supervisor.seed.id = id ∧ supervisor.point.isConnecting then 1 else 0

/-- How many steps a supervisor takes at most until it releases a seed that it owns. -/
def stepsFor (id : PeerId) (supervisor : Supervisor) : Nat :=
  if supervisor.seed.id = id then supervisor.point.stepsLeft else 0

variable {policy : Policy} {moment : Moment} {supervisor : Supervisor} {board after : Board}
  {next : Option Supervisor}

/-- A supervisor connects only as the owner of the flag. -/
theorem connects_le (id : PeerId) (supervisor : Supervisor) :
    supervisor.connects id ≤ supervisor.owned id := by
  obtain ⟨seed, point⟩ := supervisor
  cases point <;> simp [connects, owned, Point.isConnecting, Point.owns, Point.stepsLeft]

/-- A supervisor that is yet to begin owns nothing. -/
theorem owned_of_seed (id : PeerId) (seed : Seed) : owned id (ofSeed seed) = 0 :=
  if_neg fun h => absurd h.2 Bool.false_ne_true

/-- A supervisor that is yet to begin has nothing to release. -/
theorem steps_for_of_seed (id : PeerId) (seed : Seed) : stepsFor id (ofSeed seed) = 0 :=
  ite_self 0

/-- A supervisor claims and releases exactly the flags that it owns. -/
theorem Moves.claims_eq (hmoves : Moves policy moment supervisor board after next) (id : PeerId)
    (howned : supervisor.owned id ≤ board.flags.claims id) (hflag : board.flags.claims id ≤ 1) :
    after.flags.claims id + supervisor.owned id =
      board.flags.claims id + (next.map (owned id)).getD 0 := by
  cases hmoves with
  | went transport point howns => simp only [owned, howns, Option.map_some, Option.getD_some]
  | unfit hpoint | kept ticker hpoint | yielded ticker hpoint | ended hpoint =>
      simp [owned, hpoint, Point.owns, Point.stepsLeft, Board.mapFlags]
  | claimed ticker hpoint hfree =>
      have hclaims : board.flags.claims supervisor.seed.id = 0 := if_neg hfree
      by_cases hid : supervisor.seed.id = id <;>
        simp_all [owned, Point.owns, Point.stepsLeft, Board.mapFlags]
  | reconnected ticker outcome hpoint | failed ticker outcome hpoint =>
      by_cases hid : supervisor.seed.id = id <;>
        simp_all [owned, Point.owns, Point.stepsLeft, Board.mapFlags]
      omega

/-- A supervisor that owns a seed takes with every step a step closer to its release. -/
theorem Moves.steps_for_le (hmoves : Moves policy moment supervisor board after next)
    {id : PeerId} (hclaimed : id ∈ board.flags.dialing) :
    (next.map (stepsFor id)).getD 0 + supervisor.owned id ≤ supervisor.stepsFor id := by
  cases hmoves with
  | went transport point howns hleft =>
      have hsame : 0 < point.stepsLeft ↔ 0 < supervisor.point.stepsLeft := by
        simpa [Point.owns] using howns
      simp only [Option.map_some, Option.getD_some, stepsFor, owned, Point.owns,
        decide_eq_true_eq]
      by_cases hid : supervisor.seed.id = id
      · simp only [hid, true_and, if_true]
        split_ifs <;> omega
      · simp [hid]
  | claimed ticker hpoint hfree =>
      have hid : supervisor.seed.id ≠ id := fun heq => hfree (heq ▸ hclaimed)
      simp [stepsFor, owned, hid]
  | unfit hpoint | kept ticker hpoint | yielded ticker hpoint | ended hpoint
  | reconnected ticker outcome hpoint | failed ticker outcome hpoint =>
      simp [stepsFor, owned, hpoint, Point.owns, Point.stepsLeft]

/-- A supervisor that owns a seed goes on at once, unless it waits for an instant to come and was
not stopped. -/
theorem step_eq_none {board : Noted Board} (howns : supervisor.point.owns = true)
    (hstep : supervisor.step policy moment board = none) :
    moment.stopping = false ∧ ∃ wake, supervisor.wake = some wake ∧ moment.now < wake := by
  obtain ⟨seed, point⟩ := supervisor
  cases point with
  | ready | waiting | looked | ending => cases howns
  | claimed ticker =>
      simp only [step] at hstep
      split_ifs at hstep
  | redialing ticker call =>
      obtain ⟨hstopping, hwake⟩ := connect_outcome_eq_none (Option.map_eq_none_iff.1 hstep)
      exact ⟨hstopping, _, rfl, hwake⟩
  | redialed ticker outcome => cases hstep

end Supervisor

namespace Scene

/-- How many dials and supervisors own the dialing flag of a seed. -/
def owners (scene : Scene) (id : PeerId) : Nat :=
  (scene.service.dials.map (Dial.owned id)).sum +
    (scene.service.supervisors.map (Supervisor.owned id)).sum

/-- How many connects to a seed are in flight. -/
def connecting (scene : Scene) (id : PeerId) : Nat :=
  (scene.service.dials.map (Dial.connects id)).sum +
    (scene.service.supervisors.map (Supervisor.connects id)).sum

/-- How many steps the owners of a seed take at most until they release it. -/
def stepsLeft (scene : Scene) (id : PeerId) : Nat :=
  (scene.service.dials.map (Dial.stepsFor scene.service.policy id)).sum +
    (scene.service.supervisors.map (Supervisor.stepsFor id)).sum

/-- Whether the dialing flag of every seed counts as many as it has owners. -/
def IsBalanced (scene : Scene) : Prop :=
  ∀ id, scene.owners id = scene.service.flags.claims id

/-- A sum over activities changes by what the activity that was taken on contributes. -/
theorem sum_of_step {α : Type} (share : α → Nat) (before : List α) (activity : α) (next : Option α)
    (later : List α) :
    ((before ++ next.toList ++ later).map share).sum + share activity =
      ((before ++ activity :: later).map share).sum + (next.map share).getD 0 := by
  cases next with
  | none => simp; omega
  | some next => simp; omega

variable {scene after : Scene} {label : Label}

/-- Supervisors that are yet to begin count nothing if the first of them would not. -/
theorem sum_of_recruits {seed : Seed} {recruits : List Supervisor} {share : Supervisor → Nat}
    (hrecruits : ∀ recruit ∈ recruits, recruit = Supervisor.ofSeed seed)
    (hshare : share (Supervisor.ofSeed seed) = 0) : (recruits.map share).sum = 0 := by
  induction recruits with
  | nil => rfl
  | cons recruit rest ih =>
      rw [List.map_cons, List.sum_cons, hrecruits recruit List.mem_cons_self, hshare,
        ih fun other hmem => hrecruits other (List.mem_cons_of_mem _ hmem)]

/-- No step changes a flag without its owner. -/
theorem Step.is_balanced (hstep : Step scene label after) (h : scene.IsBalanced) :
    after.IsBalanced := by
  intro id
  have hid := h id
  have hflag : scene.service.flags.claims id ≤ 1 := by
    unfold Flags.claims
    split_ifs <;> omega
  cases hstep with
  | surroundings | stop | begin | abandon => exact hid
  | add seed =>
      simp only [owners, Service.addSeed] at hid ⊢
      split_ifs <;> exact hid
  | sweep before sweep later service next hsweeps hnext =>
      cases Sweep.step_moves hnext with
      | read | finished | passed => exact hid
      | dialed seed rest hfree =>
          have hclaims : scene.service.flags.claims seed.id = 0 := if_neg hfree
          simp only [owners, Dial.owned, Dial.ofSeed, Flags.claims_claim, List.map_append,
            List.map_cons, List.map_nil, List.sum_append, List.sum_cons, List.sum_nil] at hid ⊢
          split_ifs with heq
          · subst heq
            omega
          · omega
  | dial moment before dial later watching recruits board next hnow hstopping hdials hsupervisors
      hnext =>
      have hmoves := Dial.step_moves hnext
      obtain ⟨added, hrecruits, hadded⟩ := hmoves.recruits_eq
      have hsum := sum_of_step (Dial.owned id) before dial next later
      have hclaims := hmoves.claims_eq id
      have hsilent := sum_of_recruits hadded (Supervisor.owned_of_seed id dial.seed)
      simp only [owners, hdials, hsupervisors] at hid
      simp only [owners, withWork, hrecruits, Scene.board, List.map_append, List.map_cons, List.sum_append, List.sum_cons] at hid hclaims hsum ⊢
      omega
  | supervisor moment before supervisor later recruits board next hnow hstopping hsupervisors
      hnext =>
      have hmoves := Supervisor.step_moves hnext
      have hsum := sum_of_step (Supervisor.owned id) before supervisor next later
      have hclaims := hmoves.claims_eq id
      simp only [owners, hsupervisors] at hid
      simp only [owners, withWork, Scene.board, List.map_append, List.map_cons, List.sum_append, List.sum_cons] at hid hclaims hsum ⊢
      omega

/-- A new mechanism is balanced. -/
theorem initial_is_balanced (seeds : List Seed) (policy : Policy) (shutdown : Token)
    (transport : Transport) : (initial seeds policy shutdown transport).IsBalanced := by
  intro id
  simp [owners, initial, Service.ofSeeds, Flags.claims]

/-- A balanced mechanism stays so along every path. -/
theorem Path.is_balanced {labels : List Label} (hpath : Path scene labels after)
    (h : scene.IsBalanced) : after.IsBalanced := by
  induction hpath with
  | refl => exact h
  | step _ _ _ _ _ hstep ih => exact hstep.is_balanced ih

/-- Only owners connect. -/
theorem connecting_le_owners (scene : Scene) (id : PeerId) :
    scene.connecting id ≤ scene.owners id :=
  Nat.add_le_add
    (List.sum_le_sum fun dial _ => Dial.connects_le id dial)
    (List.sum_le_sum fun supervisor _ => Supervisor.connects_le id supervisor)

section Progress

variable {id : PeerId} {moment : Moment} {board : Noted Board}

/-- A dial that goes on takes its seed a step closer to its release. -/
theorem steps_left_dial {before later : List Dial} {dial : Dial} {next : Option Dial}
    {watching recruits : List Supervisor}
    (hdials : scene.service.dials = before ++ dial :: later)
    (hsupervisors : scene.service.supervisors = watching ++ recruits)
    (hstep : dial.step scene.service.policy moment (scene.board recruits) = some (board, next)) :
    (scene.withWork board (before ++ next.toList ++ later)
      (watching ++ board.state.recruits)).stepsLeft id + dial.owned id ≤ scene.stepsLeft id := by
  have hmoves := Dial.step_moves hstep
  obtain ⟨added, hrecruits, hadded⟩ := hmoves.recruits_eq
  have hsum := sum_of_step (Dial.stepsFor scene.service.policy id) before dial next later
  have hcloser := hmoves.steps_for_le id
  have hsilent := sum_of_recruits hadded (Supervisor.steps_for_of_seed id dial.seed)
  simp only [stepsLeft, withWork, hdials, hsupervisors, hrecruits, Scene.board, List.map_append,
    List.map_cons, List.sum_append, List.sum_cons] at hsum ⊢
  omega

/-- A supervisor that goes on takes a seed that it owns a step closer to its release. -/
theorem steps_left_supervisor {before later recruits : List Supervisor} {supervisor : Supervisor}
    {next : Option Supervisor}
    (hsupervisors : scene.service.supervisors = before ++ supervisor :: later)
    (hstep : supervisor.step scene.service.policy moment (scene.board recruits) =
      some (board, next))
    (hclaimed : id ∈ scene.service.flags.dialing) :
    (scene.withWork board scene.service.dials (before ++ next.toList ++ later)).stepsLeft id +
      supervisor.owned id ≤ scene.stepsLeft id := by
  have hsum := sum_of_step (Supervisor.stepsFor id) before supervisor next later
  have hcloser := (Supervisor.step_moves hstep).steps_for_le hclaimed
  simp only [stepsLeft, withWork, hsupervisors] at hsum ⊢
  omega

/-- No step takes a seed that is being dialed away from its release. -/
theorem Step.steps_left_le (hstep : Step scene label after)
    (hclaimed : id ∈ scene.service.flags.dialing) : after.stepsLeft id ≤ scene.stepsLeft id := by
  cases hstep with
  | surroundings | stop | begin | abandon => exact Nat.le_refl _
  | add seed =>
      simp only [stepsLeft, Service.addSeed]
      split_ifs <;> exact Nat.le_refl _
  | sweep before sweep later service next hsweeps hnext =>
      cases Sweep.step_moves hnext with
      | read | finished | passed => exact Nat.le_refl _
      | dialed seed rest hfree =>
          have hid : seed.id ≠ id := fun heq => hfree (heq ▸ hclaimed)
          simp [stepsLeft, Dial.stepsFor, Dial.ofSeed, hid]
  | dial moment before dial later watching recruits board next _ _ hdials hsupervisors hnext =>
      exact Nat.le_of_add_right_le (steps_left_dial hdials hsupervisors hnext)
  | supervisor moment before supervisor later recruits board next _ _ hsupervisors hnext =>
      exact Nat.le_of_add_right_le (steps_left_supervisor hsupervisors hnext hclaimed)

/-- When owners of a seed that wait may go on by themselves. -/
def ownerWakes (scene : Scene) (id : PeerId) : List Clock.Instant :=
  (scene.service.dials.filter (·.owned id ≠ 0)).filterMap Dial.wake ++
    (scene.service.supervisors.filter (·.owned id ≠ 0)).filterMap Supervisor.wake

/-- A seed that is being dialed can be taken a step closer to its release, unless an owner waits for
an instant to come and the mechanism was not stopped. -/
theorem progress_of_claimed (hbalanced : scene.IsBalanced)
    (hclaimed : id ∈ scene.service.flags.dialing) :
    (∃ after, Step scene .other after ∧ after.stepsLeft id < scene.stepsLeft id) ∨
      scene.stopping = false ∧ ∃ wake ∈ scene.ownerWakes id, scene.now < wake := by
  have howners : scene.owners id ≠ 0 := by
    rw [hbalanced id, Flags.claims, if_pos hclaimed]
    exact Nat.one_ne_zero
  let moment : Moment := { now := scene.now, stopping := scene.stopping }
  by_cases hdials : (scene.service.dials.map (Dial.owned id)).sum = 0
  · have hsupervisors : (scene.service.supervisors.map (Supervisor.owned id)).sum ≠ 0 := by
      intro hzero
      exact howners (by rw [owners, hdials, hzero])
    obtain ⟨share, hshare, howned⟩ := List.exists_mem_ne_zero_of_sum_ne_zero hsupervisors
    obtain ⟨supervisor, hmem, rfl⟩ := List.mem_map.1 hshare
    cases hnext : supervisor.step scene.service.policy moment (scene.board []) with
    | none =>
        have howns : supervisor.point.owns = true := by
          by_contra hnot
          exact howned (if_neg fun h => hnot h.2)
        obtain ⟨hstopping, wake, hwake, hlater⟩ := Supervisor.step_eq_none howns hnext
        refine .inr ⟨hstopping, wake, List.mem_append_right _ ?_, hlater⟩
        exact List.mem_filterMap.2 ⟨supervisor, List.mem_filter.2 ⟨hmem, by simpa⟩, hwake⟩
    | some result =>
        obtain ⟨board, next⟩ := result
        obtain ⟨before, later, hsplit⟩ := List.append_of_mem hmem
        refine .inl ⟨_, .supervisor scene moment before supervisor later [] board next rfl rfl
          hsplit hnext, ?_⟩
        have hcloser := steps_left_supervisor hsplit hnext hclaimed
        omega
  · obtain ⟨share, hshare, howned⟩ := List.exists_mem_ne_zero_of_sum_ne_zero hdials
    obtain ⟨dial, hmem, rfl⟩ := List.mem_map.1 hshare
    cases hnext : dial.step scene.service.policy moment (scene.board []) with
    | none =>
        obtain ⟨hstopping, wake, hwake, hlater⟩ := Dial.step_eq_none hnext
        refine .inr ⟨hstopping, wake, List.mem_append_left _ ?_, hlater⟩
        exact List.mem_filterMap.2 ⟨dial, List.mem_filter.2 ⟨hmem, by simpa⟩, hwake⟩
    | some result =>
        obtain ⟨board, next⟩ := result
        obtain ⟨before, later, hsplit⟩ := List.append_of_mem hmem
        have hnone : scene.service.supervisors = scene.service.supervisors ++ [] :=
          (List.append_nil _).symm
        refine .inl ⟨_, .dial scene moment before dial later _ [] board next rfl rfl
          hsplit hnone hnext, ?_⟩
        have hcloser : _ + dial.owned id ≤ _ := steps_left_dial hsplit hnone hnext
        omega

end Progress

/-- Whatever happens to a mechanism of seeds, at most one connect to each seed is in flight, and a
seed is flagged as being dialed exactly if it has one owner. A step with which an owner ends
releases the seed, however it ends. Until then no step takes the seed away from its release, and some
step takes it closer, unless an owner waits for an instant to come and nothing was stopped. -/
theorem one_dial_at_a_time (seeds : List Seed) (policy : Policy) (shutdown : Token)
    (transport : Transport) {labels : List Label}
    (hpath : Path (initial seeds policy shutdown transport) labels scene) (id : PeerId) :
    scene.connecting id ≤ 1 ∧
    (id ∈ scene.service.flags.dialing ↔ scene.owners id = 1) ∧ scene.owners id ≤ 1 ∧
    (∀ label after, Step scene label after → after.owners id < scene.owners id →
      id ∉ after.service.flags.dialing) ∧
    (id ∈ scene.service.flags.dialing →
      (∀ label after, Step scene label after → after.stepsLeft id ≤ scene.stepsLeft id) ∧
      ((∃ after, Step scene .other after ∧ after.stepsLeft id < scene.stepsLeft id) ∨
        scene.stopping = false ∧ ∃ wake ∈ scene.ownerWakes id, scene.now < wake)) := by
  have hbalanced := hpath.is_balanced (initial_is_balanced seeds policy shutdown transport)
  have hclaims := hbalanced id
  have hconnecting := scene.connecting_le_owners id
  unfold Flags.claims at hclaims
  refine ⟨?_, ?_, ?_, fun label after hstep hended => ?_, fun hclaimed =>
    ⟨fun label after hstep => hstep.steps_left_le hclaimed, progress_of_claimed hbalanced hclaimed⟩⟩
  · split_ifs at hclaims <;> omega
  · split_ifs at hclaims with hclaimed <;> simp [hclaimed, hclaims]
  · split_ifs at hclaims <;> omega
  · have hafter := hstep.is_balanced hbalanced id
    intro hclaimed
    rw [Flags.claims, if_pos hclaimed] at hafter
    split_ifs at hclaims <;> omega

/-- The seed of a new mechanism is swept and its dial connects: there is one owner, and the seed can
be taken closer to its release unless the connect has to be waited for. -/
theorem one_dial_at_a_time_fresh :
    ∃ labels scene, Path fresh labels scene ∧ scene.connecting lone.id = 1 ∧
      lone.id ∈ scene.service.flags.dialing ∧ scene.owners lone.id = 1 ∧
      ((∃ after, Step scene .other after ∧ after.stepsLeft lone.id < scene.stepsLeft lone.id) ∨
        scene.stopping = false ∧ ∃ wake ∈ scene.ownerWakes lone.id, scene.now < wake) := by
  have hbegun := Path.step _ _ _ _ _ (Path.refl fresh) (.begin fresh rfl)
  have hread := Path.step _ _ _ _ _ hbegun (.sweep _ [] .reading [] _ _ rfl rfl)
  have hswept := Path.step _ _ _ _ _ hread (.sweep _ [] (.looking [lone]) [] _ _ rfl rfl)
  have hdialed := Path.step _ _ _ _ _ hswept
    (.dial _ { now := 0 } [] (Dial.ofSeed {} lone) [] [] [] _ _ rfl rfl rfl rfl rfl)
  refine ⟨_, _, hdialed, rfl, ?_⟩
  obtain ⟨-, hclaimed, -, -, hprogress⟩ :=
    one_dial_at_a_time [lone] {} [0] { localId := nodeId } hdialed lone.id
  exact ⟨hclaimed.2 rfl, rfl, (hprogress (hclaimed.2 rfl)).2⟩

end Scene

end PeerFinder.Seed
