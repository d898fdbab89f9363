import Mathlib.Data.List.Basic
import PeerFinder.Proofs.Coordinator.Lifecycle

/-!
# What comes of starts and stops

Of all starts of a coordinator at most one ever starts mechanisms: `Life.IsSound` says where every start
and every stop stands, and every step keeps it. `Life.Path.starts_once_stops_all` is the result: the
mechanisms are started once at most, every stop stops all of them and reports those that failed, and when
one has returned the coordinator is empty and every later start is refused.
-/

namespace PeerFinder.Coordinator

/-- The mechanisms that did not stop cleanly, each with its error. -/
def failures (asked : List (Member × Except Error Unit)) : List String :=
  asked.filterMap fun answer => stopError? answer.1 answer.2

/-- The failures with one more mechanism. -/
theorem failures_append_singleton (asked : List (Member × Except Error Unit)) (member : Member)
    (result : Except Error Unit) :
    failures (asked ++ [(member, result)]) = failures asked ++ (stopError? member result).toList := by
  rw [failures, List.filterMap_append, ← failures]
  cases hfailure : stopError? member result <;> simp [hfailure]

/-- The calls beside one of them are calls. -/
theorem mem_of_mem_beside {κ : Type} {calls before later : List κ} {call other : κ}
    (hcalls : calls = before ++ call :: later) (hmem : other ∈ before ++ later) : other ∈ calls := by
  rw [hcalls]
  exact List.perm_middle.mem_iff.2 (List.mem_cons_of_mem _ hmem)

/-- A mechanism reports no failure exactly if it stopped. -/
theorem stop_error_eq_none_iff (member : Member) (result : Except Error Unit) :
    stopError? member result = none ↔ result = .ok () := by
  cases result with
  | ok => exact iff_of_true rfl rfl
  | error => exact iff_of_false nofun nofun

/-- A stop succeeds if all mechanisms stopped, and otherwise its error lists those that did not. -/
theorem stop_result_failures (asked : List (Member × Except Error Unit)) :
    (∀ answer ∈ asked, answer.2 = .ok ()) ∧ stopResult (failures asked) = .ok () ∨
      (∃ answer ∈ asked, answer.2 ≠ .ok ()) ∧
        stopResult (failures asked) = .error (.shutdown (failures asked)) := by
  have hnone : failures asked = [] ↔ ∀ answer ∈ asked, answer.2 = .ok () := by
    simp only [failures, List.filterMap_eq_nil_iff, stop_error_eq_none_iff]
  cases hfailures : failures asked with
  | nil => exact .inl ⟨hnone.1 hfailures, rfl⟩
  | cons failure rest =>
      refine .inr ⟨?_, rfl⟩
      by_contra hall
      rw [hnone.2 (by simpa using hall)] at hfailures
      cases hfailures

namespace StartCall

variable {call : StartCall} {coordinator moved : Coordinator}

/-- Whether a start has started no mechanism and is not about to. -/
def isQuiet (call : StartCall) : Bool :=
  match call.stage with
  | .inl (.starting ..) => false
  | .inl .entering | .inr _ => call.asked.isEmpty

/-- What holds of a start. -/
def IsSound (call : StartCall) (coordinator : Coordinator) : Prop :=
  match call.stage with
  | .inl .entering => call.asked = []
  | .inl (.starting rest _) =>
      call.asked.map Prod.fst ++ rest = coordinator.members ∧ coordinator.starting = true
  | .inr _ => call.asked = [] ∨ call.asked.map Prod.fst = coordinator.members

/-- A quiet start has started no mechanism. -/
theorem asked_of_is_quiet (hquiet : call.isQuiet = true) : call.asked = [] := by
  unfold isQuiet at hquiet
  split at hquiet
  · cases hquiet
  · exact List.isEmpty_iff.1 hquiet
  · exact List.isEmpty_iff.1 hquiet

/-- A start that starts mechanisms is not quiet. -/
theorem is_quiet_of_starting {rest started : List Member}
    (hstage : call.stage = .inl (.starting rest started)) : call.isQuiet = false := by
  rw [isQuiet, hstage]

/-- A start has started mechanisms in order. -/
theorem IsSound.asked_in_order (h : call.IsSound coordinator) :
    call.asked.map Prod.fst <+: coordinator.members := by
  unfold IsSound at h
  split at h
  · rw [h]
    exact List.nil_prefix
  · exact ⟨_, h.1⟩
  · obtain hnone | hall := h
    · rw [hnone]
      exact List.nil_prefix
    · exact hall ▸ List.prefix_rfl

/-- What holds of a start stays so while the same start is under way. -/
theorem IsSound.frame (h : call.IsSound coordinator)
    (hmembers : moved.members = coordinator.members)
    (hstarting : coordinator.starting = true → moved.starting = true) : call.IsSound moved := by
  unfold IsSound at h ⊢
  rw [hmembers]
  split at h
  · exact h
  · exact h.imp_right hstarting
  · exact h

/-- What holds of a quiet start stays so. -/
theorem IsSound.of_is_quiet (h : call.IsSound coordinator) (hquiet : call.isQuiet = true)
    (hmembers : moved.members = coordinator.members) : call.IsSound moved := by
  unfold IsSound at h ⊢
  rw [hmembers]
  split at h
  · exact h
  · rename_i hstage
    rw [is_quiet_of_starting hstage] at hquiet
    cases hquiet
  · exact h

end StartCall

namespace StopCall

/-- What holds of a stop. -/
def IsSound (call : StopCall) (env : Environment) (coordinator : Coordinator) : Prop :=
  match call.stage with
  | .inl .cancelling => call.asked = []
  | .inl .entering => call.asked = [] ∧ env.tree.isCancelled coordinator.scope = true
  | .inl (.stopping rest errors) => call.asked.map Prod.fst ++ rest = coordinator.members ∧
      errors = failures call.asked ∧ IsEnded env coordinator
  | .inr result => call.asked.map Prod.fst = coordinator.members ∧
      result = stopResult (failures call.asked) ∧ IsEnded env coordinator ∧ coordinator.active = []

/-- What holds of a stop stays so with every step. -/
theorem IsSound.frame {call : StopCall} {env after : Environment} {coordinator moved : Coordinator}
    (h : call.IsSound env coordinator) (hfollows : Follows env coordinator after moved) :
    call.IsSound after moved := by
  unfold IsSound at h ⊢
  rw [hfollows.members]
  split at h
  · exact h
  · exact ⟨h.1, hfollows.cancelled h.2⟩
  · exact ⟨h.1, h.2.1, (hfollows.ended h.2.2).1⟩
  · obtain ⟨hasked, hresult, hended, hactive⟩ := h
    exact ⟨hasked, hresult, (hfollows.ended hended).1, (hfollows.ended hended).2 hactive⟩

end StopCall

namespace Life

/-- What holds of a coordinator that is started and stopped: at most one start is not quiet, and that is
so only while it is under way, the loops run or the scope is cancelled. -/
structure IsSound (life : Life) : Prop where
  startups : life.node.startups = []
  shutdowns : life.node.shutdowns = []
  starts : ∀ call ∈ life.starts, call.IsSound life.node.coordinator
  alone : life.starts.Pairwise fun left right => left.isQuiet = true ∨ right.isQuiet = true
  begun : ∀ call ∈ life.starts, call.isQuiet = false → life.node.coordinator.starting = true ∨
    life.node.coordinator.runs = true ∨ life.node.IsCancelled
  holder : life.node.coordinator.starting = true →
    ∃ call ∈ life.starts, ∃ rest started, call.stage = .inl (.starting rest started)
  stops : ∀ call ∈ life.stops, call.IsSound life.node.env life.node.coordinator
  late : ∀ call ∈ life.starts, call.late = true → life.hasStopped = true ∧ call.asked = [] ∧
    (call.stage = .inl .entering ∨ call.stage = .inr refusal)

namespace IsSound

variable {life : Life}

/-- Once a stop has returned the coordinator has come to its end, and it is empty. -/
theorem is_ended (h : life.IsSound) (hstopped : life.hasStopped = true) :
    IsEnded life.node.env life.node.coordinator ∧ life.node.coordinator.active = [] := by
  obtain ⟨call, hmem, hreturned⟩ := List.any_eq_true.1 hstopped
  have hsound := h.stops call hmem
  unfold StopCall.IsSound at hsound
  cases hstage : call.stage with
  | inl point =>
      rw [hstage] at hreturned
      cases hreturned
  | inr result =>
      rw [hstage] at hsound
      exact hsound.2.2

/-- A start is late only if it is called after a stop has returned. -/
theorem start (h : life.IsSound) :
    IsSound { life with starts := life.starts ++ [{ late := life.hasStopped }] } := by
  refine ⟨h.startups, h.shutdowns, ?_, ?_, ?_, ?_, h.stops, ?_⟩
  · rw [List.forall_mem_append, List.forall_mem_singleton]
    exact ⟨h.starts, rfl⟩
  · rw [List.pairwise_append]
    refine ⟨h.alone, List.pairwise_singleton _ _, fun left _ right hright => .inr ?_⟩
    rw [List.mem_singleton.1 hright]
    rfl
  · rw [List.forall_mem_append, List.forall_mem_singleton]
    exact ⟨h.begun, nofun⟩
  · intro hstarting
    obtain ⟨call, hmem, hstage⟩ := h.holder hstarting
    exact ⟨call, List.mem_append_left _ hmem, hstage⟩
  · rw [List.forall_mem_append, List.forall_mem_singleton]
    exact ⟨h.late, fun hlate => ⟨hlate, rfl, .inl rfl⟩⟩

/-- A stop may be called. -/
theorem stop (h : life.IsSound) : IsSound { life with stops := life.stops ++ [{}] } := by
  refine { h with stops := ?_, late := fun call hmem hlate => ?_ }
  · rw [List.forall_mem_append, List.forall_mem_singleton]
    exact ⟨h.stops, rfl⟩
  · obtain ⟨hstopped, hasked⟩ := h.late call hmem hlate
    refine ⟨?_, hasked⟩
    rw [hasStopped, List.any_append, ← hasStopped, hstopped, Bool.true_or]

/-- Anything else may happen. -/
theorem other {label : Node.Label} {after : Node} (h : life.IsSound)
    (hstep : Node.Step life.node label after) (hstartups : after.startups = [])
    (hshutdowns : after.shutdowns = []) : IsSound { life with node := after } := by
  obtain ⟨hfollows, hstarting, hruns⟩ := hstep.follows h.startups h.shutdowns
  refine ⟨hstartups, hshutdowns, fun call hmem => ?_, h.alone, fun call hmem hbusy => ?_,
    fun hafter => h.holder (hstarting ▸ hafter), fun call hmem => ?_, h.late⟩
  · exact (h.starts call hmem).frame hfollows.members fun hbefore => hstarting.trans hbefore
  · rw [hstarting, hruns]
    exact (h.begun call hmem hbusy).imp_right (Or.imp_right hfollows.cancelled)
  · exact (h.stops call hmem).frame hfollows

section Startup

variable {before later : List StartCall} {call next : StartCall} {env : Environment}
  {coordinator : Coordinator}

/-- If a start is not quiet, the others are. -/
theorem others_quiet (h : life.IsSound) (hcalls : life.starts = before ++ call :: later)
    (hbusy : call.isQuiet = false) : ∀ other ∈ before ++ later, other.isQuiet = true := by
  have halone := h.alone
  rw [hcalls, List.pairwise_middle Or.symm, List.pairwise_cons] at halone
  intro other hmem
  refine (halone.1 other hmem).resolve_left ?_
  rw [hbusy]
  nofun

/-- A start may go on. -/
theorem replace (h : life.IsSound) (hcalls : life.starts = before ++ call :: later)
    (hfollows : Follows life.node.env life.node.coordinator env coordinator)
    (hnext : next.IsSound coordinator)
    (hothers : ∀ other ∈ before ++ later, other.IsSound coordinator)
    (halone : next.isQuiet = true ∨ ∀ other ∈ before ++ later, other.isQuiet = true)
    (hbegun : ∀ other ∈ next :: (before ++ later), other.isQuiet = false →
      coordinator.starting = true ∨ coordinator.runs = true ∨
        env.tree.isCancelled coordinator.scope = true)
    (hholder : coordinator.starting = true → ∃ other ∈ next :: (before ++ later),
      ∃ rest started, other.stage = .inl (.starting rest started))
    (hlate : next.late = true → life.hasStopped = true ∧ next.asked = [] ∧
      (next.stage = .inl .entering ∨ next.stage = .inr refusal)) :
    IsSound { life.goTo env coordinator with starts := before ++ next :: later } := by
  have hmem : ∀ {other : StartCall}, other ∈ before ++ next :: later ↔
      other ∈ next :: (before ++ later) := List.perm_middle.mem_iff
  refine ⟨h.startups, h.shutdowns, fun other hother => ?_, ?_, fun other hother => ?_,
    fun hstarting => ?_, fun other hother => (h.stops other hother).frame hfollows,
    fun other hother => ?_⟩
  · obtain rfl | hother := List.mem_cons.1 (hmem.1 hother)
    · exact hnext
    · exact hothers other hother
  · have hpairs := h.alone
    rw [hcalls, List.pairwise_middle Or.symm, List.pairwise_cons] at hpairs
    rw [List.pairwise_middle Or.symm, List.pairwise_cons]
    refine ⟨fun other hother => ?_, hpairs.2⟩
    exact halone.imp_right fun hquiet => hquiet other hother
  · exact hbegun other (hmem.1 hother)
  · obtain ⟨other, hother, hstage⟩ := hholder hstarting
    exact ⟨other, hmem.2 hother, hstage⟩
  · obtain rfl | hother := List.mem_cons.1 (hmem.1 hother)
    · exact hlate
    · exact h.late other (mem_of_mem_beside hcalls hother)

/-- A start may go on that leaves the coordinator alone and starts no mechanism. -/
theorem answer {result : Except Error Unit} (h : life.IsSound)
    (hcalls : life.starts = before ++ call :: later) (hpoint : call.stage = .inl .entering)
    (hfree : life.node.coordinator.starting = false)
    (hlate : call.late = true → result = refusal) :
    IsSound { life.goTo life.node.env life.node.coordinator with
      starts := before ++ life.moveStart call .entering (.inr result) :: later } := by
  have hmem : ∀ other ∈ before ++ later, other ∈ life.starts := fun _ => mem_of_mem_beside hcalls
  have hcall : call ∈ life.starts := by simp [hcalls]
  have hasked : call.asked = [] := by
    have hsound := h.starts call hcall
    rwa [StartCall.IsSound, hpoint] at hsound
  have hnone : (life.moveStart call .entering (.inr result)).asked = [] :=
    (List.append_nil _).trans hasked
  have hquiet : (life.moveStart call .entering (.inr result)).isQuiet = true :=
    List.isEmpty_iff.2 hnone
  refine h.replace hcalls (.refl _ _) (.inl hnone) (fun other hother => h.starts other (hmem other hother))
    (.inl hquiet) ?_ ?_ fun hlate' => ?_
  · rw [List.forall_mem_cons]
    refine ⟨fun hbusy => ?_, fun other hother => h.begun other (hmem other hother)⟩
    rw [hquiet] at hbusy
    cases hbusy
  · rw [hfree]
    nofun
  · obtain ⟨hstopped, -⟩ := h.late call hcall hlate'
    exact ⟨hstopped, hnone, .inr (congrArg Sum.inr (hlate hlate'))⟩

/-- While the coordinator does not run and its scope is not cancelled, no start is busy. -/
theorem all_quiet (h : life.IsSound) (hfree : life.node.coordinator.starting = false)
    (hruns : life.node.coordinator.runs = false) (hrunning : ¬ life.node.IsCancelled) :
    ∀ other ∈ life.starts, other.isQuiet = true := by
  intro other hother
  rw [← Bool.not_eq_false]
  intro hbusy
  obtain hstarting | hloops | hcancelled := h.begun other hother hbusy
  · rw [hfree] at hstarting
    cases hstarting
  · rw [hruns] at hloops
    cases hloops
  · exact hrunning hcancelled

/-- Every step of a start keeps what holds. -/
theorem startup {point : Startup} {next : Startup ⊕ Except Error Unit} (h : life.IsSound)
    (hcalls : life.starts = before ++ call :: later) (hpoint : call.stage = .inl point)
    (hmoves : Startup.Moves life.node.env life.node.coordinator point env coordinator next) :
    IsSound { life.goTo env coordinator with
      starts := before ++ life.moveStart call point next :: later } := by
  have hcall : call ∈ life.starts := by simp [hcalls]
  have hsound := h.starts call hcall
  rw [StartCall.IsSound, hpoint] at hsound
  have hfollows := hmoves.follows (by
    rintro rest started rfl
    exact hsound.2)
  -- A late start finds a coordinator that has come to its end, so it can only be refused.
  have hended : call.late = true → IsEnded life.node.env life.node.coordinator :=
    fun hlate => (h.is_ended (h.late call hcall hlate).1).1
  have hmem : ∀ other ∈ before ++ later, other ∈ life.starts := fun _ => mem_of_mem_beside hcalls
  cases hmoves with
  | again hfree hruns =>
      refine h.answer hcalls hpoint hfree fun hlate => ?_
      rw [(hended hlate).runs] at hruns
      cases hruns
  | refused hfree => exact h.answer hcalls hpoint hfree fun _ => rfl
  | enters hfree hruns hcancelled =>
      have hrunning := Bool.eq_false_iff.1 hcancelled
      have hquiet := h.all_quiet hfree hruns hrunning
      refine h.replace hcalls hfollows ⟨?_, rfl⟩ ?_ (.inr ?_) ?_ ?_ ?_
      · show (call.asked ++ []).map Prod.fst ++ _ = _
        rw [List.append_nil, hsound]
        rfl
      · exact fun other hother => (h.starts other (hmem other hother)).of_is_quiet
          (hquiet other (hmem other hother)) rfl
      · exact fun other hother => hquiet other (hmem other hother)
      · exact fun _ _ _ => .inl rfl
      · exact fun _ => ⟨_, List.mem_cons_self, _, _, rfl⟩
      · exact fun hlate => absurd (hended hlate).cancelled hrunning
  | starts member rest started next =>
      have hothers := h.others_quiet hcalls (StartCall.is_quiet_of_starting hpoint)
      refine h.replace hcalls hfollows ⟨?_, hsound.2⟩ ?_ (.inr hothers) ?_ ?_ ?_
      · show (call.asked ++ [_]).map Prod.fst ++ rest = _
        rw [List.map_append, List.append_assoc]
        exact hsound.1
      · exact fun other hother => h.starts other (hmem other hother)
      · exact fun _ _ _ => .inl hsound.2
      · exact fun _ => ⟨_, List.mem_cons_self, _, _, rfl⟩
      · exact fun hlate => absurd hsound.2 (Bool.eq_false_iff.1 (hended hlate).starting)
  | begins started =>
      have hothers := h.others_quiet hcalls (StartCall.is_quiet_of_starting hpoint)
      refine h.replace hcalls hfollows (.inr ?_) ?_ (.inr hothers) ?_ ?_ ?_
      · show (call.asked ++ []).map Prod.fst = _
        rw [List.append_nil, ← List.append_nil (call.asked.map Prod.fst)]
        exact hsound.1
      · exact fun other hother => (h.starts other (hmem other hother)).of_is_quiet
          (hothers other hother) rfl
      · exact fun _ _ _ => .inr (.inl rfl)
      · exact fun hstarting => nomatch hstarting
      · exact fun hlate => absurd hsound.2 (Bool.eq_false_iff.1 (hended hlate).starting)

end Startup

section Shutdown

variable {before later : List StopCall} {call : StopCall} {env : Environment}
  {coordinator : Coordinator} {point : Shutdown} {next : Shutdown ⊕ Except Error Unit}

/-- What holds of a stop holds of it after a step. -/
theorem stop_moved (h : call.IsSound life.node.env life.node.coordinator)
    (hpoint : call.stage = .inl point)
    (hmoves : Shutdown.Moves life.node.env life.node.coordinator point env coordinator next) :
    (life.moveStop call point next).IsSound env coordinator := by
  have hfollows := hmoves.follows
  rw [StopCall.IsSound, hpoint] at h
  cases hmoves with
  | cancels =>
      exact ⟨(List.append_nil _).trans h, ScopeTree.is_cancelled_cancel_self _ _⟩
  | enters hfree =>
      obtain ⟨hasked, hcancelled⟩ := h
      have hnone : (life.moveStop call .entering
          (.inl (.stopping life.node.coordinator.members []))).asked = [] :=
        (List.append_nil _).trans hasked
      refine ⟨?_, ?_, hcancelled, hfree, rfl, rfl, rfl, rfl⟩
      · rw [hnone]
        rfl
      · rw [hnone]
        rfl
  | stops member rest errors =>
      obtain ⟨hasked, herrors, hended⟩ := h
      refine ⟨?_, ?_, (hfollows.ended hended).1⟩
      · show (call.asked ++ [_]).map Prod.fst ++ rest = _
        rw [List.map_append, List.append_assoc]
        exact hasked
      · show _ = failures (call.asked ++ [(member, (life.node.env.stop member.place).1)])
        rw [failures_append_singleton, ← herrors]
  | returns errors =>
      obtain ⟨hasked, herrors, hended⟩ := h
      have hsame : (life.moveStop call (.stopping [] errors)
          (.inr (stopResult errors))).asked = call.asked := List.append_nil _
      refine ⟨?_, ?_, (hfollows.ended hended).1, rfl⟩
      · rw [hsame, ← List.append_nil (call.asked.map Prod.fst)]
        exact hasked
      · rw [hsame, ← herrors]

/-- Every step of a stop keeps what holds. -/
theorem shutdown (h : life.IsSound) (hcalls : life.stops = before ++ call :: later)
    (hpoint : call.stage = .inl point)
    (hmoves : Shutdown.Moves life.node.env life.node.coordinator point env coordinator next) :
    IsSound { life.goTo env coordinator with
      stops := before ++ life.moveStop call point next :: later } := by
  have hcall : call ∈ life.stops := by simp [hcalls]
  have hfollows := hmoves.follows
  have hmoved := stop_moved (h.stops call hcall) hpoint hmoves
  obtain ⟨hstarting, hruns⟩ := hmoves.runs
  refine ⟨h.startups, h.shutdowns, fun other hmem => ?_, h.alone, fun other hmem hbusy => ?_,
    fun hholds => h.holder (hstarting ▸ hholds), fun other hmem => ?_, fun other hmem hlate => ?_⟩
  · exact (h.starts other hmem).frame hfollows.members fun hholds => hstarting.trans hholds
  · obtain hholds | hrunning | hcancelled := h.begun other hmem hbusy
    · exact .inl (hstarting.trans hholds)
    · obtain hsame | rfl := hruns
      · exact .inr (.inl (hsame.trans hrunning))
      · -- The loops end here, but this stop has cancelled the scope before.
        have hsound := h.stops call hcall
        rw [StopCall.IsSound, hpoint] at hsound
        exact .inr (.inr (hfollows.cancelled hsound.2))
    · exact .inr (.inr (hfollows.cancelled hcancelled))
  · obtain rfl | hother := List.mem_cons.1 (List.perm_middle.mem_iff.1 hmem)
    · exact hmoved
    · exact (h.stops other (mem_of_mem_beside hcalls hother)).frame hfollows
  · obtain ⟨hstopped, hasked⟩ := h.late other hmem hlate
    refine ⟨?_, hasked⟩
    -- The stop that goes on is not one of those that have returned.
    simp only [hasStopped, hcalls, List.any_append, List.any_cons, hpoint, Sum.isRight_inl,
      Bool.false_or, Bool.or_eq_true] at hstopped ⊢
    exact hstopped.imp_right .inr

end Shutdown

end IsSound

variable {life after : Life}

/-- The mechanisms that all starts started, with what came of it. -/
def started (life : Life) : List (Member × Except Error Unit) :=
  life.starts.flatMap StartCall.asked

/-- The mechanisms that all stops stopped, with what came of it. -/
def stopped (life : Life) : List (Member × Except Error Unit) :=
  life.stops.flatMap StopCall.asked

/-- Whether a start or a stop is under way that cannot go on. -/
def IsWaiting (life : Life) : Prop :=
  (∃ call ∈ life.starts, ∃ point, call.stage = .inl point ∧
    point.step (life.node.env, life.node.coordinator) = none) ∨
  ∃ call ∈ life.stops, ∃ point, call.stage = .inl point ∧
    point.step (life.node.env, life.node.coordinator) = none

/-- Every step keeps what holds of a coordinator that is started and stopped. -/
theorem Step.is_sound (hstep : Step life after) (h : life.IsSound) : after.IsSound := by
  cases hstep with
  | other label after hstep hstartups hshutdowns huses => exact h.other hstep hstartups hshutdowns
  | start => exact h.start
  | startup before call later point env coordinator next hcalls hpoint hstep =>
      exact h.startup hcalls hpoint (Startup.moves_of_step hstep)
  | stop => exact h.stop
  | shutdown before call later point env coordinator next hcalls hpoint hstep =>
      exact h.shutdown hcalls hpoint (Shutdown.moves_of_step hstep)

/-- Every step keeps what is to be kept of a coordinator. -/
theorem Step.follows (hstep : Step life after) (h : life.IsSound) :
    Follows life.node.env life.node.coordinator after.node.env after.node.coordinator := by
  cases hstep with
  | other label after hstep => exact (hstep.follows h.startups h.shutdowns).1
  | start | stop => exact .refl _ _
  | startup before call later point env coordinator next hcalls hpoint hstep =>
      refine (Startup.moves_of_step hstep).follows fun rest started heq => ?_
      have hsound := h.starts call (by simp [hcalls])
      rw [StartCall.IsSound, hpoint, heq] at hsound
      exact hsound.2
  | shutdown before call later point env coordinator next hcalls hpoint hstep =>
      exact (Shutdown.moves_of_step hstep).follows

/-- The mechanisms that a step starts and stops remember it. -/
theorem Step.remembers (hstep : Step life after) (place : Nat) :
    ∃ starts stops, used place after.started = used place life.started + starts ∧
      used place after.stopped = used place life.stopped + stops ∧
      after.node.env.uses? place =
        (life.node.env.uses? place).map fun uses => (uses.1 + starts, uses.2 + stops) := by
  cases hstep with
  | other label after hstep hstartups hshutdowns huses =>
      refine ⟨0, 0, rfl, rfl, ?_⟩
      rw [huses place]
      exact Option.map_id'.symm
  | start =>
      refine ⟨0, 0, ?_, rfl, Option.map_id'.symm⟩
      simp [started, used]
  | startup before call later point env coordinator next hcalls hpoint hstep =>
      refine ⟨_, 0, ?_, rfl, (Startup.moves_of_step hstep).uses_eq place⟩
      simp only [started, hcalls, moveStart, used, List.flatMap_append, List.flatMap_cons,
        List.countP_append]
      omega
  | stop =>
      refine ⟨0, 0, rfl, ?_, Option.map_id'.symm⟩
      simp [stopped, used]
  | shutdown before call later point env coordinator next hcalls hpoint hstep =>
      refine ⟨0, _, rfl, ?_, (Shutdown.moves_of_step hstep).uses_eq place⟩
      simp only [stopped, hcalls, moveStop, used, List.flatMap_append, List.flatMap_cons,
        List.countP_append]
      omega

namespace IsSound

/-- All starts together start the mechanisms in order, and each of them once at most. -/
theorem started_in_order (h : life.IsSound) :
    life.started.map Prod.fst <+: life.node.coordinator.members := by
  have halone := h.alone
  have hprefix := fun call hmem => (h.starts call hmem).asked_in_order
  unfold started
  generalize life.starts = calls at halone hprefix
  induction calls with
  | nil => exact List.nil_prefix
  | cons call rest ih =>
      obtain ⟨hcall, hrest⟩ := List.pairwise_cons.1 halone
      obtain ⟨hfirst, hothers⟩ := List.forall_mem_cons.1 hprefix
      rw [List.flatMap_cons]
      cases hquiet : call.isQuiet with
      | true =>
          rw [StartCall.asked_of_is_quiet hquiet]
          exact ih hrest hothers
      | false =>
          have hnone : rest.flatMap StartCall.asked = [] := by
            refine List.flatMap_eq_nil_iff.2 fun other hmem => StartCall.asked_of_is_quiet ?_
            refine (hcall other hmem).resolve_left ?_
            rw [hquiet]
            nofun
          rw [hnone, List.append_nil]
          exact hfirst

/-- A start or a stop that cannot go on waits for a start that can. -/
theorem exists_start_of_is_waiting (h : life.IsSound) (hwaiting : life.IsWaiting) :
    ∃ call ∈ life.starts, ∃ point, call.stage = .inl point ∧
      point.step (life.node.env, life.node.coordinator) ≠ none := by
  have hstarting : life.node.coordinator.starting = true := by
    obtain ⟨call, -, point, -, hstep⟩ | ⟨call, -, point, -, hstep⟩ := hwaiting
    · exact Startup.starting_of_step hstep
    · exact Shutdown.starting_of_step hstep
  obtain ⟨call, hmem, rest, started, hstage⟩ := h.holder hstarting
  refine ⟨call, hmem, _, hstage, ?_⟩
  cases rest <;> nofun

end IsSound

/-- What else a coordinator does is a step, unless it is a change of the surroundings. -/
theorem Step.of_node {label : Node.Label} {after : Node} (h : life.IsSound)
    (hstep : Node.Step life.node label after) (hstartups : after.startups = [])
    (hshutdowns : after.shutdowns = []) :
    (∃ env, after = { life.node with env := env }) ∨ Step life { life with node := after } :=
  (hstep.uses_eq h.startups h.shutdowns).imp_right (.other life label after hstep hstartups hshutdowns)

/-- The background work of the mechanisms is a step. -/
theorem step_advance (h : life.IsSound) :
    Step life { life with node := { life.node with env := life.node.env.advance.1 } } :=
  .other life _ _ (.surroundings life.node _ life.node.env.allows_advance.cancelled) h.startups
    h.shutdowns life.node.env.keeps_uses_advance

namespace Path

variable {origin : Life}

/-- What holds of a coordinator that is started and stopped holds along every path from the beginning,
and its mechanisms are the same. -/
theorem is_sound (hfresh : origin.IsFresh) (hpath : Path origin life) :
    life.IsSound ∧ life.node.coordinator.members = origin.node.coordinator.members := by
  induction hpath with
  | refl =>
      obtain ⟨hstarts, hstops, hstartups, hshutdowns, hstarting, -⟩ := hfresh
      refine ⟨⟨hstartups, hshutdowns, ?_, ?_, ?_, ?_, ?_, ?_⟩, rfl⟩
      · simp [hstarts]
      · simp [hstarts]
      · simp [hstarts]
      · simp [hstarting]
      · simp [hstops]
      · simp [hstarts]
  | step middle after hpath hstep ih =>
      exact ⟨hstep.is_sound ih.1, (hstep.follows ih.1).members.trans ih.2⟩

/-- The mechanisms remember exactly the starts and the stops of a path. -/
theorem remembers (hfresh : origin.IsFresh) (hpath : Path origin life) (place : Nat) :
    life.node.env.uses? place = (origin.node.env.uses? place).map fun uses =>
      (uses.1 + used place life.started, uses.2 + used place life.stopped) := by
  induction hpath with
  | refl =>
      simp only [started, stopped, hfresh.starts, hfresh.stops]
      exact Option.map_id'.symm
  | step middle after hpath hstep ih =>
      obtain ⟨starts, stops, hstarted, hstopped, huses⟩ := hstep.remembers place
      rw [huses, ih, hstarted, hstopped, Option.map_map]
      refine Option.map_congr fun uses _ => ?_
      simp only [Function.comp, Nat.add_assoc]

/-- However starts and stops of a coordinator are under way together, the mechanisms are started in
order and each of them once at most, as they remember. A stop that returns has stopped every mechanism
once, in order. It succeeds if all of them stopped, and otherwise its error lists those that did not.
When a stop has returned no mechanism is active and no loop is left, and a start that is called then is
refused with its first step and starts nothing. Nothing waits but for a start that can go on. -/
theorem starts_once_stops_all (hfresh : origin.IsFresh) (hpath : Path origin life) :
    life.started.map Prod.fst <+: origin.node.coordinator.members ∧
    (∀ place, life.node.env.uses? place = (origin.node.env.uses? place).map fun uses =>
      (uses.1 + used place life.started, uses.2 + used place life.stopped)) ∧
    (∀ call ∈ life.stops, ∀ result, call.stage = .inr result →
      call.asked.map Prod.fst = origin.node.coordinator.members ∧
      ((∀ answer ∈ call.asked, answer.2 = .ok ()) ∧ result = .ok () ∨
        (∃ answer ∈ call.asked, answer.2 ≠ .ok ()) ∧
          result = .error (.shutdown (failures call.asked)))) ∧
    (life.hasStopped = true → life.node.coordinator.active = [] ∧
      life.node.coordinator.sweeper = none ∧ life.node.coordinator.evictor = none ∧
      life.node.coordinator.reporter = none) ∧
    (∀ call ∈ life.starts, call.late = true → call.asked = [] ∧
      (call.stage = .inr refusal ∨ call.stage = .inl .entering ∧
        Startup.entering.step (life.node.env, life.node.coordinator) =
          some ((life.node.env, life.node.coordinator), .inr refusal))) ∧
    (life.IsWaiting → ∃ call ∈ life.starts, ∃ point, call.stage = .inl point ∧
      point.step (life.node.env, life.node.coordinator) ≠ none) := by
  obtain ⟨hsound, hmembers⟩ := hpath.is_sound hfresh
  refine ⟨hmembers ▸ hsound.started_in_order, hpath.remembers hfresh, fun call hmem result hstage => ?_,
    fun hstopped => ?_, fun call hmem hlate => ?_, hsound.exists_start_of_is_waiting⟩
  · have hcall := hsound.stops call hmem
    rw [StopCall.IsSound, hstage, hmembers] at hcall
    obtain ⟨hasked, rfl, -⟩ := hcall
    exact ⟨hasked, stop_result_failures call.asked⟩
  · obtain ⟨hended, hactive⟩ := hsound.is_ended hstopped
    exact ⟨hactive, hended.sweeper, hended.evictor, hended.reporter⟩
  · obtain ⟨hstopped, hasked, hentering | hrefused⟩ := hsound.late call hmem hlate
    · obtain ⟨hended, -⟩ := hsound.is_ended hstopped
      refine ⟨hasked, .inr ⟨hentering, ?_⟩⟩
      simp [Startup.step, hended.starting, hended.runs, hended.cancelled, refusal]
    · exact ⟨hasked, .inl hrefused⟩

end Path

/-- A node that was not started, with one mechanism, which does not stop cleanly. -/
def stubborn : Life where
  node :=
    { Node.fresh with
      env := { Node.fresh.env with
        mechanisms := [.scripted { name := "canned", failsStop := true }] } }

/-- A stop falls into the middle of a start, whose mechanism does not stop cleanly. It reports that
when the start is over, and a start after it is refused. -/
theorem Path.starts_once_stops_all_overlapping : stubborn.IsFresh ∧ ∃ life stop start result,
    Path stubborn life ∧ life.node.env.uses? 0 = some (1, 1) ∧ stop ∈ life.stops ∧
    stop.stage = .inr result ∧ result = .error (.shutdown (failures stop.asked)) ∧
    life.node.coordinator.active = [] ∧ start ∈ life.starts ∧ start.late = true ∧
    start.stage = .inr refusal ∧ start.asked = [] := by
  have hfresh : stubborn.IsFresh := ⟨rfl, rfl, rfl, rfl, rfl, rfl⟩
  have hstart := Path.step _ _ _ (.refl stubborn) (.start _)
  have hholds := Path.step _ _ _ hstart (.startup _ [] _ [] _ _ _ _ rfl rfl rfl)
  have hstop := Path.step _ _ _ hholds (.stop _)
  have hcancels := Path.step _ _ _ hstop (.shutdown _ [] _ [] _ _ _ _ rfl rfl rfl)
  have hasks := Path.step _ _ _ hcancels (.startup _ [] _ [] _ _ _ _ rfl rfl rfl)
  have hstarted := Path.step _ _ _ hasks (.startup _ [] _ [] _ _ _ _ rfl rfl rfl)
  have hends := Path.step _ _ _ hstarted (.shutdown _ [] _ [] _ _ _ _ rfl rfl rfl)
  have hstops := Path.step _ _ _ hends (.shutdown _ [] _ [] _ _ _ _ rfl rfl rfl)
  have hreturns := Path.step _ _ _ hstops (.shutdown _ [] _ [] _ _ _ _ rfl rfl rfl)
  have hlate := Path.step _ _ _ hreturns (.start _)
  have hrefused := Path.step _ _ _ hlate (.startup _ [_] _ [] _ _ _ _ rfl rfl rfl)
  obtain ⟨-, huses, hstopped, hempty, hlast, -⟩ := hrefused.starts_once_stops_all hfresh
  have hlast := hlast _ (List.mem_cons_of_mem _ (List.mem_singleton_self _)) rfl
  obtain ⟨-, ⟨hall, -⟩ | ⟨-, hresult⟩⟩ := hstopped _ (List.mem_singleton_self _) _ rfl
  · exact nomatch hall _ (List.mem_singleton_self _)
  · exact ⟨hfresh, _, _, _, _, hrefused, (huses 0).trans rfl, List.mem_singleton_self _, rfl, hresult,
      (hempty rfl).1, List.mem_cons_of_mem _ (List.mem_singleton_self _), rfl, rfl, hlast.1⟩

end Life

end PeerFinder.Coordinator
