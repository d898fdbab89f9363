import PeerFinder.Proofs.Seed.Parts

/-!
# Seeds do not affect each other

What a mechanism has to do with one seed is itself a mechanism, in which there are no other seeds
(`Scene.only`). What happens about the seed happens in it as it does among the others
(`Scene.Happens.inside`), and what happens about others leaves it as it is
(`Scene.Happens.outside`). So a run of all seeds is one of the seed alone (`Scene.Run.only`).
Conversely a run of the seed alone is one among the others, whatever inputs come that are about
these (`Scene.Run.exists_among`): their work is done aside where the seed has to wait for it.
-/

namespace PeerFinder

namespace Seed

namespace Scene

/-- The mechanism of one seed among its surroundings, with the notices about it. -/
def only (scene : Scene) (id : PeerId) : Scene where
  service := scene.service.only id
  transport := scene.transport.only id
  journal := noticesOf id scene.journal
  now := scene.now
  stopping := scene.stopping
  sweeps := scene.sweeps.map (·.only id)

/-- Whether an input is about a seed: all are that are not about another one. -/
def Input.concerns (id : PeerId) : Input → Bool
  | .start | .find | .abandon _ | .stop | .tick | .setDelay _ => true
  | .add seed => seed.id = id
  | .setReachable other _ | .disconnect other => other = id

/-- Whether an event is about a seed. -/
def Event.concerns (id : PeerId) : Event → Bool
  | .input given => given.concerns id
  | .sweep _ seed? => seed?.all (· = id)
  | .dial seed .. | .supervisor seed .. => seed = id

/-- What happens about a seed. -/
def about (id : PeerId) (events : List Event) : List Event :=
  events.filter (·.concerns id)

variable {scene after part : Scene} {event : Event} {events : List Event} {id : PeerId}

/-- An event that is about the seed is among those that are. -/
theorem about_cons (hconcerns : event.concerns id = true) :
    about id (event :: events) = event :: about id events :=
  List.filter_cons_of_pos hconcerns

/-- An event that is about another seed is not among those that are about the seed. -/
theorem about_cons_of_other (hother : event.concerns id = false) :
    about id (event :: events) = about id events :=
  List.filter_cons_of_neg (by simp [hother])

/-- An input that is about the seed is taken as if there were no others. -/
theorem take_only {input : Input} (hconcerns : input.concerns id = true) :
    (scene.only id).take input = (scene.take input).only id := by
  cases input with
  | start | find => cases hstopping : scene.stopping <;> simp [take, only, hstopping, Sweep.only]
  | abandon place => simp [take, only, List.eraseIdx_map]
  | add seed =>
      simp only [take, only, Service.add_seed_only (of_decide_eq_true hconcerns)]
  | stop | tick | setDelay => rfl
  | setReachable other reachable =>
      obtain rfl : other = id := of_decide_eq_true hconcerns
      cases reachable <;> simp [take, only, Transport.setReachable, Transport.only]
  | disconnect other =>
      obtain rfl : other = id := of_decide_eq_true hconcerns
      simp [take, only, Transport.disconnect, Transport.only]

/-- An input that is about another seed is taken without the seed. -/
theorem only_take {input : Input} (hconcerns : input.concerns id = false) :
    (scene.take input).only id = scene.only id := by
  cases input with
  | start | find | abandon | stop | tick | setDelay => cases hconcerns
  | add seed =>
      simp only [take, only, Service.only_add_seed (of_decide_eq_false hconcerns)]
  | setReachable other reachable =>
      have hother : other ≠ id := of_decide_eq_false hconcerns
      cases reachable <;> simp [take, only, Transport.setReachable, Transport.only, hother]
  | disconnect other =>
      have hother : other ≠ id := of_decide_eq_false hconcerns
      simp [take, only, Transport.disconnect, Transport.only, hother]

/-- What work shares, and what is left of it, is written back as if there were no others. -/
theorem with_work_only (board : Noted Board) (dials : List Dial) (supervisors : List Supervisor) :
    (scene.withWork board dials supervisors).only id =
      (scene.only id).withWork (Board.part id board) (dials.filter (·.seed.id = id))
        (supervisors.filter (·.seed.id = id)) :=
  rfl

/-- What is about the seed happens as if there were no others. -/
theorem Happens.inside (hhappens : Happens scene event after) (hsound : scene.service.IsSound)
    (hconcerns : event.concerns id = true) : Happens (scene.only id) event (after.only id) := by
  cases hhappens with
  | input input =>
      rw [← take_only hconcerns]
      exact .input input
  | sweep place seed? before sweep later service next hsweeps hplace hseed hstep =>
      subst hseed
      have hown := @Sweep.step_only sweep scene.service id hconcerns
      rw [hstep, Option.map_some] at hown
      have hinside := @Happens.sweep (scene.only id) place sweep.next? (before.map (·.only id))
        (sweep.only id) (later.map (·.only id)) _ _ (by simp [only, hsweeps]) (by simpa)
        (Sweep.next_only_eq hconcerns) hown
      cases next <;> simpa [only] using hinside
  | dial seed place moment before dial later board next hmoment hdials hid hplace hstep =>
      obtain rfl : seed = id := of_decide_eq_true hconcerns
      have hvalid : dial.IsSound := hsound.dials dial (by simp [hdials])
      have hisolates := Dial.isolates scene.service.policy moment seed
      have hown : dial.step scene.service.policy moment
          (Board.part seed (scene.board scene.service.supervisors)) =
            some (Board.part seed board, next) := by
        rw [hisolates.inside hvalid (decide_eq_true hid), hstep, Option.map_some]
      have hleft := hisolates.filter_left hvalid hstep
      rw [if_pos (decide_eq_true hid)] at hleft
      rw [with_work_only, List.filter_append, List.filter_append, hleft]
      exact .dial seed place moment _ dial _ _ next ⟨hmoment.now_eq, hmoment.stopping_eq⟩
        (by simp [only, Service.only, hdials, hid]) hid (by simpa [List.countP_filter]) hown
  | supervisor seed place moment before supervisor later board next hmoment hsupervisors hid hplace
      hstep =>
      obtain rfl : seed = id := of_decide_eq_true hconcerns
      have hvalid : supervisor.IsSound := hsound.supervisors supervisor (by simp [hsupervisors])
      have hisolates := Supervisor.isolates scene.service.policy moment seed
      have hown : supervisor.step scene.service.policy moment (Board.part seed (scene.board [])) =
          some (Board.part seed board, next) := by
        rw [hisolates.inside hvalid (decide_eq_true hid), hstep, Option.map_some]
      have hleft := hisolates.filter_left hvalid hstep
      rw [if_pos (decide_eq_true hid)] at hleft
      rw [with_work_only, List.filter_append, List.filter_append, hleft]
      exact .supervisor seed place moment _ supervisor _ _ next
        ⟨hmoment.now_eq, hmoment.stopping_eq⟩ (by simp [only, Service.only, hsupervisors, hid]) hid
        (by simpa [List.countP_filter]) hown

/-- What is about another seed happens without the seed. -/
theorem Happens.outside (hhappens : Happens scene event after) (hsound : scene.service.IsSound)
    (hconcerns : event.concerns id = false) : after.only id = scene.only id := by
  cases hhappens with
  | input input => exact only_take hconcerns
  | sweep place seed? before sweep later service next hsweeps hplace hseed hstep =>
      subst hseed
      obtain ⟨hservice, hnext⟩ := Sweep.only_step hconcerns hstep
      obtain ⟨left, rfl, hleft⟩ := Option.map_eq_some_iff.1 hnext
      simp [only, hservice, hsweeps, hleft]
  | dial seed place moment before dial later board next hmoment hdials hid hplace hstep =>
      have hother : decide (dial.seed.id = id) = false :=
        decide_eq_false (hid.trans_ne (of_decide_eq_false hconcerns))
      have hvalid : dial.IsSound := hsound.dials dial (by simp [hdials])
      have hisolates := Dial.isolates scene.service.policy moment id
      have hpart := hisolates.outside hvalid hother hstep
      have hdialing : (before ++ next.toList ++ later).filter (·.seed.id = id) =
          scene.service.dials.filter (·.seed.id = id) := by
        simp [hdials, hother, hisolates.filter_left hvalid hstep]
      have hwatching : board.state.recruits.filter (·.seed.id = id) =
          scene.service.supervisors.filter (·.seed.id = id) := congrArg (·.state.recruits) hpart
      rw [with_work_only, hpart, hdialing, hwatching]
      rfl
  | supervisor seed place moment before supervisor later board next hmoment hsupervisors hid hplace
      hstep =>
      have hother : decide (supervisor.seed.id = id) = false :=
        decide_eq_false (hid.trans_ne (of_decide_eq_false hconcerns))
      have hvalid : supervisor.IsSound := hsound.supervisors supervisor (by simp [hsupervisors])
      have hisolates := Supervisor.isolates scene.service.policy moment id
      have hpart := hisolates.outside hvalid hother hstep
      have hwatching : (before ++ next.toList ++ later).filter (·.seed.id = id) =
          scene.service.supervisors.filter (·.seed.id = id) := by
        simp [hsupervisors, hother, hisolates.filter_left hvalid hstep]
      rw [with_work_only, hpart, hwatching]
      rfl

/-- Whether an event is work for another seed. -/
structure Event.IsAside (id : PeerId) (event : Event) : Prop where
  other : event.concerns id = false
  work : event.input? = none

/-- Work of the seed alone is about the seed. -/
theorem Happens.concerns_of_only (hhappens : Happens (scene.only id) event part)
    (hwork : event.input? = none) : event.concerns id = true := by
  cases hhappens with
  | input input => cases hwork
  | sweep place seed? before sweep later service next hsweeps hplace hseed hstep =>
      have hmem : sweep ∈ (scene.only id).sweeps := by simp [hsweeps]
      obtain ⟨whole, -, rfl⟩ := List.mem_map.1 hmem
      exact hseed ▸ Sweep.next_only whole id
  | dial seed place moment before dial later board next hmoment hdials hid hplace hstep =>
      have hmem : dial ∈ (scene.only id).service.dials := by simp [hdials]
      exact hid ▸ (List.mem_filter.1 hmem).2
  | supervisor seed place moment before supervisor later board next hmoment hsupervisors hid =>
      have hmem : supervisor ∈ (scene.only id).service.supervisors := by simp [hsupervisors]
      exact hid ▸ (List.mem_filter.1 hmem).2

section Lifting

variable {patient : Bool}

/-- A sweep goes past other seeds until it comes to the seed or to its end. -/
theorem exists_caught_up (patient : Bool) {before later : List Sweep} {sweep : Sweep}
    (hsweeps : scene.sweeps = before ++ sweep :: later) (id : PeerId) :
    ∃ events between caught, Run patient scene events between ∧
      (∀ event ∈ events, event.IsAside id) ∧
      between.sweeps = before ++ caught :: later ∧ caught.next? = (sweep.only id).next? := by
  cases sweep with
  | reading => exact ⟨[], scene, .reading, .ends scene, nofun, hsweeps, rfl⟩
  | looking rest =>
      induction rest generalizing scene with
      | nil => exact ⟨[], scene, .looking [], .ends scene, nofun, hsweeps, rfl⟩
      | cons seed rest ih =>
          by_cases hseed : seed.id = id
          · refine ⟨[], scene, _, .ends scene, nofun, hsweeps, (Sweep.next_only_eq ?_).symm⟩
            simpa [Sweep.next?] using hseed
          · have hhappens :=
              Happens.sweep before.length (some seed.id) before _ later _ _ hsweeps rfl rfl rfl
            obtain ⟨events, between, caught, hrun, haside, hcaught, hnext⟩ :=
              @ih { scene with
                service := scene.service.sweepSeed seed
                sweeps := before ++ [.looking rest] ++ later } (by simp)
            have hother : (Event.sweep before.length (some seed.id)).IsAside id :=
              ⟨by simpa [Event.concerns] using hseed, rfl⟩
            refine ⟨_ :: events, between, caught, .works hhappens rfl hrun,
              List.forall_mem_cons.2 ⟨hother, haside⟩, hcaught, ?_⟩
            simp [hnext, Sweep.only, hseed]

/-- An element that is left of a list stands in the list among others that are left. -/
theorem exists_split_of_filter {α : Type} {p : α → Bool} {whole before later : List α} {left : α}
    (h : whole.filter p = before ++ left :: later) :
    ∃ front back, whole = front ++ left :: back ∧ front.filter p = before ∧ p left = true ∧
      back.filter p = later := by
  obtain ⟨front, rest, rfl, hfront, hrest⟩ := List.filter_eq_append_iff.1 h
  obtain ⟨passed, back, rfl, hpassed, hleft, hback⟩ := List.filter_eq_cons_iff.1 hrest
  refine ⟨front ++ passed, back, by simp, ?_, hleft, hback⟩
  rw [List.filter_append, List.filter_eq_nil_iff.2 hpassed, hfront, List.append_nil]

/-- Work of the seed alone happens among the others, once sweeps have gone past these. -/
theorem Happens.exists_of_only (hhappens : Happens (scene.only id) event part)
    (hsound : scene.service.IsSound) (hwork : event.input? = none) (patient : Bool) :
    ∃ events between next, Run patient scene events between ∧ (∀ event ∈ events, event.IsAside id) ∧
      Happens between event next := by
  cases hhappens with
  | input input => cases hwork
  | sweep place seed? before sweep later service next hsweeps hplace hseed hstep =>
      obtain ⟨front, rest, hwhole, rfl, hrest⟩ := List.map_eq_append_iff.1 hsweeps
      obtain ⟨whole, back, rfl, rfl, -⟩ := List.map_eq_cons_iff.1 hrest
      obtain ⟨events, between, caught, hrun, haside, hcaught, hnext⟩ :=
        exists_caught_up patient hwhole id
      obtain ⟨⟨service, next⟩, hstep⟩ := caught.exists_step between.service
      exact ⟨events, between, _, hrun, haside, .sweep place seed? front caught back service next
        hcaught (by simpa using hplace) (hnext.trans hseed) hstep⟩
  | dial seed place moment before dial later board next hmoment hdials hid hplace hstep =>
      obtain ⟨front, back, hwhole, rfl, hown, -⟩ := exists_split_of_filter hdials
      have hvalid : dial.IsSound := hsound.dials dial (by simp [hwhole])
      have hinside : dial.step scene.service.policy moment
          (Board.part id (scene.board scene.service.supervisors)) = _ :=
        (Dial.isolates scene.service.policy moment id).inside hvalid hown
      obtain ⟨⟨whole, left⟩, hmoved, -⟩ := Option.map_eq_some_iff.1 (hinside.symm.trans hstep)
      obtain rfl : id = seed := (of_decide_eq_true hown).symm.trans hid
      exact ⟨[], scene, _, .ends scene, nofun, .dial id place moment front dial back whole left
        ⟨hmoment.now_eq, hmoment.stopping_eq⟩ hwhole hid
        (by simpa [List.countP_filter] using hplace) hmoved⟩
  | supervisor seed place moment before supervisor later board next hmoment hsupervisors hid hplace
      hstep =>
      obtain ⟨front, back, hwhole, rfl, hown, -⟩ := exists_split_of_filter hsupervisors
      have hvalid : supervisor.IsSound := hsound.supervisors supervisor (by simp [hwhole])
      have hinside : supervisor.step scene.service.policy moment
          (Board.part id (scene.board [])) = _ :=
        (Supervisor.isolates scene.service.policy moment id).inside hvalid hown
      obtain ⟨⟨whole, left⟩, hmoved, -⟩ := Option.map_eq_some_iff.1 (hinside.symm.trans hstep)
      obtain rfl : id = seed := (of_decide_eq_true hown).symm.trans hid
      exact ⟨[], scene, _, .ends scene, nofun, .supervisor id place moment front supervisor back
        whole left ⟨hmoment.now_eq, hmoment.stopping_eq⟩ hwhole hid
        (by simpa [List.countP_filter] using hplace) hmoved⟩

/-- If all seeds rest, then the seed rests as if there were no others. -/
theorem IsResting.only (hrests : scene.IsResting) (hsound : scene.service.IsSound) (id : PeerId) :
    (scene.only id).IsResting := by
  intro event part hhappens
  cases hwork : event.input? with
  | some input => exact ⟨input, Event.eq_input hwork⟩
  | none =>
      obtain ⟨events, between, next, hrun, haside, hwhole⟩ :=
        hhappens.exists_of_only hsound hwork false
      cases hrun with
      | ends => exact hrests event next hwhole
      | goes _ first _ _ _ _ hfirst =>
          cases hrests.not_works hfirst (haside first List.mem_cons_self).work

namespace Run

variable {start last : Scene}

/-- A run in which everything is about other seeds leaves the seed as it was. -/
theorem outside (hrun : Run patient start events last) (hsound : start.service.IsSound)
    (hothers : ∀ event ∈ events, event.concerns id = false) : last.only id = start.only id := by
  induction hrun with
  | ends => rfl
  | goes scene event next events last _ hhappens _ ih =>
      obtain ⟨hother, hothers⟩ := List.forall_mem_cons.1 hothers
      exact (ih (hhappens.is_sound hsound) hothers).trans (hhappens.outside hsound hother)

/-- A run of all seeds is a run of the seed as if there were no others. -/
theorem only (hrun : Run patient start events last) (hsound : start.service.IsSound) (id : PeerId) :
    Run patient (start.only id) (about id events) (last.only id) := by
  induction hrun with
  | ends => exact .ends _
  | goes scene event next events last hpatient hhappens _ ih =>
      have hrest := ih (hhappens.is_sound hsound)
      cases hconcerns : event.concerns id with
      | true =>
          rw [about_cons hconcerns]
          exact .goes _ event _ _ _ (fun htrue htick => (hpatient htrue htick).only hsound id)
            (hhappens.inside hsound hconcerns) hrest
      | false =>
          rw [about_cons_of_other hconcerns, ← hhappens.outside hsound hconcerns]
          exact hrest

end Run

/-- A settled run of all seeds is one of the seed as if there were no others. -/
theorem Settled.only (hsettled : Settled scene events) (hsound : scene.service.IsSound)
    (id : PeerId) : Settled (scene.only id) (about id events) := by
  induction hsettled with
  | rests scene hrests => exact .rests _ (hrests.only hsound id)
  | takes scene input events hrests _ ih =>
      have hhappens := @Happens.input scene input
      have hrest := ih (hhappens.is_sound hsound)
      cases hconcerns : Event.concerns id (.input input) with
      | true =>
          rw [about_cons hconcerns]
          rw [← take_only hconcerns] at hrest
          exact .takes _ input _ (hrests.only hsound id) hrest
      | false =>
          rw [about_cons_of_other hconcerns, ← hhappens.outside hsound hconcerns]
          exact hrest
  | works scene event next events hwork hhappens _ ih =>
      have hrest := ih (hhappens.is_sound hsound)
      cases hconcerns : event.concerns id with
      | true =>
          rw [about_cons hconcerns]
          exact .works _ event _ _ hwork (hhappens.inside hsound hconcerns) hrest
      | false =>
          rw [about_cons_of_other hconcerns, ← hhappens.outside hsound hconcerns]
          exact hrest

/-- While the seed rests, all work is for others. -/
theorem Run.aside_of_resting (hrun : Run patient scene events after)
    (hsound : scene.service.IsSound) (hrests : (scene.only id).IsResting)
    (hworks : ∀ event ∈ events, event.input? = none) : ∀ event ∈ events, event.IsAside id := by
  induction hrun with
  | ends => exact nofun
  | goes scene event next events last _ hhappens _ ih =>
      obtain ⟨hwork, hworks⟩ := List.forall_mem_cons.1 hworks
      have hother : event.concerns id = false := by
        by_contra hconcerns
        exact hrests.not_works
          (hhappens.inside hsound (Bool.eq_true_of_not_eq_false hconcerns)) hwork
      exact List.forall_mem_cons.2 ⟨⟨hother, hwork⟩,
        ih (hhappens.is_sound hsound) (hhappens.outside hsound hother ▸ hrests) hworks⟩

/-- What goes on in the seed alone goes on among the others. -/
theorem Happens.exists_among (hhappens : Happens (scene.only id) event part)
    (hsound : scene.service.IsSound) (hwork : event.input? = none) (patient : Bool) :
    ∃ events between next, Run patient scene events between ∧ (∀ event ∈ events, event.IsAside id) ∧
      Happens between event next ∧ next.only id = part := by
  obtain ⟨events, between, next, hrun, haside, hnext⟩ :=
    hhappens.exists_of_only hsound hwork patient
  have hinside := hnext.inside (hrun.is_sound hsound) (hhappens.concerns_of_only hwork)
  rw [hrun.outside hsound fun event hmem => (haside event hmem).other] at hinside
  exact ⟨events, between, next, hrun, haside, hnext, hinside.unique hhappens⟩

/-- Inputs that are about other seeds are taken, and then all work is done, unless some is left for
the seed. -/
theorem exists_taken (patient : Bool) (hsound : scene.service.IsSound) {others : List Input}
    (hothers : ∀ input ∈ others, input.concerns id = false) :
    ∃ events between, Run patient scene events between ∧
      (∀ event ∈ events, event.concerns id = false) ∧ events.filterMap Event.input? = others ∧
      ((scene.only id).IsResting → between.IsResting) := by
  induction others generalizing scene with
  | nil =>
      by_cases hrests : (scene.only id).IsResting
      · obtain ⟨between, ⟨events, hworks, hrun⟩, hbetween⟩ := exists_resting scene hsound
        have haside := (hrun patient).aside_of_resting hsound hrests hworks
        exact ⟨events, between, hrun patient, fun event hmem => (haside event hmem).other,
          List.filterMap_eq_nil_iff.2 hworks, fun _ => hbetween⟩
      · exact ⟨[], scene, .ends scene, nofun, rfl, fun h => absurd h hrests⟩
  | cons input others ih =>
      obtain ⟨hother, hothers⟩ := List.forall_mem_cons.1 hothers
      have hhappens := @Happens.input scene input
      obtain ⟨events, between, hrun, haside, htaken, hbetween⟩ :=
        ih (hhappens.is_sound hsound) hothers
      rw [only_take hother] at hbetween
      refine ⟨.input input :: events, between,
        .goes scene _ _ _ between (fun _ htick => ?_) hhappens hrun,
        List.forall_mem_cons.2 ⟨hother, haside⟩, ?_, hbetween⟩
      · cases htick
        cases hother
      · rw [← htaken]
        rfl

/-- What happens to the seed alone can happen among the others, once the inputs that are about these
have been taken. -/
theorem Happens.exists_ready (hhappens : Happens (scene.only id) event part)
    (hsound : scene.service.IsSound)
    (hpatient : patient = true → event = .input .tick → (scene.only id).IsResting)
    {inputs : List Input}
    (hinputs : inputs.filter (·.concerns id) = (event :: events).filterMap Event.input?) :
    ∃ before between whole rest, Run patient scene before between ∧
      (∀ event ∈ before, event.concerns id = false) ∧
      (patient = true → event = .input .tick → between.IsResting) ∧ Happens between event whole ∧
      whole.only id = part ∧ event.concerns id = true ∧
      inputs = before.filterMap Event.input? ++ event.input?.toList ++ rest ∧
      rest.filter (·.concerns id) = events.filterMap Event.input? := by
  cases hwork : event.input? with
  | none =>
      obtain ⟨before, between, whole, hrun, haside, hwhole, hpart⟩ :=
        hhappens.exists_among hsound hwork patient
      refine ⟨before, between, whole, inputs, hrun, fun event hmem => (haside event hmem).other,
        fun _ htick => ?_, hwhole, hpart, hhappens.concerns_of_only hwork, ?_, ?_⟩
      · rw [htick] at hwork
        cases hwork
      · rw [List.filterMap_eq_nil_iff.2 fun event hmem => (haside event hmem).work]
        rfl
      · rwa [List.filterMap_cons_none hwork] at hinputs
  | some input =>
      obtain rfl := Event.eq_input hwork
      rw [List.filterMap_cons_some hwork] at hinputs
      obtain ⟨others, rest, rfl, hothers, hconcerns, hrest⟩ := List.filter_eq_cons_iff.1 hinputs
      obtain ⟨before, between, hrun, haside, rfl, hbetween⟩ :=
        exists_taken patient hsound (by simpa using hothers)
      refine ⟨before, between, between.take input, rest, hrun, haside,
        fun htrue htick => hbetween (hpatient htrue htick), .input input, ?_, hconcerns, by simp,
        hrest⟩
      cases hhappens
      rw [← take_only hconcerns, hrun.outside hsound haside]

/-- A run of the seed alone is one among the others, whatever inputs come that are about these. -/
theorem Run.exists_among (hrun : Run patient (scene.only id) events part)
    (hsound : scene.service.IsSound) {inputs : List Input}
    (hinputs : inputs.filter (·.concerns id) = events.filterMap Event.input?) :
    ∃ wholeEvents last, Run patient scene wholeEvents last ∧
      wholeEvents.filterMap Event.input? = inputs ∧
      about id wholeEvents = events := by
  generalize hstart : scene.only id = start at hrun
  induction hrun generalizing scene inputs with
  | ends start =>
      obtain ⟨before, last, hrun, haside, htaken, -⟩ :=
        exists_taken patient hsound (by simpa using hinputs)
      exact ⟨before, last, hrun, htaken, by simpa [about] using haside⟩
  | goes start event next events last hpatient hhappens _ ih =>
      subst hstart
      obtain ⟨before, between, whole, rest, hbefore, haside, hready, hwhole, hnext, hconcerns, rfl,
        hrest⟩ := hhappens.exists_ready hsound hpatient hinputs
      obtain ⟨later, last, hlater, htaken, habout⟩ :=
        ih (hwhole.is_sound (hbefore.is_sound hsound)) hrest hnext
      refine ⟨before ++ event :: later, last,
        hbefore.append (.goes between event whole later last hready hwhole hlater), ?_, ?_⟩
      · rw [List.filterMap_append, List.filterMap_cons, htaken]
        cases event.input? <;> simp
      · have hbefore : about id before = [] := List.filter_eq_nil_iff.2 (by simpa using haside)
        rw [about, List.filter_append, ← about, ← about, hbefore, about_cons hconcerns, habout,
          List.nil_append]

end Lifting

/-- A seed at `10.0.0.2:4001`. -/
def twin : Seed where
  id := ⟨19 :: List.replicate 31 0, rfl, by decide +kernel⟩
  address := .v4 ⟨10, 0, 0, 2⟩ 4001

/-- A new mechanism with two seeds. -/
def pair (transport : Transport) : Scene :=
  initial [lone, twin] {} [0] transport

end Scene

end Seed

end PeerFinder
