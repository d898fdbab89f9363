import Mathlib.Data.List.Count
import Mathlib.Data.List.Nodup
import PeerFinder.Proofs.Seed.Interleaving

/-!
# Every connected seed is watched

Before a stop, a seed that is flagged as connected has a supervisor, and no seed has two. The flag of
supervision and the supervisor come together, when a dial calls for it (`Step.is_watched`). All flags,
dials and supervisors are about seeds of the list (`Step.is_listed`), which is what is left of the
seeds that were ever given when of several with one identity the first is kept (`Path.seeds_eq`).
-/

namespace PeerFinder.Seed

namespace Service

variable (seeds : List Seed) (id : PeerId)

/-- Adding a seed keeps the first of each identity. -/
theorem find_add_to (seed : Seed) :
    (addTo seeds seed).find? (·.id = id) = (seeds ++ [seed]).find? (·.id = id) := by
  unfold addTo
  split_ifs with hlisted
  · -- The seed that is passed over is found only if one of its identity was found before.
    obtain ⟨listed, hmem, hid⟩ := List.any_eq_true.1 hlisted
    rw [List.find?_append]
    by_cases hseed : seed.id = id
    · have hfound : (seeds.find? (·.id = id)).isSome := by
        rw [List.find?_isSome]
        exact ⟨listed, hmem, by simp_all⟩
      obtain ⟨found, hfound⟩ := Option.isSome_iff_exists.1 hfound
      simp [hfound]
    · simp [hseed]
  · rfl

/-- Adding seeds keeps the first of each identity. -/
theorem find_foldl_add_to (added : List Seed) :
    (added.foldl addTo seeds).find? (·.id = id) = (seeds ++ added).find? (·.id = id) := by
  induction added generalizing seeds with
  | nil => simp
  | cons seed rest ih =>
      rw [List.foldl_cons, ih, List.find?_append, find_add_to, ← List.find?_append,
        List.append_assoc, List.singleton_append]

/-- No two seeds of a list to which a seed is added share an identity. -/
theorem nodup_add_to {seeds : List Seed} (hnodup : (seeds.map Seed.id).Nodup) (seed : Seed) :
    ((addTo seeds seed).map Seed.id).Nodup := by
  unfold addTo
  split_ifs with hlisted
  · exact hnodup
  · rw [List.map_append, List.map_singleton, List.nodup_append]
    refine ⟨hnodup, List.nodup_singleton _, ?_⟩
    simp_all

/-- No two seeds of a list to which seeds are added share an identity. -/
theorem nodup_foldl_add_to {seeds : List Seed} (hnodup : (seeds.map Seed.id).Nodup)
    (added : List Seed) : ((added.foldl addTo seeds).map Seed.id).Nodup := by
  induction added generalizing seeds with
  | nil => exact hnodup
  | cons seed rest ih => exact ih (nodup_add_to hnodup seed)

end Service

/-- The seeds that a sweep has still to look at. -/
def Sweep.ids : Sweep → List PeerId
  | .reading => []
  | .looking rest => rest.map Seed.id

@[simp]
theorem Sweep.ids_reading : Sweep.reading.ids = [] := rfl

@[simp]
theorem Sweep.ids_looking (rest : List Seed) : (Sweep.looking rest).ids = rest.map Seed.id := rfl

/-- Whether a seed is flagged at all. -/
def Flags.Has (flags : Flags) (id : PeerId) : Prop :=
  id ∈ flags.connected ∨ id ∈ flags.dialing ∨ id ∈ flags.supervised

/-- Every connected seed is under supervision, and the seeds under supervision are those with a
supervisor, of which none is about to end. -/
structure AreWatched (flags : Flags) (supervisors : List Supervisor) : Prop where
  connected : ∀ id, id ∈ flags.connected → id ∈ flags.supervised
  nodup : (supervisors.map (·.seed.id)).Nodup
  supervised : ∀ id, id ∈ flags.supervised ↔ id ∈ supervisors.map (·.seed.id)
  live : ∀ supervisor ∈ supervisors, supervisor.point ≠ .ending

namespace Dial

variable {policy : Policy} {dial : Dial} {board after : Board} {next : Option Dial}

/-- A dial flags no other seed than its own. -/
theorem Moves.has_of_has (hmoves : Moves policy dial board after next) (id : PeerId)
    (hhas : after.flags.Has id) : board.flags.Has id ∨ dial.seed.id = id := by
  cases hmoves with
  | went transport point => exact .inl hhas
  | settled connected _ hpoint hafter =>
      subst hafter
      unfold Flags.Has at hhas ⊢
      simp only [mem_connected_settle, mem_dialing_settle, mem_supervised_settle] at hhas
      tauto

/-- A dial stays with its seed. -/
theorem Moves.ids_eq (hmoves : Moves policy dial board after next) (id : PeerId)
    (hid : id ∈ next.toList.map (·.seed.id)) : dial.seed.id = id := by
  cases hmoves <;> simp_all

/-- The supervisors that a dial calls for watch its seed. -/
theorem Moves.recruit_ids (hmoves : Moves policy dial board after next) (id : PeerId)
    (hid : id ∈ after.recruits.map (·.seed.id)) :
    id ∈ board.recruits.map (·.seed.id) ∨ dial.seed.id = id := by
  cases hmoves with
  | went transport point => exact .inl hid
  | settled connected _ hpoint hafter =>
      subst hafter
      rw [recruits_settle, List.map_append, List.mem_append] at hid
      refine hid.imp_right fun hmem => ?_
      split_ifs at hmem
      · exact (List.mem_singleton.1 hmem).symm
      · cases hmem

/-- A dial puts its seed under supervision together with a supervisor, and flags it as connected only
under supervision. -/
theorem Moves.are_watched (hmoves : Moves policy dial board after next) {watching : List Supervisor}
    (h : AreWatched board.flags (watching ++ board.recruits)) :
    AreWatched after.flags (watching ++ after.recruits) := by
  cases hmoves with
  | went transport point => exact h
  | settled connected _ hpoint hafter =>
      subst hafter
      have hconnected : ∀ id, id ∈ (settle dial.seed connected board).flags.connected →
          id ∈ (settle dial.seed connected board).flags.supervised := by
        intro id hmem
        rw [mem_connected_settle] at hmem
        exact mem_supervised_settle _ _ _ _ |>.2 (hmem.imp_right (h.connected id))
      by_cases hcalls : connected = true ∧ dial.seed.id ∉ board.flags.supervised
      · have hnew := mt (h.supervised dial.seed.id).2 hcalls.2
        rw [recruits_settle, if_pos hcalls, ← List.append_assoc]
        have hids : ((watching ++ board.recruits) ++ [Supervisor.ofSeed dial.seed]).map
            (·.seed.id) = (watching ++ board.recruits).map (·.seed.id) ++ [dial.seed.id] :=
          List.map_append
        refine ⟨hconnected, ?_, fun id => ?_, fun supervisor hmem => ?_⟩
        · rw [hids, ← List.concat_eq_append]
          exact h.nodup.concat hnew
        · rw [mem_supervised_settle, h.supervised, hids, List.mem_append, List.mem_singleton,
            or_comm, and_iff_right hcalls.1, eq_comm]
        · obtain hold | hrecruit := List.mem_append.1 hmem
          · exact h.live supervisor hold
          · rw [List.mem_singleton.1 hrecruit]
            nofun
      · rw [recruits_settle, if_neg hcalls, List.append_nil]
        refine ⟨hconnected, h.nodup, fun id => ?_, h.live⟩
        rw [mem_supervised_settle, ← h.supervised]
        refine ⟨?_, .inr⟩
        rintro (⟨hconnects, rfl⟩ | hmem)
        · by_contra hunsupervised
          exact hcalls ⟨hconnects, hunsupervised⟩
        · exact hmem

end Dial

namespace Supervisor

variable {policy : Policy} {moment : Moment} {supervisor : Supervisor} {board after : Board}
  {next : Option Supervisor}

/-- A supervisor flags no other seed than its own. -/
theorem Moves.has_of_has (hmoves : Moves policy moment supervisor board after next) (id : PeerId)
    (hhas : after.flags.Has id) : board.flags.Has id ∨ supervisor.seed.id = id := by
  cases hmoves with
  | unfit | went => exact .inl hhas
  | kept | yielded | claimed | reconnected | failed | ended =>
      unfold Flags.Has at hhas ⊢
      simp [Board.mapFlags, Flags.connect, Flags.lose, Flags.claim, Flags.release, Flags.dismiss]
        at hhas
      tauto

/-- A supervisor stays with its seed. -/
theorem Moves.ids_eq (hmoves : Moves policy moment supervisor board after next) (id : PeerId)
    (hid : id ∈ next.toList.map (·.seed.id)) : supervisor.seed.id = id := by
  cases hmoves <;> simp_all

/-- Before a stop, a supervisor goes on watching its seed, which stays under supervision, and flags no
other seed as connected. -/
theorem Moves.are_watched (hmoves : Moves policy moment supervisor board after next)
    {before later : List Supervisor} (hinterval : policy.superviseInterval ≠ 0)
    (hstopping : moment.stopping = false)
    (h : AreWatched board.flags (before ++ supervisor :: later)) :
    AreWatched after.flags (before ++ next.toList ++ later) := by
  have hlive := h.live supervisor (by simp)
  have hown : supervisor.seed.id ∈ board.flags.supervised := (h.supervised _).2 (by simp)
  -- The supervisors after the step watch the same seeds if this one goes on.
  suffices hgoes : (∃ point, next = some { supervisor with point := point } ∧ point ≠ .ending) ∧
      (∀ id, id ∈ after.flags.connected →
        id ∈ board.flags.connected ∨ supervisor.seed.id = id) ∧
      after.flags.supervised = board.flags.supervised by
    obtain ⟨⟨point, rfl, hpoint⟩, hconnected, hsupervised⟩ := hgoes
    have hids : (before ++ [(⟨supervisor.seed, point⟩ : Supervisor)] ++ later).map (·.seed.id) =
        (before ++ supervisor :: later).map (·.seed.id) := by simp
    refine ⟨fun id hmem => ?_, ?_, fun id => ?_, fun other hmem => ?_⟩
    · rw [hsupervised]
      exact (hconnected id hmem).elim (h.connected id) fun heq => heq ▸ hown
    · exact hids ▸ h.nodup
    · rw [hsupervised, h.supervised, ← hids]
      rfl
    · have hothers := h.live other
      simp only [Option.toList_some, List.mem_append, List.mem_cons] at hmem hothers
      grind
  cases hmoves with
  | unfit hpoint hzero => exact absurd hzero hinterval
  | ended hpoint => exact absurd hpoint hlive
  | went transport point howns hleft hending =>
      refine ⟨⟨point, rfl, fun heq => ?_⟩, fun id h => .inl h, rfl⟩
      rw [hending heq] at hstopping
      cases hstopping
  | kept | yielded | claimed | reconnected | failed =>
      refine ⟨⟨_, rfl, by simp⟩, fun id h => ?_, rfl⟩
      simp [Board.mapFlags, Flags.connect, Flags.lose, Flags.claim, Flags.release] at h
      tauto

end Supervisor

namespace Scene

/-- The seeds with a supervisor, once for every supervisor. -/
def watched (scene : Scene) : List PeerId :=
  scene.service.supervisors.map (·.seed.id)

/-- Whether a seed of this identity is on the list. -/
def Lists (scene : Scene) (id : PeerId) : Prop :=
  id ∈ scene.service.seeds.map Seed.id

/-- The seeds that work under way is about. -/
def busy (scene : Scene) : List PeerId :=
  scene.service.dials.map (·.seed.id) ++ scene.watched ++ scene.sweeps.flatMap Sweep.ids

/-- Whether work under way or flags are about seeds of the list only. -/
def IsListed (scene : Scene) : Prop :=
  ∀ id, id ∈ scene.busy ∨ scene.service.flags.Has id → scene.Lists id

variable {scene after : Scene} {label : Label}

/-- A step gives the mechanism the seed that it is about, and no other. -/
theorem Step.seeds_eq (hstep : Step scene label after) :
    after.service.seeds = label.added?.toList.foldl Service.addTo scene.service.seeds := by
  cases hstep with
  | surroundings | stop | begin | abandon | dial | supervisor => rfl
  | add seed =>
      simp only [Service.addSeed, Label.added?, Option.toList_some, List.foldl_cons, List.foldl_nil,
        Service.addTo]
      split_ifs <;> rfl
  | sweep before sweep later service next hsweeps hnext =>
      cases Sweep.step_moves hnext <;> rfl

/-- A step keeps the timings. -/
theorem Step.policy_eq (hstep : Step scene label after) :
    after.service.policy = scene.service.policy := by
  cases hstep with
  | surroundings | stop | begin | abandon | dial | supervisor => rfl
  | add seed =>
      unfold Service.addSeed
      split_ifs <;> rfl
  | sweep before sweep later service next hsweeps hnext =>
      cases Sweep.step_moves hnext <;> rfl

/-- What is on the list stays there. -/
theorem Step.lists_of_lists (hstep : Step scene label after) {id : PeerId}
    (hlists : scene.Lists id) : after.Lists id := by
  have hadd : ∀ seed, id ∈ (Service.addTo scene.service.seeds seed).map Seed.id := by
    intro seed
    unfold Service.addTo
    split_ifs
    · exact hlists
    · rw [List.map_append]
      exact List.mem_append_left _ hlists
  rw [Lists, hstep.seeds_eq]
  cases label.added? with
  | none => exact hlists
  | some seed => exact hadd seed

/-- A step begins work about a seed, or flags it, only if there was work about it or it was flagged,
or if it is on the list. -/
theorem Step.busy_or_lists (hstep : Step scene label after) {id : PeerId}
    (hbusy : id ∈ after.busy ∨ after.service.flags.Has id) :
    (id ∈ scene.busy ∨ scene.service.flags.Has id) ∨ scene.Lists id := by
  cases hstep with
  | surroundings | stop | begin => exact .inl hbusy
  | add seed =>
      simp only [busy, watched, Service.addSeed] at hbusy ⊢
      split_ifs at hbusy <;> exact .inl hbusy
  | abandon before sweep later hsweeps =>
      simp only [busy, watched, hsweeps, List.flatMap_append, List.flatMap_cons, List.mem_append]
        at hbusy ⊢
      grind
  | sweep before sweep later service next hsweeps hnext =>
      simp only [busy, watched, Lists, hsweeps, List.flatMap_append, List.flatMap_cons,
        List.mem_append] at hbusy ⊢
      cases Sweep.step_moves hnext with
      | read | finished | passed seed rest =>
          simp only [Option.toList_some, Option.toList_none, List.flatMap_cons, List.flatMap_nil,
            Sweep.ids_looking, List.map_cons, List.mem_append, List.mem_cons] at hbusy ⊢
          grind
      | dialed seed rest hfree =>
          simp only [Option.toList_some, List.flatMap_cons, List.flatMap_nil,
            Sweep.ids_looking, List.map_cons, List.map_append, List.map_nil, List.mem_append,
            List.mem_cons, Flags.Has, Flags.claim, Dial.ofSeed, Std.ExtTreeSet.mem_insert,
            Std.LawfulEqCmp.compare_eq_iff_eq] at hbusy ⊢
          grind
  | dial moment before dial later watching recruits board next hnow hstopping hdials hsupervisors
      hnext =>
      have hmoves := Dial.step_moves hnext
      have hhas := hmoves.has_of_has id
      have hnextid := hmoves.ids_eq id
      have hrecruits := hmoves.recruit_ids id
      simp only [busy, watched, withWork, hdials, hsupervisors, List.map_append, List.map_cons,
        List.mem_append, List.mem_cons, Scene.board] at hbusy hhas hrecruits ⊢
      grind
  | supervisor moment before supervisor later recruits board next hnow hstopping hsupervisors
      hnext =>
      have hmoves := Supervisor.step_moves hnext
      have hhas := hmoves.has_of_has id
      have hnextid := hmoves.ids_eq id
      simp only [busy, watched, withWork, hsupervisors, List.map_append, List.map_cons,
        List.mem_append, List.mem_cons, Scene.board] at hbusy hhas ⊢
      grind

/-- Work and flags stay about seeds of the list. -/
theorem Step.is_listed (hstep : Step scene label after) (h : scene.IsListed) : after.IsListed := by
  intro id hbusy
  obtain hbefore | hlists := hstep.busy_or_lists hbusy
  · exact hstep.lists_of_lists (h id hbefore)
  · exact hstep.lists_of_lists hlists

/-- Before a stop, steps keep every connected seed watched. -/
theorem Step.are_watched (hstep : Step scene label after)
    (hinterval : scene.service.policy.superviseInterval ≠ 0) (hstopping : scene.stopping = false)
    (h : AreWatched scene.service.flags scene.service.supervisors) :
    AreWatched after.service.flags after.service.supervisors := by
  cases hstep with
  | surroundings | stop | begin | abandon => exact h
  | add seed =>
      unfold Service.addSeed
      split_ifs <;> exact h
  | sweep before sweep later service next hsweeps hnext =>
      cases Sweep.step_moves hnext with
      | read | finished | passed => exact h
      | dialed => exact ⟨h.connected, h.nodup, h.supervised, h.live⟩
  | dial moment before dial later watching recruits board next _ _ hdials hsupervisors hnext =>
      rw [hsupervisors] at h
      exact (Dial.step_moves hnext).are_watched h
  | supervisor moment before supervisor later recruits board next _ hmoment hsupervisors hnext =>
      rw [hsupervisors] at h
      exact (Supervisor.step_moves hnext).are_watched hinterval (hmoment.trans hstopping) h

/-- A mechanism that was stopped stays so. -/
theorem Step.stopping_of_stopping (hstep : Step scene label after)
    (hstopping : after.stopping = false) : scene.stopping = false := by
  cases hstep with
  | stop => cases hstopping
  | surroundings | begin | abandon | add | sweep | dial | supervisor => exact hstopping

section Run

variable {seeds : List Seed} {policy : Policy} {shutdown : Token} {transport : Transport}
  {labels : List Label}

/-- Before a stop, every connected seed is watched. -/
theorem Path.are_watched (hpath : Path (initial seeds policy shutdown transport) labels scene)
    (hinterval : policy.superviseInterval ≠ 0) (hstopping : scene.stopping = false) :
    scene.service.policy = policy ∧ AreWatched scene.service.flags scene.service.supervisors := by
  generalize horigin : initial seeds policy shutdown transport = origin at hpath
  induction hpath with
  | refl =>
      subst horigin
      refine ⟨rfl, ?_⟩
      constructor <;> simp [initial, Service.ofSeeds]
  | step labels middle label after hpath hstep ih =>
      have hrunning := hstep.stopping_of_stopping hstopping
      obtain ⟨hpolicy, hwatched⟩ := ih hrunning
      exact ⟨hstep.policy_eq.trans hpolicy,
        hstep.are_watched (hpolicy ▸ hinterval) hrunning hwatched⟩

/-- Work and flags are about seeds of the list. -/
theorem Path.is_listed (hpath : Path (initial seeds policy shutdown transport) labels scene) :
    scene.IsListed := by
  generalize horigin : initial seeds policy shutdown transport = origin at hpath
  induction hpath with
  | refl =>
      subst horigin
      simp [IsListed, busy, watched, Flags.Has, initial, Service.ofSeeds]
  | step labels middle label after hpath hstep ih => exact hstep.is_listed ih

/-- The list is what was given at first, with every seed added that came later. -/
theorem Path.seeds_eq (hpath : Path (initial seeds policy shutdown transport) labels scene) :
    scene.service.seeds = (seeds ++ labels.filterMap Label.added?).foldl Service.addTo [] := by
  generalize horigin : initial seeds policy shutdown transport = origin at hpath
  induction hpath with
  | refl =>
      subst horigin
      rw [List.filterMap_nil, List.append_nil]
      rfl
  | step labels middle label after hpath hstep ih =>
      rw [hstep.seeds_eq, ih, ← List.foldl_append, List.filterMap_append, List.append_assoc]
      cases label <;> rfl

/-- As long as a mechanism of seeds with an interval above zero is not stopped, every connected seed
is under supervision, every seed under supervision has one supervisor, and all flags are about seeds
of the list, which holds no identity twice and for each identity the first seed that was given. -/
theorem connected_seeds_are_watched (hinterval : policy.superviseInterval ≠ 0)
    (hpath : Path (initial seeds policy shutdown transport) labels scene)
    (hstopping : scene.stopping = false) :
    (∀ id, id ∈ scene.service.flags.connected → id ∈ scene.service.flags.supervised) ∧
    (∀ id, id ∈ scene.service.flags.supervised → scene.watched.count id = 1) ∧
    (∀ supervisor ∈ scene.service.supervisors, supervisor.point ≠ .ending ∧
      supervisor.seed.id ∈ scene.service.flags.supervised) ∧
    (∀ id, scene.service.flags.Has id → scene.Lists id) ∧
    (scene.service.seeds.map Seed.id).Nodup ∧
    ∀ id, scene.service.seeds.find? (·.id = id) =
      (seeds ++ labels.filterMap Label.added?).find? (·.id = id) := by
  obtain ⟨-, hwatched⟩ := hpath.are_watched hinterval hstopping
  refine ⟨hwatched.connected, fun id hmem => ?_, fun supervisor hmem => ⟨?_, ?_⟩,
    fun id hhas => hpath.is_listed id (.inr hhas), ?_, fun id => ?_⟩
  · exact List.count_eq_one_of_mem hwatched.nodup ((hwatched.supervised id).1 hmem)
  · exact hwatched.live supervisor hmem
  · exact (hwatched.supervised _).2 (List.mem_map_of_mem hmem)
  · rw [hpath.seeds_eq]
    exact Service.nodup_foldl_add_to (by simp) _
  · rw [hpath.seeds_eq, Service.find_foldl_add_to, List.nil_append]

/-- The seed of a new mechanism is swept, can be reached, and is connected and watched when its dial
is over. -/
theorem connected_seeds_are_watched_fresh :
    ∃ labels scene, Path fresh labels scene ∧ scene.stopping = false ∧
      lone.id ∈ scene.service.flags.connected ∧ lone.id ∈ scene.service.flags.supervised ∧
      scene.watched.count lone.id = 1 := by
  have hbegun := Path.step _ _ _ _ _ (Path.refl fresh) (.begin fresh rfl)
  have hread := Path.step _ _ _ _ _ hbegun (.sweep _ [] .reading [] _ _ rfl rfl)
  have hswept := Path.step _ _ _ _ _ hread (.sweep _ [] (.looking [lone]) [] _ _ rfl rfl)
  have hreachable := Path.step _ _ _ _ _ hswept
    (.surroundings _ 0 (fresh.transport.setReachable lone.id true) [])
  have hdialed := Path.step _ _ _ _ _ hreachable
    (.dial _ { now := 0 } [] (Dial.ofSeed {} lone) [] [] [] _ _ rfl rfl rfl rfl rfl)
  have hconnected := Path.step _ _ _ _ _ hdialed
    (.dial _ { now := 0 } [] _ [] [] [] _ _ rfl rfl rfl rfl rfl)
  have hsettled := Path.step _ _ _ _ _ hconnected
    (.dial _ { now := 0 } [] ⟨lone, .ending true⟩ [] [] [] _ _ rfl rfl rfl rfl rfl)
  have hpath : Path (initial [lone] {} [0] { localId := nodeId }) _ _ := hsettled
  obtain ⟨hsupervised, hcount, -⟩ := connected_seeds_are_watched (by decide) hpath rfl
  refine ⟨_, _, hsettled, rfl, ?_⟩
  suffices hmem : lone.id ∈ _ from
    ⟨hmem, hsupervised _ hmem, hcount _ (hsupervised _ hmem)⟩
  exact (Dial.mem_connected_settle lone true _ _).2 (.inl ⟨rfl, rfl⟩)

end Run

end Scene

end PeerFinder.Seed
