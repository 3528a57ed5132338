import QtCesium.RuntimeObjects

/-! What each call, dispatched task and worker completion does to the runtime, and that every run keeps
the objects in order. -/

namespace QtCesium

open Futures

variable (readers : Readers) (network : Network)

/-! ### Starting a tileset -/

/-- A new tileset next to what there was, not yet the current one. -/
structure Created (world : World) (assetId : Int) (token : Bytes) (scheduler : Address)
    (after : World) : Prop where
  allocated : Allocated after
  main : after.main = world.main
  nextTileset : after.nextTileset = world.nextTileset + 1
  tileset : after.tileset = world.tileset
  mainThreadScope : after.mainThreadScope = world.mainThreadScope
  alive : after.alive = world.alive
  ticking : after.ticking = world.ticking
  object : ∃ tileset, after.tilesets world.nextTileset = some tileset ∧ tileset.scheduler = scheduler ∧
    tileset.loaderFactory = World.ionFactory assetId token ∧ tileset.destroyed = false
  others : ∀ other, other ≠ world.nextTileset → after.tilesets other = world.tilesets other

theorem created {world : World} (h : Allocated world) {scheduler : Address}
    (hfree : world.schedulers scheduler = none) (assetId : Int) (token : Bytes) (early : Nat) :
    Created world assetId token scheduler
      (world.createIonTileset readers network assetId token scheduler early) := by
  unfold World.createIonTileset
  set id := world.nextTileset
  set allocated : World := { world with
    nextTileset := id + 1
    schedulers := Function.update world.schedulers scheduler (some []) }
  obtain ⟨tileset, rfl, hfactory, -, hdestroyed, hloading, heffect⟩ :=
    World.effect_createFromLoaderFactory readers network allocated id scheduler
      (World.ionFactory assetId token) early
  obtain ⟨tileset', htileset', hadvances⟩ := heffect.object
  have hruntime := heffect.runtime
  exact {
    allocated := (h.create hfree hloading).effect (Function.update_self ..) (Or.inl hdestroyed)
      heffect.of_setTileset
    main := hruntime.main
    nextTileset := hruntime.nextTileset
    tileset := hruntime.tileset
    mainThreadScope := hruntime.mainThreadScope
    alive := hruntime.alive
    ticking := hruntime.ticking
    object := ⟨tileset', htileset', hadvances.scheduler, hadvances.loaderFactory.trans hfactory,
      hadvances.destroyed.trans hdestroyed⟩
    others := heffect.others }

theorem World.assignTileset_runtime (world : World) (id : TilesetId) :
    { world with tileset := some id }.SameRuntime (world.assignTileset id) := by
  unfold World.assignTileset
  split
  · exact .refl _
  · exact World.destroyTileset_runtime _ _

theorem World.assignTileset_writes (world : World) (id : TilesetId) :
    (world.assignTileset id).writes = world.writes := by
  unfold World.assignTileset
  split
  · rfl
  · exact World.destroyTileset_writes _ _

/-- The tileset that was current is destroyed, and no other. -/
theorem World.assignTileset_tilesets (world : World) (id other : TilesetId) :
    (world.assignTileset id).tilesets other =
      if world.tileset = some other then
        (world.tilesets other).map fun tileset => { tileset with destroyed := true }
      else world.tilesets other := by
  unfold World.assignTileset
  split
  next h => rw [if_neg (by simp [h])]
  next old h =>
    rw [World.destroyTileset_tilesets]
    by_cases hother : other = old
    · rw [hother, Function.update_self, if_pos h]
    · rw [Function.update_of_ne hother, if_neg (by simp [h, Ne.symm hother])]

theorem Allocated.assignTileset {world : World} (h : Allocated world) (id : TilesetId)
    (hcurrent : ∀ old tileset, world.tileset = some old → world.tilesets old = some tileset →
      tileset.destroyed = false) : Allocated (world.assignTileset id) := by
  have hset : Allocated { world with tileset := some id } := h.congr rfl rfl rfl
  unfold World.assignTileset
  split
  · exact hset
  next old hold => exact hset.destroyTileset fun tileset htileset => Or.inl (hcurrent old tileset hold htileset)

/-- What an accepted start leaves behind: a new current tileset, everything the start did to the main
thread's list, and the continuation on the event. -/
structure Started (world : World) (assetId : Int) (token : Bytes) (scheduler : Address) (early : Nat)
    (after : World) : Prop where
  allocated : Allocated after
  scope : (after.main, after.mainThreadScope) =
    (world.main.enter scheduler).assignScope world.mainThreadScope (some scheduler)
  nextTileset : after.nextTileset = world.nextTileset + 1
  tileset : after.tileset = some world.nextTileset
  alive : after.alive = world.alive
  ticking : after.ticking = world.ticking
  object : ∃ tileset, after.tilesets world.nextTileset = some tileset ∧ tileset.scheduler = scheduler ∧
    tileset.loaderFactory = World.ionFactory assetId token ∧
    tileset.onRootTileAvailable = some assetId ∧ tileset.destroyed = false
  others : ∀ other, other ≠ world.nextTileset → after.tilesets other =
    if world.tileset = some other then
      (world.tilesets other).map fun tileset => { tileset with destroyed := true }
    else world.tilesets other
  writes : ∃ count, after.writes =
    ((world.setStatus creatingStatus).createIonTileset readers network assetId token scheduler early).writes
      ++ List.replicate count ⟨world.nextTileset, world.alive, some world.nextTileset⟩

/-- Attaching the continuation only runs it, or queues it, when the event is settled already. -/
theorem attachRootTileAvailable_effect {world : World} {id : TilesetId} {tileset : Tileset}
    (h : world.tilesets id = some tileset) (parsedAssetId : Int) :
    LoadEffect id { tileset with onRootTileAvailable := some parsedAssetId } world
      (world.attachRootTileAvailable id parsedAssetId) := by
  rw [World.attachRootTileAvailable, h]
  set next : Tileset := { tileset with onRootTileAvailable := some parsedAssetId }
  have hset : LoadEffect id next world (world.setTileset id next) := World.effect_setTileset (.refl _)
  simp only
  split_ifs
  · exact hset
  · exact hset.trans (.refl _) (World.effect_scheduleRootTileAvailable (Function.update_self ..))

theorem started {world : World} (h : Allocated world) (hcurrent : Current world) {scheduler : Address}
    (hfree : world.schedulers scheduler = none) (assetId : Int) (token : Bytes) (early : Nat) :
    Started readers network world assetId token scheduler early
      (world.startTileset readers network assetId token scheduler early) := by
  have hstatus : Allocated (world.setStatus creatingStatus) := h.congr rfl rfl rfl
  have hcreated := created readers network hstatus hfree assetId token early
  unfold World.startTileset
  simp only
  set id := world.nextTileset
  set first := (world.setStatus creatingStatus).createIonTileset readers network assetId token scheduler
    early
  obtain ⟨tileset, htileset, hscheduler, hfactory, hdestroyed⟩ := hcreated.object
  have hnumbered : ∀ old, world.tileset = some old → old ≠ id := by
    intro old hold heq
    obtain ⟨now, hnow, -⟩ := hcurrent.exists_current old hold
    exact absurd (h.numbered _ _ hnow) (heq ▸ Nat.lt_irrefl _)
  have hassigned : Allocated (first.assignTileset id) := by
    apply hcreated.allocated.assignTileset id
    intro old now hold hnow
    rw [hcreated.tileset] at hold
    rw [hcreated.others old (hnumbered old hold)] at hnow
    obtain ⟨now', hnow', hlive⟩ := hcurrent.exists_current old hold
    exact Option.some.inj (hnow'.symm.trans hnow) ▸ hlive
  have hruntime := first.assignTileset_runtime id
  set second := first.assignTileset id
  have hid : second.tilesets id = some tileset := by
    have hne : (world.setStatus creatingStatus).tileset ≠ some id := fun heq => hnumbered id heq rfl
    rw [World.assignTileset_tilesets, hcreated.tileset, if_neg hne]
    exact htileset
  set third := second.enterMainThread scheduler
  have hthird : Allocated third := hassigned.congr rfl rfl rfl
  have hthirdId : third.tilesets id = some tileset := hid
  set next : Tileset := { tileset with onRootTileAvailable := some assetId }
  have heffect : LoadEffect id next third (third.attachRootTileAvailable id assetId) :=
    attachRootTileAvailable_effect hthirdId assetId
  obtain ⟨last, hlast, hadvances⟩ := heffect.object
  obtain ⟨count, hwrites⟩ := heffect.writes
  exact {
    allocated := hthird.change hid (Or.inl hdestroyed) heffect.runtime.nextTileset hlast
      hadvances.scheduler (hadvances.loading (hthird.loading id tileset hid)) heffect.others
      heffect.queue heffect.queues
    scope := by
      calc
        _ = (third.main, third.mainThreadScope) := by
          rw [heffect.runtime.main, heffect.runtime.mainThreadScope]
        _ = (second.main.enter scheduler).assignScope second.mainThreadScope (some scheduler) := rfl
        _ = (first.main.enter scheduler).assignScope first.mainThreadScope (some scheduler) := by
          rw [hruntime.main, hruntime.mainThreadScope]
        _ = (world.main.enter scheduler).assignScope world.mainThreadScope (some scheduler) := by
          rw [hcreated.main, hcreated.mainThreadScope]
          rfl
    nextTileset := by
      rw [heffect.runtime.nextTileset]
      exact hruntime.nextTileset.trans hcreated.nextTileset
    tileset := by
      rw [heffect.runtime.tileset]
      exact hruntime.tileset
    alive := by
      rw [heffect.runtime.alive]
      exact hruntime.alive.trans hcreated.alive
    ticking := by
      rw [heffect.runtime.ticking]
      exact hruntime.ticking.trans hcreated.ticking
    object := ⟨last, hlast, hadvances.scheduler.trans hscheduler, hadvances.loaderFactory.trans hfactory,
      hadvances.onRootTileAvailable, hadvances.destroyed.trans hdestroyed⟩
    others := by
      intro other hother
      rw [heffect.others other hother]
      show second.tilesets other = _
      rw [World.assignTileset_tilesets, hcreated.tileset, hcreated.others other hother]
      rfl
    writes := by
      refine ⟨count, ?_⟩
      calc
        _ = second.writes ++ List.replicate count ⟨id, second.alive, second.tileset⟩ := hwrites
        _ = first.writes ++ List.replicate count ⟨id, first.alive, some id⟩ := by
          rw [World.assignTileset_writes, hruntime.alive, hruntime.tileset]
        _ = first.writes ++ List.replicate count ⟨id, world.alive, some id⟩ := by
          rw [hcreated.alive]
          rfl }

theorem Started.current {world after : World} (hcurrent : Current world)
    (halive : world.alive = true) {assetId : Int} {token : Bytes} {scheduler : Address} {early : Nat}
    (h : Started readers network world assetId token scheduler early after) : Current after := by
  obtain ⟨tileset, htileset, -, -, -, hdestroyed⟩ := h.object
  refine ⟨?_, ?_, ?_⟩
  · intro id hid
    rw [h.tileset] at hid
    cases hid
    exact ⟨tileset, htileset, hdestroyed⟩
  · intro id now hnow hlive
    by_cases hid : id = world.nextTileset
    · rw [h.tileset, hid]
    · rw [h.others id hid] at hnow
      split_ifs at hnow with hold
      · obtain ⟨before, -, rfl⟩ := Option.map_eq_some_iff.mp hnow
        cases hlive
      · exact absurd (hcurrent.unique id now hnow hlive) hold
  · intro _ _
    rw [h.alive, halive]

/-! ### Steps -/

/-- The runtime's objects are in order. -/
structure Orderly (world : World) : Prop where
  allocated : Allocated world
  current : Current world

/-- What a step of each kind does. A dispatched task is one of the current tileset and runs within a
scope of its own. -/
inductive Stepped (world : World) : Action → World → Prop where
  | refused {environment : Environment} {scheduler : Address} {early : Nat} {status : Bytes}
      (hidle : world.idle = true) (haccepted : environment.accepted = false) :
      Stepped world (.start environment scheduler early) (world.setStatus status)
  | started {environment : Environment} {scheduler : Address} {early : Nat} {after : World}
      (hidle : world.idle = true) (haccepted : environment.accepted = true)
      (hfree : world.schedulers scheduler = none)
      (h : Started readers network world environment.parsedAssetId environment.token scheduler early
        after) : Stepped world (.start environment scheduler early) after
  | ticked (hidle : world.idle = true) :
      Stepped world .tick { world with ticking := world.tileset.isSome }
  | drained {early : Nat} : Stepped world (.dispatch early) { world with ticking := false }
  | dispatched {early : Nat} {id : TilesetId} {tileset : Tileset} {task : Task} {rest : List Task}
      {ran : World} (hcurrent : world.tileset = some id) (htileset : world.tilesets id = some tileset)
      (hqueue : world.schedulers tileset.scheduler = some (task :: rest))
      (heffect : LoadEffect id tileset { world with
        schedulers := Function.update world.schedulers tileset.scheduler (some rest)
        main := world.main.enter tileset.scheduler } ran) :
      Stepped world (.dispatch early) { ran with main := ran.main.reset (some tileset.scheduler) }
  | completed {id : TilesetId} {tileset : Tileset} {after : World}
      (htileset : world.tilesets id = some tileset)
      (hpending : tileset.manager.rootTileAvailable = .pending)
      (heffect : LoadEffect id tileset world after)
      (hwrites : after.writes = world.writes) : Stepped world (.complete id) after
  | destroyed (hidle : world.idle = true) : Stepped world .destroy world.destroy

/-- The tasks queued for the current tileset are its own. -/
theorem Orderly.task_tileset {world : World} (h : Orderly world) {id : TilesetId} {tileset : Tileset}
    (hid : world.tileset = some id) (htileset : world.tilesets id = some tileset) {queue : List Task}
    (hqueue : world.schedulers tileset.scheduler = some queue) {task : Task} (htask : task ∈ queue) :
    task.tileset = id := by
  obtain ⟨now, hnow, hlive⟩ := h.current.exists_current id hid
  obtain rfl := Option.some.inj (htileset.symm.trans hnow)
  obtain ⟨own, hown, htasks⟩ := h.allocated.queue id tileset htileset (Or.inl hlive)
  obtain rfl := Option.some.inj (hqueue.symm.trans hown)
  exact htasks task htask

theorem World.dispatch_eq_some {world after : World} {early : Nat}
    (h : world.dispatch readers network early = some after) :
    ∃ id tileset queue, world.tileset = some id ∧ world.tilesets id = some tileset ∧
      world.schedulers tileset.scheduler = some queue ∧
      (queue = [] ∧ after = { world with ticking := false } ∨
        ∃ task rest, queue = task :: rest ∧
          after = world.runPopped readers network tileset task rest early) := by
  simp only [World.dispatch, Option.bind_eq_bind, Option.ite_none_right_eq_some,
    Option.bind_eq_some_iff] at h
  obtain ⟨-, id, hid, tileset, htileset, queue, hqueue, h⟩ := h
  refine ⟨id, tileset, queue, hid, htileset, hqueue, ?_⟩
  cases queue with
  | nil => exact Or.inl ⟨rfl, (Option.some.inj h).symm⟩
  | cons task rest => exact Or.inr ⟨task, rest, rfl, (Option.some.inj h).symm⟩

/-- A worker thread hands what is due on the main thread to a queue and writes no status. -/
theorem World.complete_writes {world after : World} {id : TilesetId}
    (h : world.complete readers network id = some after) : after.writes = world.writes := by
  rw [World.complete, Option.bind_eq_bind, Option.bind_eq_some_iff] at h
  obtain ⟨tileset, -, h⟩ := h
  split at h
  · cases h
    exact World.park_writes_of_unfinished fun _ _ => rfl
  · cases h
    exact World.park_writes_of_unfinished fun _ _ => rfl
  · cases h

/-- The endpoint cache, which no lock protects, is left to the main thread. -/
theorem World.complete_endpointCache {world after : World} {id : TilesetId}
    (h : world.complete readers network id = some after) :
    after.endpointCache = world.endpointCache := by
  rw [World.complete, Option.bind_eq_bind, Option.bind_eq_some_iff] at h
  obtain ⟨tileset, -, h⟩ := h
  split at h
  · cases h
    exact (World.park_endpointCache _ _ _ _).trans (workerStep_state ..)
  · cases h
    exact (World.park_endpointCache _ _ _ _).trans (workerStep_state ..)
  · cases h

theorem step_stepped {world after : World} {action : Action} (horderly : Orderly world)
    (h : step readers network world action = some after) :
    Stepped readers network world action after := by
  obtain ⟨hallocated, hcurrent⟩ := horderly
  cases action with
  | start environment scheduler early =>
      simp only [step, Option.ite_none_right_eq_some, Bool.and_eq_true, Option.isNone_iff_eq_none,
        Option.some.injEq] at h
      obtain ⟨⟨hidle, hfree⟩, h⟩ := h
      cases haccepted : environment.accepted with
      | false =>
          obtain ⟨status, hstart⟩ :=
            World.startFromEnvironment_of_not_accepted readers network haccepted world scheduler early
          rw [hstart] at h
          cases h
          exact .refused hidle haccepted
      | true =>
          rw [World.startFromEnvironment_of_accepted readers network haccepted] at h
          cases h
          exact .started hidle haccepted hfree (started readers network hallocated hcurrent hfree ..)
  | tick =>
      simp only [step, Option.ite_none_right_eq_some, Option.some.injEq] at h
      obtain ⟨hidle, h⟩ := h
      cases h
      exact .ticked hidle
  | dispatch early =>
      obtain ⟨id, tileset, queue, hid, htileset, hqueue, h⟩ :=
        World.dispatch_eq_some readers network h
      rcases h with ⟨-, rfl⟩ | ⟨task, rest, rfl, rfl⟩
      · exact .drained
      · obtain rfl := Orderly.task_tileset ⟨hallocated, hcurrent⟩ hid htileset hqueue List.mem_cons_self
        set popped : World := { world with
          schedulers := Function.update world.schedulers tileset.scheduler (some rest)
          main := world.main.enter tileset.scheduler }
        have hpopped : popped.tilesets task.tileset = some tileset := htileset
        exact .dispatched hid htileset hqueue
          (World.effect_runTask readers network hpopped (hallocated.loading _ _ htileset) early)
  | complete id =>
      obtain ⟨tileset, htileset, hpending, heffect⟩ :=
        World.effect_complete readers network h (hallocated.loading id)
      exact .completed htileset hpending heffect (World.complete_writes readers network h)
  | destroy =>
      simp only [step, Option.ite_none_right_eq_some, Option.some.injEq] at h
      obtain ⟨hidle, h⟩ := h
      cases h
      exact .destroyed hidle

theorem World.destroy_runtime (world : World) :
    { world with
      alive := false
      main := world.main.destroyScope world.mainThreadScope
      mainThreadScope := none
      tileset := none }.SameRuntime world.destroy := by
  unfold World.destroy
  simp only
  split
  next hnone => exact ⟨rfl, rfl, hnone, rfl, rfl, rfl⟩
  · exact World.destroyTileset_runtime _ _

theorem World.destroy_writes (world : World) : world.destroy.writes = world.writes := by
  unfold World.destroy
  simp only
  split
  · rfl
  · exact World.destroyTileset_writes _ _

theorem Orderly.destroy {world : World} (h : Orderly world) : Orderly world.destroy := by
  obtain ⟨hallocated, hcurrent⟩ := h
  unfold World.destroy
  simp only
  split
  next hnone =>
    refine ⟨hallocated.congr rfl rfl rfl, ?_, ?_, ?_⟩
    · intro id hid
      exact hcurrent.exists_current id hid
    · intro id tileset htileset hlive
      exact hcurrent.unique id tileset htileset hlive
    · intro id hid
      rw [hnone] at hid
      cases hid
  next old hold =>
    set gone : World := { world with
      alive := false
      main := world.main.destroyScope world.mainThreadScope
      mainThreadScope := none
      tileset := none }
    have hgone : Allocated gone := hallocated.congr rfl rfl rfl
    have hruntime := gone.destroyTileset_runtime old
    have hnone : (gone.destroyTileset old).tileset = none := hruntime.tileset
    refine ⟨hgone.destroyTileset fun tileset htileset => ?_, ?_, ?_, ?_⟩
    · obtain ⟨now, hnow, hlive⟩ := hcurrent.exists_current old hold
      exact Or.inl (Option.some.inj (hnow.symm.trans htileset) ▸ hlive)
    · intro id hid
      rw [hnone] at hid
      cases hid
    · intro id tileset htileset hlive
      rw [World.destroyTileset_tilesets] at htileset
      by_cases hid : id = old
      · rw [hid, Function.update_self] at htileset
        obtain ⟨before, -, rfl⟩ := Option.map_eq_some_iff.mp htileset
        cases hlive
      · rw [Function.update_of_ne hid] at htileset
        have := hcurrent.unique id tileset htileset hlive
        rw [hold] at this
        exact absurd (Option.some.inj this).symm hid
    · intro id hid
      rw [hnone] at hid
      cases hid

theorem World.alive_of_idle {world : World} (h : world.idle = true) : world.alive = true :=
  (Bool.and_eq_true_iff.mp h).1

/-- Every step keeps the objects in order. -/
theorem orderly_step {world : World} {action : Action} {after : World}
    (h : step readers network world action = some after) (horderly : Orderly world) : Orderly after := by
  obtain ⟨hallocated, hcurrent⟩ := horderly
  cases step_stepped readers network ⟨hallocated, hcurrent⟩ h with
  | refused => exact ⟨hallocated.congr rfl rfl rfl, hcurrent.congr rfl rfl rfl⟩
  | started hidle _ _ hstarted =>
      exact ⟨hstarted.allocated, hstarted.current readers network hcurrent (World.alive_of_idle hidle)⟩
  | ticked => exact ⟨hallocated.congr rfl rfl rfl, hcurrent.congr rfl rfl rfl⟩
  | drained => exact ⟨hallocated.congr rfl rfl rfl, hcurrent.congr rfl rfl rfl⟩
  | @dispatched _ _ _ _ _ ran hid htileset hqueue heffect =>
      obtain ⟨now, hnow, hlive⟩ := hcurrent.exists_current _ hid
      obtain rfl := Option.some.inj (htileset.symm.trans hnow)
      have hran := (hallocated.pop hqueue _).effect htileset (Or.inl hlive) heffect
      have hranCurrent : Current ran := by
        refine Current.effect ?_ ?_ heffect
        · exact hcurrent.congr rfl rfl rfl
        · exact htileset
      exact ⟨hran.congr rfl rfl rfl, hranCurrent.congr rfl rfl rfl⟩
  | completed htileset hpending heffect =>
      exact ⟨hallocated.effect htileset (Or.inr hpending) heffect, hcurrent.effect htileset heffect⟩
  | destroyed => exact Orderly.destroy ⟨hallocated, hcurrent⟩

theorem orderly_construct (dispatching : List Address) (schedulers : Address → Option (List Task))
    (endpointCache : EndpointCache) : Orderly (.construct dispatching schedulers endpointCache) := by
  refine ⟨⟨?_, ?_, ?_, ?_⟩, ⟨?_, ?_, ?_⟩⟩
  · intro id tileset h
    cases h
  · intro id tileset h
    cases h
  · intro id tileset h
    cases h
  · intro id tileset other tileset' h
    cases h
  · intro id h
    cases h
  · intro id tileset h
    cases h
  · intro id h
    cases h

theorem orderly_run {world final : World} {actions : List Action}
    (hrun : Run.run (step readers network) world actions = some final) (h : Orderly world) :
    Orderly final :=
  Run.invariant (fun _ _ _ hstep => orderly_step readers network hstep) hrun h

end QtCesium
