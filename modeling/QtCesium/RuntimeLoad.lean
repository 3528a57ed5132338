import QtCesium.Runtime

/-! What the code of one tileset's load does to the runtime. It may change the tileset's load and
manager, append tasks of that tileset to the queue of the tileset's own scheduler, and write the status in the
tileset's name; the main thread's list, the current tileset and every other tileset stay as they
are. -/

namespace QtCesium

open Futures

/-- A load in progress has not settled the root-tile-available event. -/
def Tileset.Loading (tileset : Tileset) : Prop :=
  tileset.load ≠ none → tileset.manager.rootTileAvailable = .pending

/-- What a tileset's load keeps of it. -/
structure Tileset.Advances (before after : Tileset) : Prop where
  scheduler : after.scheduler = before.scheduler
  loaderFactory : after.loaderFactory = before.loaderFactory
  onRootTileAvailable : after.onRootTileAvailable = before.onRootTileAvailable
  destroyed : after.destroyed = before.destroyed
  pending : after.manager.rootTileAvailable = .pending → before.manager.rootTileAvailable = .pending
  loading : before.Loading → after.Loading

theorem Tileset.Advances.refl (tileset : Tileset) : tileset.Advances tileset :=
  ⟨rfl, rfl, rfl, rfl, id, id⟩

theorem Tileset.Advances.trans {first second third : Tileset} (h : first.Advances second)
    (h' : second.Advances third) : first.Advances third :=
  ⟨h'.scheduler.trans h.scheduler, h'.loaderFactory.trans h.loaderFactory,
    h'.onRootTileAvailable.trans h.onRootTileAvailable, h'.destroyed.trans h.destroyed,
    h.pending ∘ h'.pending, h'.loading ∘ h.loading⟩

theorem Tileset.finishLoad_advances (tileset : Tileset) (outcome : Outcome Load .result) :
    tileset.Advances (tileset.finishLoad outcome).2 := by
  have hsettled : (tileset.finishLoad outcome).2.manager.rootTileAvailable ≠ .pending := by
    cases outcome <;> simp [finishLoad, TilesetContentManager.resolveRootTileAvailable,
      TilesetContentManager.rejectRootTileAvailable]
  have hload : (tileset.finishLoad outcome).2.load = none := by cases outcome <;> rfl
  refine ⟨?_, ?_, ?_, ?_, fun hpending => absurd hpending hsettled, fun _ h => absurd hload h⟩ <;>
    cases outcome <;> rfl

/-- The fields of the runtime, and of its thread, that no load changes. -/
structure World.SameRuntime (before after : World) : Prop where
  main : after.main = before.main
  nextTileset : after.nextTileset = before.nextTileset
  tileset : after.tileset = before.tileset
  mainThreadScope : after.mainThreadScope = before.mainThreadScope
  alive : after.alive = before.alive
  ticking : after.ticking = before.ticking

theorem World.SameRuntime.refl (world : World) : world.SameRuntime world := ⟨rfl, rfl, rfl, rfl, rfl, rfl⟩

theorem World.SameRuntime.trans {first second third : World} (h : first.SameRuntime second)
    (h' : second.SameRuntime third) : first.SameRuntime third :=
  ⟨h'.main.trans h.main, h'.nextTileset.trans h.nextTileset, h'.tileset.trans h.tileset,
    h'.mainThreadScope.trans h.mainThreadScope, h'.alive.trans h.alive, h'.ticking.trans h.ticking⟩

/-- All that the load of `tileset`, numbered `id`, may have done between two worlds. -/
structure LoadEffect (id : TilesetId) (tileset : Tileset) (world after : World) : Prop where
  runtime : world.SameRuntime after
  object : ∃ tileset', after.tilesets id = some tileset' ∧ tileset.Advances tileset'
  others : ∀ other, other ≠ id → after.tilesets other = world.tilesets other
  queue : ∃ tasks : List Task, (∀ task ∈ tasks, task.tileset = id) ∧
    after.schedulers tileset.scheduler = (world.schedulers tileset.scheduler).map (· ++ tasks)
  queues : ∀ scheduler, scheduler ≠ tileset.scheduler →
    after.schedulers scheduler = world.schedulers scheduler
  writes : ∃ count, after.writes =
    world.writes ++ List.replicate count ⟨id, world.alive, world.tileset⟩

namespace LoadEffect

variable {id : TilesetId} {tileset tileset' : Tileset} {world middle after : World}

theorem refl (h : world.tilesets id = some tileset) : LoadEffect id tileset world world where
  runtime := .refl world
  object := ⟨tileset, h, .refl tileset⟩
  others _ _ := rfl
  queue := ⟨[], by simp, by simp⟩
  queues _ _ := rfl
  writes := ⟨0, by simp⟩

theorem trans (h : LoadEffect id tileset world middle) (hadvances : tileset.Advances tileset')
    (h' : LoadEffect id tileset' middle after) : LoadEffect id tileset world after where
  runtime := h.runtime.trans h'.runtime
  object := by
    obtain ⟨last, hlast, hobject⟩ := h'.object
    exact ⟨last, hlast, hadvances.trans hobject⟩
  others other hother := (h'.others other hother).trans (h.others other hother)
  queue := by
    obtain ⟨tasks, htasks, hqueue⟩ := h.queue
    obtain ⟨tasks', htasks', hqueue'⟩ := h'.queue
    refine ⟨tasks ++ tasks', ?_, ?_⟩
    · intro task htask
      exact (List.mem_append.mp htask).elim (htasks task) (htasks' task)
    · rw [hadvances.scheduler] at hqueue'
      rw [hqueue', hqueue, Option.map_map]
      congr 1
      funext queue
      exact List.append_assoc queue tasks tasks'
  queues scheduler hscheduler :=
    (h'.queues scheduler (hadvances.scheduler ▸ hscheduler)).trans (h.queues scheduler hscheduler)
  writes := by
    obtain ⟨count, hcount⟩ := h.writes
    obtain ⟨count', hcount'⟩ := h'.writes
    refine ⟨count + count', ?_⟩
    rw [hcount', hcount, h.runtime.alive, h.runtime.tileset, List.append_assoc, List.replicate_append_replicate]

end LoadEffect

namespace World

variable {world : World} {id : TilesetId} {tileset tileset' : Tileset}

theorem effect_setTileset (hadvances : tileset.Advances tileset') :
    LoadEffect id tileset world (world.setTileset id tileset') where
  runtime := ⟨rfl, rfl, rfl, rfl, rfl, rfl⟩
  object := ⟨tileset', Function.update_self .., hadvances⟩
  others other hother := Function.update_of_ne hother ..
  queue := ⟨[], by simp, by simp [setTileset]⟩
  queues _ _ := rfl
  writes := ⟨0, by simp [setTileset]⟩

theorem effect_callbackSetStatus (h : world.tilesets id = some tileset) (status : Bytes) :
    LoadEffect id tileset world (world.callbackSetStatus id status) where
  runtime := ⟨rfl, rfl, rfl, rfl, rfl, rfl⟩
  object := ⟨tileset, h, .refl tileset⟩
  others _ _ := rfl
  queue := ⟨[], by simp, by simp [callbackSetStatus, setStatus]⟩
  queues _ _ := rfl
  writes := ⟨1, rfl⟩

theorem effect_schedule (h : world.tilesets id = some tileset) {task : Task} (htask : task.tileset = id) :
    LoadEffect id tileset world (world.schedule tileset.scheduler task) where
  runtime := ⟨rfl, rfl, rfl, rfl, rfl, rfl⟩
  object := ⟨tileset, h, .refl tileset⟩
  others _ _ := rfl
  queue := ⟨[task], by simpa using htask, Function.update_self ..⟩
  queues _ hscheduler := Function.update_of_ne hscheduler ..
  writes := ⟨0, by simp [schedule]⟩

theorem effect_runRootTileAvailable (h : world.tilesets id = some tileset) :
    LoadEffect id tileset world (world.runRootTileAvailable id tileset) := by
  unfold runRootTileAvailable
  split
  · exact effect_callbackSetStatus h _
  · exact .refl h

theorem effect_scheduleRootTileAvailable (h : world.tilesets id = some tileset) :
    LoadEffect id tileset world (world.scheduleRootTileAvailable id tileset) := by
  unfold scheduleRootTileAvailable
  split
  · exact .refl h
  · split_ifs
    · exact effect_runRootTileAvailable h
    · exact effect_schedule h rfl

theorem effect_loadErrorCallback (h : world.tilesets id = some tileset)
    (details : Option TilesetLoadFailureDetails) :
    LoadEffect id tileset world (world.loadErrorCallback id details) := by
  cases details with
  | none => exact .refl h
  | some details => exact effect_callbackSetStatus h _

theorem effect_finishLoad (h : world.tilesets id = some tileset) (outcome : Outcome Load .result) :
    LoadEffect id tileset world (world.finishLoad id tileset outcome) := by
  unfold finishLoad
  simp only
  set finished := tileset.finishLoad outcome
  have hfinished : tileset.Advances finished.2 := tileset.finishLoad_advances outcome
  have hreport : LoadEffect id tileset world (world.loadErrorCallback id finished.1) :=
    effect_loadErrorCallback h _
  set reported := world.loadErrorCallback id finished.1
  have hset : LoadEffect id tileset reported (reported.setTileset id finished.2) :=
    effect_setTileset hfinished
  have hlast : LoadEffect id finished.2 (reported.setTileset id finished.2) _ :=
    effect_scheduleRootTileAvailable (Function.update_self ..)
  exact (hreport.trans (.refl _) hset).trans hfinished hlast

theorem effect_park (world : World) (id : TilesetId) {tileset : Tileset}
    (hpending : tileset.manager.rootTileAvailable = .pending) (progress : Progress Load .result)
    (onMain : Bool) :
    LoadEffect id tileset world (world.park id tileset progress onMain) := by
  rw [park]
  set next : Tileset := { tileset with answered := progress.answered, load := some progress.waiting }
  have hnext : tileset.Advances next := ⟨rfl, rfl, rfl, rfl, fun _ => hpending, fun _ _ => hpending⟩
  set now : World := { world.setTileset id next with endpointCache := progress.state }
  have hnow : LoadEffect id tileset world now := by
    obtain ⟨-, hobject, hothers, hqueue, hqueues, hwrites⟩ :
      LoadEffect id tileset world (world.setTileset id next) := effect_setTileset hnext
    exact ⟨⟨rfl, rfl, rfl, rfl, rfl, rfl⟩, hobject, hothers, hqueue, hqueues, hwrites⟩
  have hid : now.tilesets id = some next := Function.update_self ..
  split
  · split_ifs
    · exact hnow.trans hnext (effect_finishLoad hid _)
    · exact hnow.trans hnext (effect_schedule hid rfl)
  · exact hnow.trans hnext (effect_schedule hid rfl)
  · exact hnow

/-- Only finishing a load may write. -/
theorem park_writes_of_unfinished {progress : Progress Load .result} {onMain : Bool}
    (h : ∀ outcome, progress.waiting = .settled outcome →
      (onMain && world.main.dispatches tileset.scheduler) = false) :
    (world.park id tileset progress onMain).writes = world.writes := by
  rw [park]
  split
  next outcome hsettled =>
    rw [if_neg (by exact Bool.eq_false_iff.mp (h outcome hsettled))]
    rfl
  · rfl
  · rfl

/-- A worker thread stores the state its continuations left. -/
theorem park_endpointCache (world : World) (id : TilesetId) (tileset : Tileset)
    (progress : Progress Load .result) :
    (world.park id tileset progress false).endpointCache = progress.state := by
  rw [park]
  split
  · rfl
  · rfl
  · rfl

variable (readers : Readers) (network : Network)

theorem effect_runTask {task : Task} (h : world.tilesets task.tileset = some tileset)
    (hloading : tileset.Loading) (early : Nat) :
    LoadEffect task.tileset tileset world (world.runTask readers network task early) := by
  rw [runTask, h]
  cases task with
  | rootTileAvailable id => exact effect_runRootTileAvailable h
  | load id =>
      simp only
      split
      · exact effect_finishLoad h _
      next hload => exact effect_park _ _ (hloading (by simp [hload])) _ _
      · exact .refl h

theorem effect_createFromLoaderFactory (world : World) (id : TilesetId) (scheduler : Address)
    (loaderFactory : CesiumIonTilesetContentLoaderFactory) (early : Nat) :
    ∃ tileset : Tileset, tileset.scheduler = scheduler ∧ tileset.loaderFactory = loaderFactory ∧
      tileset.onRootTileAvailable = none ∧ tileset.destroyed = false ∧ tileset.Loading ∧
      LoadEffect id tileset world
        (world.createFromLoaderFactory readers network id scheduler loaderFactory early) := by
  unfold createFromLoaderFactory
  split_ifs
  · exact ⟨_, rfl, rfl, rfl, rfl, fun h => absurd rfl h, effect_park _ _ rfl _ _⟩
  · exact ⟨_, rfl, rfl, rfl, rfl, fun h => absurd rfl h, effect_setTileset (.refl _)⟩

/-- A worker thread's turn is one of the load it works for. -/
theorem effect_complete {after : World} (h : world.complete readers network id = some after)
    (hloading : ∀ tileset, world.tilesets id = some tileset → tileset.Loading) :
    ∃ tileset, world.tilesets id = some tileset ∧ tileset.manager.rootTileAvailable = .pending ∧
      LoadEffect id tileset world after := by
  rw [complete, Option.bind_eq_bind, Option.bind_eq_some_iff] at h
  obtain ⟨tileset, htileset, h⟩ := h
  have hpending : tileset.load ≠ none → tileset.manager.rootTileAvailable = .pending :=
    hloading tileset htileset
  split at h
  next hload =>
    cases h
    have := hpending (by simp [hload])
    exact ⟨tileset, htileset, this, effect_park _ _ this _ _⟩
  next hload =>
    cases h
    have := hpending (by simp [hload])
    exact ⟨tileset, htileset, this, effect_park _ _ this _ _⟩
  · cases h

end World

end QtCesium
