import QtCesium.RuntimeSteps

/-! What the status says about the load of a single start. A load ends on the main thread while it
dispatches the tileset's scheduler, so the continuation on the root-tile-available event runs inside the
call that settles the event: after `loadErrorCallback`, and with the event resolved whether or not there
is a root tile. -/

namespace QtCesium

open Futures

/-! ### How a load ends -/

/-- How the start of a tileset ends: with the outcome of its load, or, where the loader factory is not
valid, without a load. -/
inductive Ending where
  | invalid
  | settled (outcome : Outcome Load .result)

namespace Ending

def rootTile : Ending → Option Tile
  | .settled (.ok result) => if result.errors.hasErrors then none else result.pRootTile
  | _ => none

def event : Ending → RootTileAvailable
  | .settled (.error _) => .rejected (text "Root tile failed to load.")
  | _ => .resolved

/-- The text left by the continuation on the event. -/
def status (parsedAssetId : Int) : Ending → Bytes
  | .settled (.error _) => creatingStatus
  | _ => rootTileStatus parsedAssetId

/-- The status fits the ending, once the continuation on the event is attached and before. -/
def Fits (ending : Ending) : Option Int → Bytes → Prop
  | none, now => ending.event = .resolved ∨ now = creatingStatus
  | some parsedAssetId, now => now = ending.status parsedAssetId

end Ending

variable (readers : Readers) (network : Network)

/-- Run as straight-line code over the network's answers, the load ends this way. -/
def EndsWith (id : TilesetId) (loaderFactory : CesiumIonTilesetContentLoaderFactory)
    (cache : EndpointCache) : Ending → Prop
  | .invalid => loaderFactory.isValid = false
  | .settled outcome => loaderFactory.isValid = true ∧ ∃ number after,
      sequential (loadSemantics readers) (network.answers id)
        (loaderFactory.createLoader readers cache, cache) number = (.settled outcome, after)

/-- The asset id is valid, and the network's answers lead its load to a result without errors and with a
root tile. -/
def LoadsRootTile (id : TilesetId) (loaderFactory : CesiumIonTilesetContentLoaderFactory)
    (cache : EndpointCache) : Prop :=
  loaderFactory.isValid = true ∧ ∃ number result after,
    sequential (loadSemantics readers) (network.answers id)
      (loaderFactory.createLoader readers cache, cache) number = (.settled (.ok result), after) ∧
    result.errors.hasErrors = false ∧ result.pRootTile ≠ none

theorem loadsRootTile_iff {id : TilesetId} {loaderFactory : CesiumIonTilesetContentLoaderFactory}
    {cache : EndpointCache} {ending : Ending}
    (hends : EndsWith readers network id loaderFactory cache ending) :
    LoadsRootTile readers network id loaderFactory cache ↔ ending.rootTile ≠ none := by
  cases ending with
  | invalid =>
      have hinvalid : loaderFactory.isValid = false := hends
      simp [LoadsRootTile, hinvalid, Ending.rootTile]
  | settled outcome =>
      obtain ⟨hvalid, number, after, hsequential⟩ := hends
      constructor
      · rintro ⟨-, number', result, after', hresult, herrors, htile⟩
        obtain ⟨rfl, -⟩ := sequential_unique hresult hsequential
        rw [Ending.rootTile, if_neg (by simp [herrors])]
        exact htile
      · intro htile
        cases outcome with
        | error exn => exact absurd rfl htile
        | ok result =>
            rw [Ending.rootTile] at htile
            cases herrors : result.errors.hasErrors with
            | true => simp [herrors] at htile
            | false =>
                refine ⟨hvalid, number, result, after, hsequential, herrors, ?_⟩
                simpa [herrors] using htile

/-! ### Where a load stands -/

/-- The tileset of a start that has come to its end. -/
structure Ended (id : TilesetId) (cache : EndpointCache) (ending : Ending) (tileset : Tileset) : Prop where
  load : tileset.load = none
  ends : EndsWith readers network id tileset.loaderFactory cache ending
  event : tileset.manager.rootTileAvailable = ending.event
  rootTile : tileset.manager.pRootTile = ending.rootTile

/-- Where the load of a tileset stands, and the status with it. -/
inductive Stage (id : TilesetId) (cache : EndpointCache) (world : World) (tileset : Tileset) : Prop where
  | loading {waiting : Pending Load .result} (hload : tileset.load = some waiting)
      (hpending : tileset.manager.rootTileAvailable = .pending)
      (hrootTile : tileset.manager.pRootTile = none)
      (hvalid : tileset.loaderFactory.isValid = true)
      (hagrees : Agrees (loadSemantics readers) (network.answers id)
        (tileset.loaderFactory.createLoader readers cache, cache)
        ⟨tileset.answered, waiting, world.endpointCache⟩)
      (hstatus : world.status = creatingStatus)
  | ended {ending : Ending} (hended : Ended readers network id cache ending tileset)
      (hstatus : ending.Fits tileset.onRootTileAvailable world.status)

/-- The load of the tileset has got to a stage, and the tileset kept what it keeps. -/
def Reaches (id : TilesetId) (cache : EndpointCache) (tileset : Tileset) (after : World) : Prop :=
  ∃ tileset', after.tilesets id = some tileset' ∧ tileset.Advances tileset' ∧
    Stage readers network id cache after tileset'

theorem Stage.congr {id : TilesetId} {cache : EndpointCache} {world after : World} {tileset : Tileset}
    (h : Stage readers network id cache world tileset) (hstatus : after.status = world.status)
    (hcache : after.endpointCache = world.endpointCache) :
    Stage readers network id cache after tileset := by
  cases h with
  | loading hload hpending hrootTile hvalid hagrees hcreating =>
      exact .loading hload hpending hrootTile hvalid (hcache ▸ hagrees) (hstatus.trans hcreating)
  | ended hended hfits => exact .ended hended (hstatus ▸ hfits)

/-! ### The root-tile-available event -/

namespace World

variable {world : World} {id : TilesetId} {cache : EndpointCache} {tileset : Tileset} {ending : Ending}

theorem scheduleRootTileAvailable_tilesets (world : World) (id : TilesetId) (tileset : Tileset) :
    (world.scheduleRootTileAvailable id tileset).tilesets = world.tilesets := by
  unfold scheduleRootTileAvailable runRootTileAvailable
  split
  · rfl
  · split_ifs
    · split <;> rfl
    · rfl

/-- The continuation leaves the text of the ending. -/
theorem runRootTileAvailable_status {parsedAssetId : Int}
    (hevent : tileset.manager.rootTileAvailable = ending.event)
    (hattached : tileset.onRootTileAvailable = some parsedAssetId)
    (h : ending.event = .resolved ∨ world.status = creatingStatus) :
    (world.runRootTileAvailable id tileset).status = ending.status parsedAssetId := by
  rw [runRootTileAvailable, hattached, hevent]
  cases ending with
  | invalid => rfl
  | settled outcome =>
      cases outcome with
      | ok result => rfl
      | error exn => exact h.resolve_left (by simp [Ending.event])

theorem scheduleRootTileAvailable_fits (hdispatches : world.main.dispatches tileset.scheduler = true)
    (hevent : tileset.manager.rootTileAvailable = ending.event)
    (h : ending.event = .resolved ∨ world.status = creatingStatus) :
    ending.Fits tileset.onRootTileAvailable (world.scheduleRootTileAvailable id tileset).status := by
  rw [scheduleRootTileAvailable]
  cases hattached : tileset.onRootTileAvailable with
  | none => exact h
  | some parsedAssetId =>
      simp only
      rw [if_pos hdispatches]
      exact runRootTileAvailable_status hevent hattached h

/-- A queued continuation on the event changes nothing about the stage. -/
theorem runRootTileAvailable_stage (hid : world.tilesets id = some tileset)
    (h : Stage readers network id cache world tileset) :
    Reaches readers network id cache tileset (world.runRootTileAvailable id tileset) := by
  have hsame : Reaches readers network id cache tileset world := ⟨tileset, hid, .refl tileset, h⟩
  cases h with
  | loading _ hpending =>
      rw [runRootTileAvailable, hpending]
      split
      next hresolved => cases hresolved
      · exact hsame
  | @ended ending hended hstatus =>
      cases hattached : tileset.onRootTileAvailable with
      | none =>
          rw [runRootTileAvailable, hattached]
          exact hsame
      | some parsedAssetId =>
          rw [hattached] at hstatus
          have hresolved : ending.event = .resolved ∨ world.status = creatingStatus := by
            cases ending with
            | invalid => exact Or.inl rfl
            | settled outcome =>
                cases outcome with
                | ok result => exact Or.inl rfl
                | error exn => exact Or.inr hstatus
          have hafter : (world.runRootTileAvailable id tileset).status = ending.status parsedAssetId :=
            runRootTileAvailable_status hended.event hattached hresolved
          refine ⟨tileset, ?_, .refl tileset, .ended hended ?_⟩
          · unfold runRootTileAvailable
            split <;> exact hid
          · rw [hattached]
            exact hafter

/-! ### The load -/

theorem finishLoad_ended (hload : EndsWith readers network id tileset.loaderFactory cache ending)
    (hrootTile : tileset.manager.pRootTile = none) {outcome : Outcome Load .result}
    (hending : ending = .settled outcome) :
    Ended readers network id cache ending (tileset.finishLoad outcome).2 := by
  subst hending
  cases outcome with
  | error exn => exact ⟨rfl, hload, rfl, hrootTile⟩
  | ok result =>
      refine ⟨rfl, hload, rfl, ?_⟩
      show (tileset.manager.notifyTileDoneLoading.propagateTilesetContentLoaderResult
        result).2.pRootTile = _
      rw [TilesetContentManager.propagateTilesetContentLoaderResult, Ending.rootTile]
      split_ifs
      · exact hrootTile
      · rfl

/-- The load is finished on a thread that dispatches the tileset's scheduler. -/
theorem finishLoad_stage {outcome : Outcome Load .result}
    (hdispatches : world.main.dispatches tileset.scheduler = true)
    (hends : EndsWith readers network id tileset.loaderFactory cache (.settled outcome))
    (hrootTile : tileset.manager.pRootTile = none) (hstatus : world.status = creatingStatus) :
    Reaches readers network id cache tileset (world.finishLoad id tileset outcome) := by
  have hended := finishLoad_ended readers network hends hrootTile rfl
  have hadvances := tileset.finishLoad_advances outcome
  have hreported : (Ending.settled outcome).event = .resolved ∨
      (world.loadErrorCallback id (tileset.finishLoad outcome).1).status = creatingStatus := by
    cases outcome with
    | ok result => exact Or.inl rfl
    | error exn => exact Or.inr hstatus
  have hmain : (world.loadErrorCallback id (tileset.finishLoad outcome).1).main = world.main := by
    cases (tileset.finishLoad outcome).1 <;> rfl
  unfold finishLoad
  simp only
  set finished := tileset.finishLoad outcome
  refine ⟨finished.2, ?_, hadvances, .ended hended (scheduleRootTileAvailable_fits ?_ hended.event hreported)⟩
  · rw [scheduleRootTileAvailable_tilesets]
    exact Function.update_self ..
  · rw [hadvances.scheduler]
    exact hmain ▸ hdispatches

/-- A load that has got as far as straight-line code is parked at a stage. -/
theorem park_stage {progress : Progress Load .result}
    (hpending : tileset.manager.rootTileAvailable = .pending)
    (hrootTile : tileset.manager.pRootTile = none) (hvalid : tileset.loaderFactory.isValid = true)
    (hagrees : Agrees (loadSemantics readers) (network.answers id)
      (tileset.loaderFactory.createLoader readers cache, cache) progress)
    (hstatus : world.status = creatingStatus) (onMain : Bool) :
    Reaches readers network id cache tileset (world.park id tileset progress onMain) := by
  rw [park]
  set next : Tileset := { tileset with answered := progress.answered, load := some progress.waiting }
  have hnext : tileset.Advances next := ⟨rfl, rfl, rfl, rfl, fun _ => hpending, fun _ _ => hpending⟩
  have hloading : ∀ now : World, now.tilesets id = some next → now.status = creatingStatus →
      now.endpointCache = progress.state → Reaches readers network id cache tileset now := by
    intro now hid hnow hcache
    have hload : next.load = some progress.waiting := rfl
    refine ⟨next, hid, hnext, .loading hload hpending hrootTile hvalid ?_ hnow⟩
    rw [hcache]
    exact hagrees
  have hid : (world.setTileset id next).tilesets id = some next := Function.update_self ..
  split
  next outcome hsettled =>
    split_ifs with hmain
    · obtain ⟨-, hdispatches⟩ := Bool.and_eq_true_iff.mp hmain
      rcases progress with ⟨answered, waiting, state⟩
      obtain rfl : waiting = .settled outcome := hsettled
      obtain ⟨tileset', htileset', hadvances, hstage⟩ : Reaches readers network id cache next
          ({ world.setTileset id next with endpointCache := state }.finishLoad id next outcome) :=
        finishLoad_stage readers network hdispatches ⟨hvalid, answered, state, hagrees.settled⟩ hrootTile
          hstatus
      exact ⟨tileset', htileset', hnext.trans hadvances, hstage⟩
    · exact hloading _ hid hstatus rfl
  · exact hloading _ hid hstatus rfl
  · exact hloading _ hid hstatus rfl

theorem runTask_stage {task : Task} (hid : world.tilesets task.tileset = some tileset)
    (hdispatches : world.main.dispatches tileset.scheduler = true)
    (h : Stage readers network task.tileset cache world tileset) (early : Nat) :
    Reaches readers network task.tileset cache tileset (world.runTask readers network task early) := by
  rw [runTask, hid]
  cases task with
  | rootTileAvailable id => exact runRootTileAvailable_stage readers network hid h
  | load id =>
      have hsame : Reaches readers network id cache tileset world := ⟨tileset, hid, .refl tileset, h⟩
      cases h with
      | ended hended =>
          simp only [hended.load]
          exact hsame
      | @loading waiting hload hpending hrootTile hvalid hagrees hstatus =>
          simp only [hload]
          cases waiting with
          | get => exact hsame
          | settled outcome =>
              exact finishLoad_stage readers network hdispatches
                ⟨hvalid, tileset.answered, world.endpointCache, hagrees.settled⟩ hrootTile hstatus
          | queued place outcome rest =>
              cases place with
              | mainThread =>
                  exact park_stage readers network hpending hrootTile hvalid
                    ((hagrees.mainStep true).attach true early) hstatus true
              | immediate => exact hsame
              | workerThread => exact hsame

theorem complete_stage {after : World} (hid : world.tilesets id = some tileset)
    (hcomplete : world.complete readers network id = some after)
    (h : Stage readers network id cache world tileset) :
    Reaches readers network id cache tileset after := by
  rw [complete, hid] at hcomplete
  simp only [Option.bind_eq_bind, Option.bind_some] at hcomplete
  cases h with
  | ended hended =>
      rw [hended.load] at hcomplete
      cases hcomplete
  | @loading waiting hload hpending hrootTile hvalid hagrees hstatus =>
      rw [hload] at hcomplete
      cases waiting with
      | settled => cases hcomplete
      | get request rest =>
          cases hcomplete
          exact park_stage readers network hpending hrootTile hvalid hagrees.workerStep hstatus false
      | queued place outcome rest =>
          cases place with
          | workerThread =>
              cases hcomplete
              exact park_stage readers network hpending hrootTile hvalid hagrees.workerStep hstatus false
          | immediate => cases hcomplete
          | mainThread => cases hcomplete

end World

/-! ### Runs of one start -/

/-- The runtime has one tileset, which is the current one, and its load has got to a stage. -/
structure Underway (id : TilesetId) (loaderFactory : CesiumIonTilesetContentLoaderFactory)
    (parsedAssetId : Int) (cache : EndpointCache) (world : World) : Prop where
  orderly : Orderly world
  tileset : world.tileset = some id
  object : ∃ tileset, world.tilesets id = some tileset ∧ tileset.loaderFactory = loaderFactory ∧
    tileset.onRootTileAvailable = some parsedAssetId ∧ Stage readers network id cache world tileset
  others : ∀ other, other ≠ id → world.tilesets other = none

section

variable {id : TilesetId} {loaderFactory : CesiumIonTilesetContentLoaderFactory} {parsedAssetId : Int}
  {cache : EndpointCache} {world after : World} {tileset : Tileset}

/-- A step in which the load of the tileset has an effect and gets to a stage. -/
theorem Underway.reaches (h : Underway readers network id loaderFactory parsedAssetId cache world)
    (horderly : Orderly after) (htileset : after.tileset = world.tileset)
    (hid : world.tilesets id = some tileset)
    (hreaches : Reaches readers network id cache tileset after)
    (hothers : ∀ other, other ≠ id → after.tilesets other = world.tilesets other) :
    Underway readers network id loaderFactory parsedAssetId cache after := by
  obtain ⟨tileset', htileset', hadvances, hstage⟩ := hreaches
  obtain ⟨now, hnow, hfactory, hattached, -⟩ := h.object
  obtain rfl := Option.some.inj (hid.symm.trans hnow)
  exact ⟨horderly, htileset.trans h.tileset,
    ⟨tileset', htileset', hadvances.loaderFactory.trans hfactory,
      hadvances.onRootTileAvailable.trans hattached, hstage⟩,
    fun other hother => (hothers other hother).trans (h.others other hother)⟩

/-- The calls of `tick` and what worker threads do. -/
def Action.ticks : Action → Bool
  | .tick | .dispatch _ | .complete _ => true
  | .start .. | .destroy => false

theorem underway_step {action : Action}
    (hstep : step readers network world action = some after) (haction : action.ticks = true)
    (h : Underway readers network id loaderFactory parsedAssetId cache world) :
    Underway readers network id loaderFactory parsedAssetId cache after := by
  have horderly := orderly_step readers network hstep h.orderly
  obtain ⟨tileset, hid, hfactory, hattached, hstage⟩ := h.object
  have hsame : Reaches readers network id cache tileset world := ⟨tileset, hid, .refl tileset, hstage⟩
  cases action with
  | start => cases haction
  | destroy => cases haction
  | tick =>
      simp only [step, Option.ite_none_right_eq_some, Option.some.injEq] at hstep
      obtain ⟨-, rfl⟩ := hstep
      exact h.reaches readers network horderly rfl hid
        ⟨tileset, hid, .refl tileset, hstage.congr readers network rfl rfl⟩ fun _ _ => rfl
  | dispatch early =>
      obtain ⟨current, now, queue, hcurrent, hnow, hqueue, hafter⟩ :=
        World.dispatch_eq_some readers network hstep
      obtain rfl := Option.some.inj (h.tileset.symm.trans hcurrent)
      obtain rfl := Option.some.inj (hid.symm.trans hnow)
      rcases hafter with ⟨-, rfl⟩ | ⟨task, rest, rfl, rfl⟩
      · exact h.reaches readers network horderly rfl hid
          ⟨tileset, hid, .refl tileset, hstage.congr readers network rfl rfl⟩ fun _ _ => rfl
      · obtain rfl := h.orderly.task_tileset hcurrent hid hqueue List.mem_cons_self
        set popped : World := { world with
          schedulers := Function.update world.schedulers tileset.scheduler (some rest)
          main := world.main.enter tileset.scheduler }
        have hpopped : popped.tilesets task.tileset = some tileset := hid
        have heffect := World.effect_runTask readers network hpopped
          (h.orderly.allocated.loading _ _ hid) early
        obtain ⟨tileset', htileset', hadvances, hafter⟩ := World.runTask_stage readers network hpopped
          (MainThread.enter_dispatches _ _) (hstage.congr readers network rfl rfl) early
        exact h.reaches readers network horderly heffect.runtime.tileset hid
          ⟨tileset', htileset', hadvances, hafter.congr readers network rfl rfl⟩ heffect.others
  | complete other =>
      by_cases hother : other = id
      · subst hother
        obtain ⟨now, hnow, -, heffect⟩ := World.effect_complete readers network hstep
          (h.orderly.allocated.loading other)
        exact h.reaches readers network horderly heffect.runtime.tileset hid
          (World.complete_stage readers network hid hstep hstage) heffect.others
      · obtain ⟨now, hnow, -⟩ := World.effect_complete readers network hstep
          (h.orderly.allocated.loading other)
        rw [h.others other hother] at hnow
        cases hnow

/-! ### The start -/

theorem createFromLoaderFactory_stage (id : TilesetId) (scheduler : Address)
    (loaderFactory : CesiumIonTilesetContentLoaderFactory) (hstatus : world.status = creatingStatus) (early : Nat) :
    ∃ tileset,
      (world.createFromLoaderFactory readers network id scheduler loaderFactory early).tilesets id =
        some tileset ∧
      tileset.scheduler = scheduler ∧ tileset.loaderFactory = loaderFactory ∧
      tileset.onRootTileAvailable = none ∧
      Stage readers network id world.endpointCache
        (world.createFromLoaderFactory readers network id scheduler loaderFactory early) tileset := by
  unfold World.createFromLoaderFactory
  simp only
  split_ifs with hvalid
  · set first : Tileset := ⟨scheduler, loaderFactory, TilesetContentManager.new.notifyTileStartLoading, 0,
      none, none, false⟩
    have hagrees : Agrees (loadSemantics readers) (network.answers id)
        (first.loaderFactory.createLoader readers world.endpointCache, world.endpointCache)
        (world.beginLoad readers network id scheduler loaderFactory early) := (Agrees.start _).attach _ _
    have hpending : first.manager.rootTileAvailable = .pending := rfl
    have hrootTile : first.manager.pRootTile = none := rfl
    obtain ⟨tileset, htileset, hadvances, hstage⟩ :=
      World.park_stage readers network hpending hrootTile hvalid hagrees hstatus true
    exact ⟨tileset, htileset, hadvances.scheduler, hadvances.loaderFactory,
      hadvances.onRootTileAvailable, hstage⟩
  · have hended : Ended readers network id world.endpointCache .invalid
        ⟨scheduler, loaderFactory, TilesetContentManager.new.resolveRootTileAvailable, 0, none, none, false⟩ :=
      ⟨rfl, Bool.eq_false_iff.mpr hvalid, rfl, rfl⟩
    exact ⟨_, Function.update_self .., rfl, rfl, rfl, .ended hended (Or.inl rfl)⟩

/-- The continuation on the event is attached on a thread that dispatches the tileset's scheduler. -/
theorem attachRootTileAvailable_stage (hid : world.tilesets id = some tileset)
    (hdispatches : world.main.dispatches tileset.scheduler = true)
    (hunattached : tileset.onRootTileAvailable = none) (parsedAssetId : Int)
    (h : Stage readers network id cache world tileset) :
    ∃ tileset', (world.attachRootTileAvailable id parsedAssetId).tilesets id = some tileset' ∧
      tileset'.loaderFactory = tileset.loaderFactory ∧
      tileset'.onRootTileAvailable = some parsedAssetId ∧
      Stage readers network id cache (world.attachRootTileAvailable id parsedAssetId) tileset' := by
  rw [World.attachRootTileAvailable, hid]
  simp only
  set next : Tileset := { tileset with onRootTileAvailable := some parsedAssetId }
  cases h with
  | loading hload hpending hrootTile hvalid hagrees hstatus =>
      rw [if_pos hpending]
      exact ⟨next, Function.update_self .., rfl, rfl,
        .loading hload hpending hrootTile hvalid hagrees hstatus⟩
  | @ended ending hended hfits =>
      have hsettled : tileset.manager.rootTileAvailable ≠ .pending := by
        rw [hended.event]
        rcases ending with - | - | - <;> simp [Ending.event]
      rw [hunattached] at hfits
      rw [if_neg hsettled]
      refine ⟨next, ?_, rfl, rfl, .ended ⟨hended.load, hended.ends, hended.event, hended.rootTile⟩ ?_⟩
      · rw [World.scheduleRootTileAvailable_tilesets]
        exact Function.update_self ..
      · have hevent : next.manager.rootTileAvailable = ending.event := hended.event
        exact World.scheduleRootTileAvailable_fits hdispatches hevent hfits

/-- A start on a runtime without a tileset: the scope it enters is the only one it holds. -/
theorem startTileset_stage (hallocated : Allocated world) (hnone : world.tileset = none)
    (hscope : world.mainThreadScope = none) {scheduler : Address}
    (hfree : world.schedulers scheduler = none) (parsedAssetId : Int) (token : Bytes) (early : Nat) :
    ∃ tileset,
      (world.startTileset readers network parsedAssetId token scheduler early).tilesets
        world.nextTileset = some tileset ∧
      tileset.loaderFactory = World.ionFactory parsedAssetId token ∧
      tileset.onRootTileAvailable = some parsedAssetId ∧
      Stage readers network world.nextTileset world.endpointCache
        (world.startTileset readers network parsedAssetId token scheduler early) tileset := by
  have hstatus : Allocated (world.setStatus creatingStatus) := hallocated.congr rfl rfl rfl
  have hcreated := created readers network hstatus hfree parsedAssetId token early
  set allocated : World := { world.setStatus creatingStatus with
    nextTileset := world.nextTileset + 1
    schedulers := Function.update world.schedulers scheduler (some []) }
  have hcreating : allocated.status = creatingStatus := rfl
  obtain ⟨tileset, hid, hscheduler, hfactory, hunattached, hstage⟩ :=
    createFromLoaderFactory_stage readers network world.nextTileset scheduler
      (World.ionFactory parsedAssetId token) hcreating early
  set first := (world.setStatus creatingStatus).createIonTileset readers network parsedAssetId token
    scheduler early
  set entered : World := { first with tileset := some world.nextTileset }.enterMainThread scheduler
  have hentered : (first.assignTileset world.nextTileset).enterMainThread scheduler = entered := by
    rw [World.assignTileset, hcreated.tileset.trans hnone]
  have hmain : entered.main.dispatches tileset.scheduler = true := by
    show ((first.main.enter scheduler).assignScope first.mainThreadScope (some scheduler)).1.dispatches
      tileset.scheduler = true
    rw [hcreated.mainThreadScope.trans hscope, hscheduler]
    exact MainThread.enter_dispatches _ _
  have hid' : entered.tilesets world.nextTileset = some tileset := hid
  obtain ⟨last, hlast, hlastFactory, hattached, hlastStage⟩ :=
    attachRootTileAvailable_stage readers network hid' hmain hunattached parsedAssetId
      (hstage.congr readers network rfl rfl)
  rw [← hentered] at hlast hlastStage
  exact ⟨last, hlast, hlastFactory.trans hfactory, hattached, hlastStage⟩

end

/-- An accepted start on a runtime that has just been constructed. -/
theorem underway_start {dispatching : List Address} {schedulers : Address → Option (List Task)}
    {cache : EndpointCache} {environment : Environment} {scheduler : Address} {early : Nat}
    {after : World} (haccepted : environment.accepted = true)
    (hstep : step readers network (.construct dispatching schedulers cache)
      (.start environment scheduler early) = some after) :
    Underway readers network 0 (World.ionFactory environment.parsedAssetId environment.token)
      environment.parsedAssetId cache after := by
  have hconstruct := orderly_construct dispatching schedulers cache
  have horderly := orderly_step readers network hstep hconstruct
  simp only [step, Option.ite_none_right_eq_some, Bool.and_eq_true, Option.isNone_iff_eq_none,
    Option.some.injEq] at hstep
  obtain ⟨⟨-, hfree⟩, hstart⟩ := hstep
  rw [World.startFromEnvironment_of_accepted readers network haccepted] at hstart
  have hstarted := started readers network hconstruct.allocated hconstruct.current hfree
    environment.parsedAssetId environment.token early
  have hobject := startTileset_stage readers network hconstruct.allocated rfl rfl hfree
    environment.parsedAssetId environment.token early
  rw [← hstart] at horderly ⊢
  exact ⟨horderly, hstarted.tileset, hobject, fun other hother => hstarted.others other hother⟩

/-! ### The truth of the status -/

/-- Every task of the current tileset has run and its event is settled. -/
structure AtRest (world : World) (tileset : Tileset) : Prop where
  current : world.tileset.bind world.tilesets = some tileset
  settled : tileset.manager.rootTileAvailable ≠ .pending
  queue : world.schedulers tileset.scheduler = some []

/-- The status announces a root tile exactly when there is one, and reports an error otherwise. -/
structure Truthful (world : World) (tileset : Tileset) : Prop where
  available : (∃ parsedAssetId, world.status = rootTileStatus parsedAssetId) ↔
    tileset.manager.pRootTile ≠ none
  error : tileset.manager.pRootTile = none → text "Error cargando tileset" <+: world.status

/-- No ending leaves the text of an error. -/
theorem Ending.status_not_error (ending : Ending) (parsedAssetId : Int) :
    ¬text "Error cargando tileset" <+: ending.status parsedAssetId := by
  have hcreating : ¬text "Error cargando tileset" <+: creatingStatus := by decide
  have hrootTile : ¬text "Error cargando tileset" <+: rootTileStatus parsedAssetId := by
    intro h
    have hfirst : (text "Error cargando tileset").head? = (rootTileStatus parsedAssetId).head? := by
      obtain ⟨rest, hrest⟩ := h
      rw [← hrest]
      rfl
    exact absurd hfirst (by
      show some (0x45 : UInt8) ≠ some 0x54
      decide)
  rcases ending with - | - | -
  · exact hrootTile
  · exact hcreating
  · exact hrootTile

theorem Ending.status_of_rootTile {ending : Ending} (h : ending.rootTile ≠ none) (parsedAssetId : Int) :
    ending.status parsedAssetId = rootTileStatus parsedAssetId := by
  rcases ending with - | exn | result
  · exact absurd rfl h
  · exact absurd rfl h
  · rfl

theorem underway_run {dispatching : List Address} {schedulers : Address → Option (List Task)}
    {cache : EndpointCache} {environment : Environment} {scheduler : Address} {early : Nat}
    {later : List Action} {final : World} (haccepted : environment.accepted = true)
    (hlater : ∀ action ∈ later, action.ticks = true)
    (hrun : Run.run (step readers network) (.construct dispatching schedulers cache)
      (.start environment scheduler early :: later) = some final) :
    Underway readers network 0 (World.ionFactory environment.parsedAssetId environment.token)
      environment.parsedAssetId cache final := by
  obtain ⟨started, hstart, hrest⟩ := Run.run_cons.mp hrun
  apply Run.invariant_of_allowed _ hlater hrest (underway_start readers network haccepted hstart)
  intro state action after haction hstep
  exact underway_step readers network hstep haction

/-- In every state at rest after one accepted start, the status is truthful exactly when the load of a valid
asset id leads to a result without errors and with a root tile. -/
theorem truthful_iff {dispatching : List Address} {schedulers : Address → Option (List Task)}
    {cache : EndpointCache} {environment : Environment} {scheduler : Address} {early : Nat}
    {later : List Action} {final : World} {tileset : Tileset} (haccepted : environment.accepted = true)
    (hlater : ∀ action ∈ later, action.ticks = true)
    (hrun : Run.run (step readers network) (.construct dispatching schedulers cache)
      (.start environment scheduler early :: later) = some final) (hrest : AtRest final tileset) :
    Truthful final tileset ↔ LoadsRootTile readers network 0
      (World.ionFactory environment.parsedAssetId environment.token) cache := by
  obtain ⟨-, hcurrent, ⟨now, hnow, hfactory, hattached, hstage⟩, -⟩ :=
    underway_run readers network haccepted hlater hrun
  have htileset := hrest.current
  rw [hcurrent, Option.bind_some, hnow] at htileset
  obtain rfl := Option.some.inj htileset
  cases hstage with
  | loading _ hpending => exact absurd hpending hrest.settled
  | @ended ending hended hfits =>
      have hstatus : final.status = ending.status environment.parsedAssetId := by
        rw [hattached] at hfits
        exact hfits
      rw [loadsRootTile_iff readers network (hfactory ▸ hended.ends), ← hended.rootTile]
      constructor
      · intro htruthful hnone
        have herror := htruthful.error hnone
        rw [hstatus] at herror
        exact ending.status_not_error _ herror
      · intro htile
        rw [hended.rootTile] at htile
        have hstatus' := hstatus.trans (Ending.status_of_rootTile htile _)
        refine ⟨⟨fun _ => hended.rootTile ▸ htile, fun _ => ⟨_, hstatus'⟩⟩, fun hnone => ?_⟩
        exact absurd (hended.rootTile ▸ hnone) htile

/-- The calls and completions of a load that finds a root tile. -/
def rootTileTicks : List Action :=
  [.complete 0, .tick, .dispatch 0, .dispatch 0, .complete 0, .tick, .dispatch 0, .dispatch 0]

theorem truthful_iff_rootTile :
    ∃ final tileset, Run.run (step Sample.rootTile Sample.found) Sample.fresh
        (.start Sample.environment 1 0 :: rootTileTicks) = some final ∧
      AtRest final tileset ∧ tileset.manager.pRootTile ≠ none ∧
      (Truthful final tileset ↔ LoadsRootTile Sample.rootTile Sample.found 0
        (World.ionFactory Sample.environment.parsedAssetId Sample.environment.token) ∅) := by
  have hlast : ((Run.run (step Sample.rootTile Sample.found) Sample.fresh
      (.start Sample.environment 1 0 :: rootTileTicks)).bind fun final =>
        (final.tileset.bind final.tilesets).map fun tileset =>
          (tileset.manager.rootTileAvailable, tileset.manager.pRootTile.isSome,
            final.schedulers tileset.scheduler)) = some (.resolved, true, some []) := by decide
  obtain ⟨final, hrun, hfinal⟩ := Option.bind_eq_some_iff.mp hlast
  obtain ⟨tileset, htileset, hprojections⟩ := Option.map_eq_some_iff.mp hfinal
  simp only [Prod.mk.injEq] at hprojections
  obtain ⟨hresolved, hrootTile, hqueue⟩ := hprojections
  have hrest : AtRest final tileset := ⟨htileset, by simp [hresolved], hqueue⟩
  exact ⟨final, tileset, hrun, hrest, Option.isSome_iff_ne_none.mp hrootTile,
    truthful_iff Sample.rootTile Sample.found (by decide) (by decide) hrun hrest⟩

/-- A load that ends with 404. -/
theorem not_truthful_notFound :
    ¬∀ final tileset, Run.run (step Sample.nothingParses Sample.notFound) Sample.fresh
        [.start Sample.environment 1 0, .complete 0, .tick, .dispatch 0, .dispatch 0] = some final →
      AtRest final tileset → Truthful final tileset := by
  intro h
  have hlast : ((Run.run (step Sample.nothingParses Sample.notFound) Sample.fresh
      [.start Sample.environment 1 0, .complete 0, .tick, .dispatch 0, .dispatch 0]).bind fun final =>
        (final.tileset.bind final.tilesets).map fun tileset =>
          (tileset.manager.rootTileAvailable, tileset.manager.pRootTile,
            final.schedulers tileset.scheduler, final.status)) =
      some (.resolved, none, some [], rootTileStatus 1) := by decide
  obtain ⟨final, hrun, hfinal⟩ := Option.bind_eq_some_iff.mp hlast
  obtain ⟨tileset, htileset, hprojections⟩ := Option.map_eq_some_iff.mp hfinal
  simp only [Prod.mk.injEq] at hprojections
  obtain ⟨hresolved, hrootTile, hqueue, hstatus⟩ := hprojections
  have hrest : AtRest final tileset := ⟨htileset, by simp [hresolved], hqueue⟩
  have htruthful := h final tileset hrun hrest
  exact htruthful.available.mp ⟨1, hstatus⟩ hrootTile

end QtCesium
