import QtCesium.AssetNumber
import QtCesium.ConfigFile
import QtCesium.ContentManager
import QtCesium.MainThread
import Mathlib.Logic.Function.Basic

/-! `CesiumRuntime`: the tilesets it has created, each with the schedulers of its own `AsyncSystem` and
a load that may still be in progress, and the methods that start, tick and destroy it. Objects of
other tilesets than the current one go on existing as long as their loads do. -/

namespace QtCesium

open Futures

/-- Tilesets are numbered in the order they are created. -/
abbrev TilesetId := Nat

/-- Tasks in a main-thread queue: a continuation of the tileset's load, or the one that
`startFromEnvironment` attaches to its root-tile-available event. -/
inductive Task where
  | load (tileset : TilesetId)
  | rootTileAvailable (tileset : TilesetId)
  deriving DecidableEq

def Task.tileset : Task → TilesetId
  | .load tileset => tileset
  | .rootTileAvailable tileset => tileset

/-- A tileset with its content manager. `load` is what the load waits for, and
`onRootTileAvailable` the `parsedAssetId` captured by the continuation on the event. -/
structure Tileset where
  scheduler : Address
  loaderFactory : CesiumIonTilesetContentLoaderFactory
  manager : TilesetContentManager
  answered : Nat
  load : Option (Pending Load .result)
  onRootTileAvailable : Option Int
  destroyed : Bool

/-- A `setStatus` executed by a callback of a tileset's load, and the runtime at that moment. -/
structure StatusWrite where
  tileset : TilesetId
  alive : Bool
  current : Option TilesetId
  deriving DecidableEq

structure World where
  main : MainThread
  schedulers : Address → Option (List Task)
  endpointCache : EndpointCache
  tilesets : TilesetId → Option Tileset
  nextTileset : TilesetId
  status : Bytes
  tileset : Option TilesetId
  mainThreadScope : Option SchedulerScope
  alive : Bool
  ticking : Bool
  writes : List StatusWrite

/-- The main-thread continuations `createFromLoaderFactory` attaches to the loader's future: what
`loadErrorCallback` is called with, if it is, and the tileset afterwards. The runtime sets no glTF
modifier, so `registerGltfModifier` returns a resolved future. -/
def Tileset.finishLoad (tileset : Tileset) (outcome : Outcome Load .result) :
    Option TilesetLoadFailureDetails × Tileset :=
  let manager := tileset.manager.notifyTileDoneLoading
  match outcome with
  | .ok result =>
      let (details, manager) := manager.propagateTilesetContentLoaderResult result
      (details, { tileset with load := none, manager := manager.resolveRootTileAvailable })
  | .error _ =>
      let manager := manager.rejectRootTileAvailable (text "Root tile failed to load.")
      (none, { tileset with load := none, manager })

/-! ### Status texts -/

def rootTileStatus (parsedAssetId : Int) : Bytes :=
  text "Tileset de ion creado. Asset " ++ formatInt parsedAssetId ++
    text " con root tile disponible. Siguiente paso: updateView() y renderer OpenGL."

/-- The text names one asset only. -/
theorem rootTileStatus_injective {left right : Int} (h : rootTileStatus left = rootTileStatus right) :
    left = right := by
  have hnumber := List.append_cancel_right h
  exact formatInt_injective (List.append_cancel_left hnumber)

/-- What `loadErrorCallback` writes. -/
def loadErrorStatus (details : TilesetLoadFailureDetails) : Bytes :=
  text "Error cargando tileset" ++
    (if details.statusCode ≠ 200 then text " (HTTP " ++ statusText details.statusCode ++ text ")" else []) ++
    (if details.message ≠ [] then text ": " ++ details.message else [])

def initialStatus : Bytes :=
  text "Cesium Native listo. Configura cesium.conf o define CESIUM_ION_ACCESS_TOKEN y CESIUM_ION_ASSET_ID."

def missingTokenStatus : Bytes :=
  text "Falta el token de ion. Ponlo en cesium.conf con ion_access_token=... o usa CESIUM_ION_ACCESS_TOKEN."

def missingAssetStatus : Bytes :=
  text "Falta el asset id de ion. Anade ion_asset_id=... en cesium.conf o usa CESIUM_ION_ASSET_ID."

def notNumericStatus : Bytes :=
  text "El asset id de ion no es numerico. Usa un entero, por ejemplo 1."

def creatingStatus : Bytes := text "Creando Tileset de Cesium ion..."

namespace World

/-- A runtime that has just been constructed, on a thread that may be dispatching other schedulers and in
a process that may have cached endpoints. -/
def construct (dispatching : List Address) (schedulers : Address → Option (List Task))
    (endpointCache : EndpointCache) : World where
  main := ⟨dispatching, true⟩
  schedulers
  endpointCache
  tilesets := fun _ => none
  nextTileset := 0
  status := initialStatus
  tileset := none
  mainThreadScope := none
  alive := true
  ticking := false
  writes := []

def setTileset (world : World) (id : TilesetId) (tileset : Tileset) : World :=
  { world with tilesets := Function.update world.tilesets id (some tileset) }

def setStatus (world : World) (status : Bytes) : World := { world with status }

/-- `setStatus` from a callback that captured the runtime. -/
def callbackSetStatus (world : World) (id : TilesetId) (status : Bytes) : World :=
  { world.setStatus status with writes := world.writes ++ [⟨id, world.alive, world.tileset⟩] }

def loadErrorCallback (world : World) (id : TilesetId) : Option TilesetLoadFailureDetails → World
  | none => world
  | some details => world.callbackSetStatus id (loadErrorStatus details)

/-- `QueuedScheduler::schedule`. -/
def schedule (world : World) (scheduler : Address) (task : Task) : World :=
  { world with schedulers :=
      Function.update world.schedulers scheduler ((world.schedulers scheduler).map (· ++ [task])) }

/-! ### The root-tile-available event -/

/-- The continuation `startFromEnvironment` attaches; a rejected event passes it by. -/
def runRootTileAvailable (world : World) (id : TilesetId) (tileset : Tileset) : World :=
  match tileset.onRootTileAvailable, tileset.manager.rootTileAvailable with
  | some parsedAssetId, .resolved => world.callbackSetStatus id (rootTileStatus parsedAssetId)
  | _, _ => world

/-- The event is settled, on the main thread, and its continuation is scheduled. -/
def scheduleRootTileAvailable (world : World) (id : TilesetId) (tileset : Tileset) : World :=
  match tileset.onRootTileAvailable with
  | none => world
  | some _ =>
      if world.main.dispatches tileset.scheduler then world.runRootTileAvailable id tileset
      else world.schedule tileset.scheduler (.rootTileAvailable id)

/-- The load is over: an error is reported first, then the event is settled. -/
def finishLoad (world : World) (id : TilesetId) (tileset : Tileset) (outcome : Outcome Load .result) :
    World :=
  let (details, tileset) := tileset.finishLoad outcome
  ((world.loadErrorCallback id details).setTileset id tileset).scheduleRootTileAvailable id tileset

/-- Store how far a load has come. What is due on the main thread runs there at once when the thread
that got this far dispatches the tileset's scheduler, and is queued otherwise. -/
def park (world : World) (id : TilesetId) (tileset : Tileset) (progress : Progress Load .result)
    (onMain : Bool) : World :=
  let tileset := { tileset with answered := progress.answered, load := some progress.waiting }
  let world := { world.setTileset id tileset with endpointCache := progress.state }
  match progress.waiting with
  | .settled outcome =>
      if onMain && world.main.dispatches tileset.scheduler then world.finishLoad id tileset outcome
      else world.schedule tileset.scheduler (.load id)
  | .queued .mainThread _ _ => world.schedule tileset.scheduler (.load id)
  | _ => world

/-- `~Tileset`. The schedulers go with it unless its load still holds them. -/
def destroyTileset (world : World) (id : TilesetId) : World :=
  match world.tilesets id with
  | none => world
  | some tileset =>
      let world := world.setTileset id { tileset with destroyed := true }
      if tileset.manager.rootTileAvailable = .pending then world
      else { world with schedulers := Function.update world.schedulers tileset.scheduler none }

end World

/-- What becomes of each request of each tileset's load. -/
abbrev Network := TilesetId → Nat → AssetGet → Reply

def Network.answers (network : Network) (id : TilesetId) (number : Nat) (request : AssetGet) :
    Outcome Load .request :=
  request.complete (network id number request)

variable (readers : Readers) (network : Network)

namespace World

/-- The load of a new tileset as far as it has come when `createFromLoaderFactory` attaches its own
continuations. Worker threads complete `early` of the load's requests before the next continuation of the
loaders is attached. -/
def beginLoad (world : World) (id : TilesetId) (scheduler : Address)
    (loaderFactory : CesiumIonTilesetContentLoaderFactory) (early : Nat) : Progress Load .result :=
  attach (loadSemantics readers) (network.answers id) (world.main.dispatches scheduler) early
    ⟨0, loaderFactory.createLoader readers world.endpointCache, world.endpointCache⟩

/-- `createFromLoaderFactory` on the main thread, which has just created the tileset. -/
def createFromLoaderFactory (world : World) (id : TilesetId) (scheduler : Address)
    (loaderFactory : CesiumIonTilesetContentLoaderFactory) (early : Nat) : World :=
  let manager := TilesetContentManager.new
  if loaderFactory.isValid then
    world.park id ⟨scheduler, loaderFactory, manager.notifyTileStartLoading, 0, none, none, false⟩
      (world.beginLoad readers network id scheduler loaderFactory early) true
  else
    world.setTileset id ⟨scheduler, loaderFactory, manager.resolveRootTileAvailable, 0, none, none, false⟩

/-- The cast in `createFromCesiumIon`. -/
def ionFactory (assetId : Int) (accessToken : Bytes) : CesiumIonTilesetContentLoaderFactory :=
  ⟨UInt32.ofInt assetId, accessToken, text "https://api.cesium.com/"⟩

/-- `createIonTileset`: the new tileset is the one numbered `nextTileset` before the call. -/
def createIonTileset (world : World) (assetId : Int) (accessToken : Bytes) (scheduler : Address)
    (early : Nat) : World :=
  let id := world.nextTileset
  let world := { world with
    nextTileset := id + 1
    schedulers := Function.update world.schedulers scheduler (some []) }
  world.createFromLoaderFactory readers network id scheduler (ionFactory assetId accessToken) early

/-- `this->_tileset = ...`: the pointer is replaced before the old tileset is destroyed. -/
def assignTileset (world : World) (id : TilesetId) : World :=
  match world.tileset with
  | none => { world with tileset := some id }
  | some old => { world with tileset := some id }.destroyTileset old

def enterMainThread (world : World) (scheduler : Address) : World :=
  let (main, mainThreadScope) :=
    (world.main.enter scheduler).assignScope world.mainThreadScope (some scheduler)
  { world with main, mainThreadScope }

/-- `getRootTileAvailableEvent().thenInMainThread`. -/
def attachRootTileAvailable (world : World) (id : TilesetId) (parsedAssetId : Int) : World :=
  match world.tilesets id with
  | none => world
  | some tileset =>
      let tileset := { tileset with onRootTileAvailable := some parsedAssetId }
      let world := world.setTileset id tileset
      if tileset.manager.rootTileAvailable = .pending then world
      else world.scheduleRootTileAvailable id tileset

/-- The rest of `startFromEnvironment` once the asset id is parsed. -/
def startTileset (world : World) (parsedAssetId : Int) (token : Bytes) (scheduler : Address)
    (early : Nat) : World :=
  let id := world.nextTileset
  ((((world.setStatus creatingStatus).createIonTileset readers network parsedAssetId token scheduler
    early).assignTileset id).enterMainThread scheduler).attachRootTileAvailable id parsedAssetId

end World

/-! ### The configuration -/

/-- `cesium.conf`, when it can be read, and the environment. -/
structure Environment where
  configFile : Option Bytes
  getenv : Bytes → Option CString

def Environment.select (environment : Environment) (key name : Bytes) : Bytes :=
  match (readConfigFile environment.configFile).find key with
  | some value => value
  | none =>
      match environment.getenv name with
      | some value => value.bytes
      | none => []

def Environment.token (environment : Environment) : Bytes :=
  environment.select (text "ion_access_token") (text "CESIUM_ION_ACCESS_TOKEN")

def Environment.assetIdValue (environment : Environment) : Bytes :=
  environment.select (text "ion_asset_id") (text "CESIUM_ION_ASSET_ID")

/-- The number `strtoll` reads out of the asset id. -/
def Environment.parsedAssetId (environment : Environment) : Int :=
  (strtoll (cStr environment.assetIdValue)).1

namespace World

def startFromEnvironment (world : World) (environment : Environment) (scheduler : Address)
    (early : Nat) : Bool × World :=
  if environment.token = [] then (false, world.setStatus missingTokenStatus)
  else if environment.assetIdValue = [] then (false, world.setStatus missingAssetStatus)
  else if (strtoll (cStr environment.assetIdValue)).2 ≠ [] then (false, world.setStatus notNumericStatus)
  else
    (true, world.startTileset readers network environment.parsedAssetId environment.token scheduler early)

end World

/-- The start gets past its checks of the configuration. -/
def Environment.accepted (environment : Environment) : Bool :=
  environment.token != [] && environment.assetIdValue != [] &&
    (strtoll (cStr environment.assetIdValue)).2 == []

namespace World

theorem startFromEnvironment_of_accepted {environment : Environment}
    (h : environment.accepted = true) (world : World) (scheduler : Address) (early : Nat) :
    world.startFromEnvironment readers network environment scheduler early =
      (true, world.startTileset readers network environment.parsedAssetId environment.token scheduler
        early) := by
  simp only [Environment.accepted, Bool.and_eq_true, bne_iff_ne, beq_iff_eq] at h
  obtain ⟨⟨htoken, hasset⟩, hrest⟩ := h
  rw [startFromEnvironment, if_neg htoken, if_neg hasset, if_neg (not_not_intro hrest)]

theorem startFromEnvironment_of_not_accepted {environment : Environment}
    (h : environment.accepted = false) (world : World) (scheduler : Address) (early : Nat) :
    ∃ status, world.startFromEnvironment readers network environment scheduler early =
      (false, world.setStatus status) := by
  rw [startFromEnvironment]
  split_ifs with htoken hasset hrest
  · exact ⟨_, rfl⟩
  · exact ⟨_, rfl⟩
  · exact ⟨_, rfl⟩
  · simp [Environment.accepted, htoken, hasset, not_not.mp hrest] at h

/-! ### Ticks -/

/-- A task popped from the queue. -/
def runTask (world : World) (task : Task) (early : Nat) : World :=
  match world.tilesets task.tileset with
  | none => world
  | some tileset =>
      match task with
      | .rootTileAvailable id => world.runRootTileAvailable id tileset
      | .load id =>
          match tileset.load with
          | some (.settled outcome) => world.finishLoad id tileset outcome
          | some (.queued .mainThread outcome rest) =>
              let progress := mainStep (loadSemantics readers) true
                ⟨tileset.answered, .queued .mainThread outcome rest, world.endpointCache⟩
              world.park id tileset (attach (loadSemantics readers) (network.answers id) true early
                progress) true
          | _ => world

/-- A task has been popped and leaves `rest`; it runs within a scope of its own. -/
def runPopped (world : World) (tileset : Tileset) (task : Task) (rest : List Task) (early : Nat) : World :=
  let popped := { world with
    schedulers := Function.update world.schedulers tileset.scheduler (some rest)
    main := world.main.enter tileset.scheduler }
  let ran := popped.runTask readers network task early
  { ran with main := ran.main.reset (some tileset.scheduler) }

/-- One turn of the loop in `dispatchQueuedContinuations`. On an empty queue the loop ends and `tick`
returns; the accessor's `tick` does nothing. -/
def dispatch (world : World) (early : Nat) : Option World :=
  if world.ticking then do
    let id ← world.tileset
    let tileset ← world.tilesets id
    let queue ← world.schedulers tileset.scheduler
    match queue with
    | [] => some { world with ticking := false }
    | task :: rest => some (world.runPopped readers network tileset task rest early)
  else none

/-- A worker thread answers the request a load waits for, or runs the task it was given. -/
def complete (world : World) (id : TilesetId) : Option World := do
  let tileset ← world.tilesets id
  match tileset.load with
  | some (.get request rest) =>
      some (world.park id tileset (workerStep (loadSemantics readers) (network.answers id)
        ⟨tileset.answered, .get request rest, world.endpointCache⟩) false)
  | some (.queued .workerThread outcome rest) =>
      some (world.park id tileset (workerStep (loadSemantics readers) (network.answers id)
        ⟨tileset.answered, .queued .workerThread outcome rest, world.endpointCache⟩) false)
  | _ => none

/-- `~CesiumRuntime`: the members go in the reverse order of their declaration. -/
def destroy (world : World) : World :=
  let world := { world with
    alive := false
    main := world.main.destroyScope world.mainThreadScope
    mainThreadScope := none }
  match world.tileset with
  | none => world
  | some id => { world with tileset := none }.destroyTileset id

end World

/-! ### Runs -/

/-- What can happen next. A start finds the configuration it reads and the address its new schedulers
get. -/
inductive Action where
  | start (environment : Environment) (scheduler : Address) (early : Nat)
  | tick
  | dispatch (early : Nat)
  | complete (tileset : TilesetId)
  | destroy

/-- The main thread is between two calls and the runtime is alive. -/
def World.idle (world : World) : Bool := world.alive && !world.ticking

/-- One step, or `none` where the action is not possible. Calls are made one after another; the memory a
start gets is free. -/
def step (world : World) : Action → Option World
  | .start environment scheduler early =>
      if world.idle && (world.schedulers scheduler).isNone then
        some (world.startFromEnvironment readers network environment scheduler early).2
      else none
  | .tick => if world.idle then some { world with ticking := world.tileset.isSome } else none
  | .dispatch early => world.dispatch readers network early
  | .complete tileset => world.complete readers network tileset
  | .destroy => if world.idle then some world.destroy else none

/-! ### A configuration, a parser and a network for concrete runs -/

namespace Sample

def environment : Environment where
  configFile := some (text "ion_access_token='token'\nion_asset_id=1\n")
  getenv _ := none

example : environment.token = text "token" ∧ environment.accepted = true := by decide

/-- No document is one the loaders can read. -/
def nothingParses : Readers where
  parseIonResponse _ := .error ⟨3, 0⟩
  parseTilesetJson _ := .error ⟨3, 0⟩
  parseLayerJson _ := .error ⟨3, 0⟩
  readSchema _ := .error []
  resolve _ url _ := url

/-- Every request is answered with 404. -/
def notFound : Network := fun _ _ _ => .ok (some ⟨404, []⟩)

/-- The asset is a tileset with a root tile. -/
def rootTile : Readers where
  parseIonResponse _ := .ok ⟨[], text "3DTILES", text "tileset.json", [], [], none⟩
  parseTilesetJson _ := .ok (some ⟨false, none⟩)
  parseLayerJson _ := .error ⟨3, 0⟩
  readSchema _ := .error []
  resolve _ url _ := url

def found : Network := fun _ _ _ => .ok (some ⟨200, []⟩)

def fresh : World := .construct [] (fun _ => none) ∅

end Sample

end QtCesium
