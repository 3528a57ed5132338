import QtCesium.TraversalState
import Mathlib.Data.Finset.Insert
import Mathlib.Data.Rat.Defs

/-! The choice of the tiles to render and to load in one frame: `TileSelectionState`, the load queues of
`TilesetViewGroup`, and the visits of `Tileset`. -/

namespace QtCesium

abbrev TileId := Nat

inductive TileLoadState where
  | unloading
  | failedTemporarily
  | unloaded
  | contentLoading
  | contentLoaded
  | done
  | failed
  deriving DecidableEq, Repr

inductive TileRefine where
  | add
  | replace
  deriving DecidableEq, Repr

namespace Selection

open TreeTraversalState

inductive TileSelectionState where
  | none
  | culled
  | rendered
  | refined
  | renderedAndKicked
  | refinedAndKicked
  deriving DecidableEq, Repr, Inhabited

namespace TileSelectionState

def getOriginalResult : TileSelectionState → TileSelectionState
  | refinedAndKicked => refined
  | renderedAndKicked => rendered
  | result => result

def kick : TileSelectionState → TileSelectionState
  | rendered => renderedAndKicked
  | refined => refinedAndKicked
  | result => result

end TileSelectionState

inductive TileContentKind where
  | unknown
  | empty
  | external
  | render
  deriving DecidableEq, Repr

/-- `RasterMappedTo3DTile`: whether it has a ready tile, whether its loading tile is still unloaded, and
whether it is attached. -/
structure RasterMappedTo3DTile where
  hasReadyTile : Bool
  loadingTileUnloaded : Bool
  attached : Bool
  deriving DecidableEq

/-- What a frame reads of a tile. -/
structure Tile where
  parent : Option TileId
  children : List TileId
  refine : TileRefine
  unconditionallyRefine : Bool
  state : TileLoadState
  content : TileContentKind
  mappedRasterTiles : List RasterMappedTo3DTile
  /-- `getLodTransitionFadePercentage() < 1.0f`, of render content. -/
  fadingIn : Bool

namespace Tile

def isRenderable (tile : Tile) : Bool :=
  if tile.state = .failed then
    -- a failed tile counts as an empty one
    true
  else if tile.state = .done then
    if !tile.unconditionallyRefine || tile.children.isEmpty then
      tile.mappedRasterTiles.all RasterMappedTo3DTile.hasReadyTile
    else false
  else false

def isRenderContent (tile : Tile) : Bool := tile.content = .render

def isExternalContent (tile : Tile) : Bool := tile.content = .external

def anyRasterOverlaysNeedLoading (tile : Tile) : Bool :=
  tile.mappedRasterTiles.any RasterMappedTo3DTile.loadingTileUnloaded

end Tile

/-- `GltfModifier`, as the load queues ask it. -/
structure GltfModifier where
  needsWorkerThreadModification : TileId → Bool
  needsMainThreadModification : TileId → Bool

/-- One frustum, as the outcome of its tests: whether the bounds of a tile are visible from its camera, whether
a tile at its distance is visible in its fog, and the screen-space error of a tile at its distance. -/
structure ViewState where
  isVisibleFromCamera : TileId → Bool
  isVisibleInFog : TileId → Bool
  screenSpaceError : TileId → Rat

inductive TileOcclusionState where
  | occlusionUnavailable
  | notOccluded
  | occluded
  deriving DecidableEq

structure TilesetOptions where
  maximumScreenSpaceError : Rat
  preloadAncestors : Bool
  preloadSiblings : Bool
  loadingDescendantLimit : Nat
  forbidHoles : Bool
  enableFrustumCulling : Bool
  enableOcclusionCulling : Bool
  delayRefinementForOcclusion : Bool
  enableFogCulling : Bool
  enforceCulledScreenSpaceError : Bool
  culledScreenSpaceError : Rat
  /-- `shouldExclude` of each excluder. -/
  excluders : List (TileId → Bool)
  enableLodTransitionPeriod : Bool
  kickDescendantsWhileFadingIn : Bool

/-- What one frame works on: the tiles, the options and the views. -/
structure Scene where
  tile : TileId → Tile
  options : TilesetOptions
  frustums : List ViewState
  tilePriority : TileId → Rat
  pGltfModifier : Option GltfModifier
  /-- The state of the proxy that `fetchOcclusionProxyForTile` gives for a tile, if there is a pool. -/
  pTileOcclusionProxyPool : Option (TileId → Option TileOcclusionState)

inductive TileLoadPriorityGroup where
  | preload
  | normal
  | urgent
  deriving DecidableEq

structure TileLoadTask where
  pTile : TileId
  group : TileLoadPriorityGroup
  priority : Rat
  deriving DecidableEq

structure ViewUpdateResult where
  tilesToRenderThisFrame : List TileId
  tilesFadingOut : Finset TileId
  workerThreadTileLoadQueueLength : Nat
  mainThreadTileLoadQueueLength : Nat
  tilesVisited : Nat
  culledTilesVisited : Nat
  tilesCulled : Nat
  tilesOccluded : Nat
  tilesWaitingForOcclusionResults : Nat
  tilesKicked : Nat
  maxDepthVisited : Nat
  frameNumber : Nat

def ViewUpdateResult.new : ViewUpdateResult := ⟨[], ∅, 0, 0, 0, 0, 0, 0, 0, 0, 0, 0⟩

structure TilesetViewGroup where
  mainThreadLoadQueue : List TileLoadTask
  workerThreadLoadQueue : List TileLoadTask
  tilesAlreadyLoadingOrUnloading : Nat
  loadProgressPercentage : Rat
  updateResult : ViewUpdateResult
  traversalState : TreeTraversalState TileId TileSelectionState
  /-- Whether every `CESIUM_ASSERT` of the load queues has held so far. -/
  assertionsHold : Bool

namespace TilesetViewGroup

def new : TilesetViewGroup := ⟨[], [], 0, 0, .new, .new, true⟩

/-- `CESIUM_ASSERT`. -/
def assert (g : TilesetViewGroup) (condition : Bool) : TilesetViewGroup :=
  { g with assertionsHold := g.assertionsHold && condition }

section Assert

variable (g : TilesetViewGroup) (condition : Bool)

@[simp] theorem assert_mainThreadLoadQueue : (g.assert condition).mainThreadLoadQueue = g.mainThreadLoadQueue := rfl

@[simp] theorem assert_workerThreadLoadQueue :
    (g.assert condition).workerThreadLoadQueue = g.workerThreadLoadQueue := rfl

@[simp] theorem assert_tilesAlreadyLoadingOrUnloading :
    (g.assert condition).tilesAlreadyLoadingOrUnloading = g.tilesAlreadyLoadingOrUnloading := rfl

@[simp] theorem assert_updateResult : (g.assert condition).updateResult = g.updateResult := rfl

@[simp] theorem assert_traversalState : (g.assert condition).traversalState = g.traversalState := rfl

@[simp] theorem assert_assertionsHold :
    (g.assert condition).assertionsHold = (g.assertionsHold && condition) := rfl

end Assert

structure LoadQueueCheckpoint where
  mainThread : Nat
  workerThread : Nat

def saveTileLoadQueueCheckpoint (g : TilesetViewGroup) : LoadQueueCheckpoint :=
  ⟨g.mainThreadLoadQueue.length, g.workerThreadLoadQueue.length⟩

/-- The number of tiles discarded is the first component. -/
def restoreTileLoadQueueCheckpoint (g : TilesetViewGroup) (checkpoint : LoadQueueCheckpoint) :
    Nat × TilesetViewGroup :=
  let g := g.assert (checkpoint.workerThread ≤ g.workerThreadLoadQueue.length &&
    checkpoint.mainThread ≤ g.mainThreadLoadQueue.length)
  let before := g.workerThreadLoadQueue.length + g.mainThreadLoadQueue.length
  let restored := { g with
    workerThreadLoadQueue := g.workerThreadLoadQueue.take checkpoint.workerThread
    mainThreadLoadQueue := g.mainThreadLoadQueue.take checkpoint.mainThread }
  (before - (restored.workerThreadLoadQueue.length + restored.mainThreadLoadQueue.length), restored)

end TilesetViewGroup

/-- `Tileset::TraversalDetails`. -/
structure TraversalDetails where
  allAreRenderable : Bool
  anyWereRenderedLastFrame : Bool
  notYetRenderableCount : Nat
  deriving DecidableEq

def TraversalDetails.new : TraversalDetails := ⟨true, false, 0⟩

/-- What the loop over the children adds of one child. -/
def TraversalDetails.merge (details child : TraversalDetails) : TraversalDetails :=
  ⟨details.allAreRenderable && child.allAreRenderable,
    details.anyWereRenderedLastFrame || child.anyWereRenderedLastFrame,
    details.notYetRenderableCount + child.notYetRenderableCount⟩

structure CullResult where
  shouldVisit : Bool
  culled : Bool

inductive VisitTileAction where
  | render
  | refine
  deriving DecidableEq

namespace Scene

variable (s : Scene)

def needsWorkerThreadLoading (tile : TileId) : Bool :=
  (s.tile tile).state = .unloaded || (s.tile tile).state = .failedTemporarily ||
    s.pGltfModifier.any (fun modifier => modifier.needsWorkerThreadModification tile) ||
    (s.tile tile).anyRasterOverlaysNeedLoading

def needsMainThreadLoading (tile : TileId) : Bool :=
  (s.tile tile).isRenderContent &&
    ((s.tile tile).state = .contentLoaded ||
      s.pGltfModifier.any (fun modifier => modifier.needsMainThreadModification tile))

/-- `TilesetViewGroup::addToLoadQueue`. -/
def addToLoadQueue (task : TileLoadTask) (g : TilesetViewGroup) : TilesetViewGroup :=
  let g := g.assert (!(g.workerThreadLoadQueue ++ g.mainThreadLoadQueue).any fun queued => queued.pTile = task.pTile)
  if s.needsWorkerThreadLoading task.pTile then
    { g with workerThreadLoadQueue := g.workerThreadLoadQueue ++ [task] }
  else if s.needsMainThreadLoading task.pTile then
    { g with mainThreadLoadQueue := g.mainThreadLoadQueue ++ [task] }
  else if (s.tile task.pTile).state = .contentLoading ∨ (s.tile task.pTile).state = .unloading then
    { g with tilesAlreadyLoadingOrUnloading := g.tilesAlreadyLoadingOrUnloading + 1 }
  else g

def task (tile : TileId) (group : TileLoadPriorityGroup) : TileLoadTask := ⟨tile, group, s.tilePriority tile⟩

def addTileToLoadQueue (tile : TileId) (group : TileLoadPriorityGroup) (g : TilesetViewGroup) : TilesetViewGroup :=
  s.addToLoadQueue (s.task tile group) g

def frustumCull (tile : TileId) (cullWithChildrenBounds : Bool) (cullResult : CullResult) : CullResult :=
  if !cullResult.shouldVisit || cullResult.culled then cullResult
  else
    let visible :=
      if cullWithChildrenBounds then
        s.frustums.any fun frustum => (s.tile tile).children.any frustum.isVisibleFromCamera
      else s.frustums.any fun frustum => frustum.isVisibleFromCamera tile
    if visible then cullResult
    else ⟨if s.options.enableFrustumCulling then false else cullResult.shouldVisit, true⟩

def fogCull (tile : TileId) (cullResult : CullResult) : CullResult :=
  if !cullResult.shouldVisit || cullResult.culled then cullResult
  else if s.frustums.any fun frustum => frustum.isVisibleInFog tile then cullResult
  else ⟨if s.options.enableFogCulling then false else cullResult.shouldVisit, true⟩

/-- The culling stages of `_visitTileIfNeeded`. -/
def cullResult (tile : TileId) : CullResult :=
  let cullWithChildrenBounds :=
    (s.tile tile).refine = .replace && !(s.tile tile).children.isEmpty &&
      !(s.tile tile).children.any fun child => (s.tile child).unconditionallyRefine
  let excluded : CullResult :=
    if s.options.excluders.any (fun shouldExclude => shouldExclude tile) then ⟨false, true⟩ else ⟨true, false⟩
  let cullResult := s.fogCull tile (s.frustumCull tile cullWithChildrenBounds excluded)
  if !cullResult.shouldVisit && (s.tile tile).unconditionallyRefine &&
      ((s.options.forbidHoles && (s.tile tile).refine = .replace) || (s.tile tile).parent.isNone) then
    { cullResult with shouldVisit := true }
  else cullResult

def meetsSse (tile : TileId) (culled : Bool) : Bool :=
  let largestSse := s.frustums.foldl
    (fun largest frustum =>
      if largest < frustum.screenSpaceError tile then frustum.screenSpaceError tile else largest) 0
  if culled then !s.options.enforceCulledScreenSpaceError || largestSse < s.options.culledScreenSpaceError
  else largestSse < s.options.maximumScreenSpaceError

/-- `_checkOcclusion`. -/
def checkOcclusion (tile : TileId) : TileOcclusionState :=
  match s.pTileOcclusionProxyPool with
  | none => .notOccluded
  | some fetchOcclusionProxyForTile =>
    match fetchOcclusionProxyForTile tile with
    | none => .notOccluded
    | some .occlusionUnavailable => .occlusionUnavailable
    | some .occluded => .occluded
    | some .notOccluded =>
      let children := (s.tile tile).children
      if children.isEmpty then .notOccluded
      else if children.any fun child => (s.tile child).unconditionallyRefine then .notOccluded
      else
        match children.mapM fetchOcclusionProxyForTile with
        | none => .notOccluded
        | some childOcclusionProxies =>
          if childOcclusionProxies.any (· = .notOccluded) then .notOccluded
          else if childOcclusionProxies.any (· = .occlusionUnavailable) then .occlusionUnavailable
          else .occluded

/-- `getPreviousState`. -/
def getPreviousState (g : TilesetViewGroup) : TileSelectionState := g.traversalState.previousState.getD .none

def setCurrentState (state : TileSelectionState) (g : TilesetViewGroup) : TilesetViewGroup :=
  { g with traversalState := g.traversalState.setCurrentState state }

def emplaceTileToRender (tile : TileId) (g : TilesetViewGroup) : TilesetViewGroup :=
  { g with
    updateResult := { g.updateResult with
      tilesToRenderThisFrame := g.updateResult.tilesToRenderThisFrame ++ [tile] } }

/-- A change of the counters of the result. -/
def count (f : ViewUpdateResult → ViewUpdateResult) (g : TilesetViewGroup) : TilesetViewGroup :=
  { g with updateResult := f g.updateResult }

def countTileVisited (depth : Nat) : TilesetViewGroup → TilesetViewGroup :=
  count fun result =>
    { result with
      tilesVisited := result.tilesVisited + 1
      maxDepthVisited := max result.maxDepthVisited depth }

def countCulledTileVisited : TilesetViewGroup → TilesetViewGroup :=
  count fun result => { result with culledTilesVisited := result.culledTilesVisited + 1 }

def countTileCulled : TilesetViewGroup → TilesetViewGroup :=
  count fun result => { result with tilesCulled := result.tilesCulled + 1 }

def countTileOccluded : TilesetViewGroup → TilesetViewGroup :=
  count fun result => { result with tilesOccluded := result.tilesOccluded + 1 }

def countTileWaitingForOcclusionResults : TilesetViewGroup → TilesetViewGroup :=
  count fun result => { result with tilesWaitingForOcclusionResults := result.tilesWaitingForOcclusionResults + 1 }

/-- Whether a tile with a state was on the screen: rendered, or refined and rendered in addition to its
children. -/
def wasShown (label : TileId × TileSelectionState) : Bool :=
  label.2 = .rendered || (label.2 = .refined && (s.tile label.1).refine = .add)

def addToTilesFadingOutIfPreviouslyRendered (label : TileId × TileSelectionState) (g : TilesetViewGroup) :
    TilesetViewGroup :=
  if s.wasShown label then
    { g with
      updateResult := { g.updateResult with tilesFadingOut := insert label.1 g.updateResult.tilesFadingOut } }
  else g

def addCurrentTileToTilesFadingOutIfPreviouslyRendered (tile : TileId) (g : TilesetViewGroup) : TilesetViewGroup :=
  s.addToTilesFadingOutIfPreviouslyRendered (tile, getPreviousState g) g

/-- The callback of `forEachPreviousDescendant` where tiles below the current one stop being rendered. -/
def addPreviousDescendantsToTilesFadingOut (g : TilesetViewGroup) : TilesetViewGroup :=
  g.traversalState.previousDescendants.foldl
    (fun g label => s.addToTilesFadingOutIfPreviouslyRendered label g) g

def addCurrentTileDescendantsToTilesFadingOutIfPreviouslyRendered (g : TilesetViewGroup) : TilesetViewGroup :=
  if getPreviousState g = .refined then s.addPreviousDescendantsToTilesFadingOut g else g

def addCurrentTileAndDescendantsToTilesFadingOutIfPreviouslyRendered (tile : TileId) (g : TilesetViewGroup) :
    TilesetViewGroup :=
  s.addCurrentTileDescendantsToTilesFadingOutIfPreviouslyRendered
    (s.addCurrentTileToTilesFadingOutIfPreviouslyRendered tile g)

def createTraversalDetailsForSingleTile (tile : TileId) (g : TilesetViewGroup) : TraversalDetails :=
  let lastFrameResult := getPreviousState g
  let isRenderable := (s.tile tile).isRenderable
  let wasRenderedLastFrame :=
    lastFrameResult = .rendered ||
      (lastFrameResult = .refined &&
        ((s.tile tile).refine = .add ||
          g.traversalState.previousDescendants.any fun label => label.2 = .rendered))
  ⟨isRenderable, isRenderable && wasRenderedLastFrame, if isRenderable then 0 else 1⟩

def renderLeaf (tile : TileId) (g : TilesetViewGroup) : TraversalDetails × TilesetViewGroup :=
  let g := s.addTileToLoadQueue tile .normal (emplaceTileToRender tile (setCurrentState .rendered g))
  (s.createTraversalDetailsForSingleTile tile g, g)

def mustContinueRefiningToDeeperTiles (tile : TileId) (lastFrameSelectionState : TileSelectionState) : Bool :=
  lastFrameSelectionState.getOriginalResult = .refined && !(s.tile tile).isRenderable

def renderInnerTile (tile : TileId) (g : TilesetViewGroup) : TraversalDetails × TilesetViewGroup :=
  let g := emplaceTileToRender tile
    (setCurrentState .rendered (s.addCurrentTileDescendantsToTilesFadingOutIfPreviouslyRendered g))
  (s.createTraversalDetailsForSingleTile tile g, g)

def loadAndRenderAdditiveRefinedTile (tile : TileId) (queuedForLoad : Bool) (g : TilesetViewGroup) :
    Bool × TilesetViewGroup :=
  if (s.tile tile).refine = .add then
    let g := emplaceTileToRender tile g
    (true, if queuedForLoad then g else s.addTileToLoadQueue tile .normal g)
  else (false, g)

/-- Removes the load queue entries made since the checkpoint, and counts them. -/
def kickFromLoadQueues (checkpoint : TilesetViewGroup.LoadQueueCheckpoint) (g : TilesetViewGroup) :
    TilesetViewGroup :=
  let (kicked, g) := g.restoreTileLoadQueueCheckpoint checkpoint
  count (fun result => { result with tilesKicked := result.tilesKicked + kicked }) g

/-- The render list from an index on, replaced by the tile unless the tile is in it already. -/
def kickFromRenderList (tile : TileId) (firstRenderedDescendantIndex : Nat) (g : TilesetViewGroup) :
    TilesetViewGroup :=
  let renderList := g.updateResult.tilesToRenderThisFrame.take firstRenderedDescendantIndex
  { g with
    updateResult := { g.updateResult with
      tilesToRenderThisFrame := if (s.tile tile).refine = .add then renderList else renderList ++ [tile] } }

def kickDescendantsAndRenderTile (tile : TileId) (details : TraversalDetails) (firstRenderedDescendantIndex : Nat)
    (loadQueueBeforeChildren : TilesetViewGroup.LoadQueueCheckpoint) (queuedForLoad : Bool)
    (g : TilesetViewGroup) : TraversalDetails × Bool × TilesetViewGroup :=
  let g := { g with traversalState := g.traversalState.forEachCurrentDescendant TileSelectionState.kick }
  let g := s.addPreviousDescendantsToTilesFadingOut g
  let g := setCurrentState .rendered (s.kickFromRenderList tile firstRenderedDescendantIndex g)
  let isRenderable := (s.tile tile).isRenderable
  let wasReallyRenderedLastFrame := getPreviousState g = .rendered && isRenderable
  if !wasReallyRenderedLastFrame && s.options.loadingDescendantLimit < details.notYetRenderableCount &&
      !(s.tile tile).isExternalContent && !(s.tile tile).unconditionallyRefine then
    let g := kickFromLoadQueues loadQueueBeforeChildren g
    let g := if queuedForLoad then g else s.addTileToLoadQueue tile .normal g
    (⟨isRenderable, wasReallyRenderedLastFrame, if isRenderable then 0 else 1⟩, true, g)
  else (⟨isRenderable, wasReallyRenderedLastFrame, details.notYetRenderableCount⟩, queuedForLoad, g)

/-- The action that the screen-space error and occlusion lead to, before a tile that should be rendered may
still have to be refined. -/
def chooseAction (tile : TileId) (meetsSse ancestorMeetsSse : Bool) (g : TilesetViewGroup) :
    VisitTileAction × TilesetViewGroup :=
  let unconditionallyRefine := (s.tile tile).unconditionallyRefine
  let action : VisitTileAction :=
    if unconditionallyRefine || (!meetsSse && !ancestorMeetsSse) then .refine else .render
  let lastFrameSelectionState := getPreviousState g
  let tileLastRefined : Bool := lastFrameSelectionState = .refined
  let childLastRefined := g.traversalState.previousChildren.any fun label => label.2 = .refined
  let shouldCheckOcclusion :=
    s.options.enableOcclusionCulling && action = .refine && !unconditionallyRefine &&
      (!tileLastRefined || !childLastRefined)
  if shouldCheckOcclusion then
    match s.checkOcclusion tile with
    | .occluded => (.render, countTileOccluded g)
    | .occlusionUnavailable =>
      if s.options.delayRefinementForOcclusion && lastFrameSelectionState.getOriginalResult ≠ .refined then
        (.render, countTileWaitingForOcclusionResults g)
      else (action, g)
    | .notOccluded => (action, g)
  else (action, g)

/-- Whether the descendants are kicked once they have been visited. -/
def willKick (tile : TileId) (details : TraversalDetails) (lastFrameSelectionResult : TileSelectionState) : Bool :=
  let kickDueToNonReadyDescendant := !details.allAreRenderable && !details.anyWereRenderedLastFrame
  let kickDueToTileFadingIn :=
    s.options.enableLodTransitionPeriod && s.options.kickDescendantsWhileFadingIn &&
      lastFrameSelectionResult = .rendered && (s.tile tile).isRenderContent && (s.tile tile).fadingIn
  (kickDueToNonReadyDescendant || kickDueToTileFadingIn) &&
    (s.options.loadingDescendantLimit < details.notYetRenderableCount || (s.tile tile).isRenderable)

/-- The part of `_visitTile` from "Refine!" on. -/
def refineTile (visitChildren : Bool → TilesetViewGroup → TraversalDetails × TilesetViewGroup) (tile : TileId)
    (ancestorMeetsSse queuedForLoad : Bool) (g : TilesetViewGroup) : TraversalDetails × TilesetViewGroup :=
  let lastFrameSelectionResult := getPreviousState g
  let (loaded, g) := s.loadAndRenderAdditiveRefinedTile tile queuedForLoad g
  let queuedForLoad := loaded || queuedForLoad
  let firstRenderedDescendantIndex := g.updateResult.tilesToRenderThisFrame.length
  let loadQueueBeforeChildren := g.saveTileLoadQueueCheckpoint
  let (details, g) := visitChildren ancestorMeetsSse g
  let (details, queuedForLoad, g) :=
    if s.willKick tile details lastFrameSelectionResult then
      s.kickDescendantsAndRenderTile tile details firstRenderedDescendantIndex loadQueueBeforeChildren queuedForLoad g
    else
      let g := if (s.tile tile).refine = .add then g else s.addCurrentTileToTilesFadingOutIfPreviouslyRendered tile g
      (details, queuedForLoad, setCurrentState .refined g)
  (details, if s.options.preloadAncestors && !queuedForLoad then s.addTileToLoadQueue tile .preload g else g)

/-- `_visitTile`; `visitChildren` is `_visitVisibleChildrenNearToFar` for the children of the tile. -/
def visitTile (visitChildren : Bool → TilesetViewGroup → TraversalDetails × TilesetViewGroup) (depth : Nat)
    (meetsSse ancestorMeetsSse : Bool) (tile : TileId) (g : TilesetViewGroup) :
    TraversalDetails × TilesetViewGroup :=
  let g := countTileVisited depth g
  if (s.tile tile).children.isEmpty then s.renderLeaf tile g
  else
    let lastFrameSelectionState := getPreviousState g
    match s.chooseAction tile meetsSse ancestorMeetsSse g with
    | (.render, g) =>
      if s.mustContinueRefiningToDeeperTiles tile lastFrameSelectionState then
        if ancestorMeetsSse then s.refineTile visitChildren tile true false g
        else s.refineTile visitChildren tile true true (s.addTileToLoadQueue tile .urgent g)
      else s.renderInnerTile tile (if ancestorMeetsSse then g else s.addTileToLoadQueue tile .normal g)
    | (.refine, g) => s.refineTile visitChildren tile ancestorMeetsSse false g

/-- The part of `_visitTileIfNeeded` for a tile that is not visited. -/
def cullTile (tile : TileId) (g : TilesetViewGroup) : TraversalDetails × TilesetViewGroup :=
  let g := countTileCulled
    (setCurrentState .culled (s.addCurrentTileAndDescendantsToTilesFadingOutIfPreviouslyRendered tile g))
  if s.options.forbidHoles && (s.tile tile).refine = .replace then
    let g := s.addTileToLoadQueue tile .normal g
    (s.createTraversalDetailsForSingleTile tile g, g)
  else if s.options.preloadSiblings then (.new, s.addTileToLoadQueue tile .preload g)
  else (.new, g)

def visitTileIfNeeded (visitChildren : Bool → TilesetViewGroup → TraversalDetails × TilesetViewGroup) (depth : Nat)
    (ancestorMeetsSse : Bool) (tile : TileId) (g : TilesetViewGroup) : TraversalDetails × TilesetViewGroup :=
  let g := { g with traversalState := g.traversalState.beginNode tile }
  let cullResult := s.cullResult tile
  let (details, g) :=
    if !cullResult.shouldVisit then s.cullTile tile g
    else
      let g := if cullResult.culled then countCulledTileVisited g else g
      s.visitTile visitChildren depth (s.meetsSse tile cullResult.culled) ancestorMeetsSse tile g
  (details, { g with traversalState := g.traversalState.finishNode })

/-- The loop of `_visitVisibleChildrenNearToFar` over the children of a tile, which are at `depth`. -/
def visitVisibleChildren : Forest TileId → Nat → Bool → TraversalDetails → TilesetViewGroup →
    TraversalDetails × TilesetViewGroup
  | .nil, _, _, details, g => (details, g)
  | .cons child children siblings, depth, ancestorMeetsSse, details, g =>
    let (childTraversal, g) := s.visitTileIfNeeded
      (fun ancestorMeetsSse g => visitVisibleChildren children (depth + 1) ancestorMeetsSse .new g)
      depth ancestorMeetsSse child g
    visitVisibleChildren siblings depth ancestorMeetsSse (details.merge childTraversal) g

end Scene

/-- The order of `TileLoadTask`. -/
def TileLoadTask.lt (left right : TileLoadTask) : Bool :=
  if left.group = right.group then right.priority < left.priority
  else match left.group, right.group with
    | .preload, _ => true
    | .normal, .urgent => true
    | _, _ => false

namespace TilesetViewGroup

def startNewFrame (s : Scene) (g : TilesetViewGroup) : TilesetViewGroup :=
  { g with
    workerThreadLoadQueue := []
    mainThreadLoadQueue := []
    tilesAlreadyLoadingOrUnloading := 0
    traversalState := g.traversalState.beginTraversal
    updateResult := { g.updateResult with
      frameNumber := g.updateResult.frameNumber + 1
      tilesVisited := 0
      culledTilesVisited := 0
      tilesCulled := 0
      tilesOccluded := 0
      tilesWaitingForOcclusionResults := 0
      tilesKicked := 0
      maxDepthVisited := 0
      tilesToRenderThisFrame := []
      tilesFadingOut := if s.options.enableLodTransitionPeriod then g.updateResult.tilesFadingOut else ∅ } }

/-- The mapped raster tiles of the tiles to render, each of which counts as a tile. -/
def mappedRasterTilesToRender (s : Scene) (g : TilesetViewGroup) : List RasterMappedTo3DTile :=
  g.updateResult.tilesToRenderThisFrame.flatMap fun tile => (s.tile tile).mappedRasterTiles

def tilesLoading (s : Scene) (g : TilesetViewGroup) : Nat :=
  g.workerThreadLoadQueue.length + g.mainThreadLoadQueue.length + g.updateResult.tilesKicked +
    g.tilesAlreadyLoadingOrUnloading + (g.mappedRasterTilesToRender s).countP (fun mapped => !mapped.attached)

def totalTiles (s : Scene) (g : TilesetViewGroup) : Nat :=
  g.traversalState.getNodeCountInCurrentTraversal + (g.mappedRasterTilesToRender s).length

/-- The subtraction of the counts is of `size_t`, so that it is 2 ^ 64 off where it is not possible. -/
def finishFrame (s : Scene) (g : TilesetViewGroup) : TilesetViewGroup :=
  let inOrder (left right : TileLoadTask) : Bool := !right.lt left
  let totalTiles := g.totalTiles s
  let tilesLoading := g.tilesLoading s
  { g with
    workerThreadLoadQueue := g.workerThreadLoadQueue.mergeSort inOrder
    mainThreadLoadQueue := g.mainThreadLoadQueue.mergeSort inOrder
    updateResult := { g.updateResult with
      workerThreadTileLoadQueueLength := g.workerThreadLoadQueue.length
      mainThreadTileLoadQueueLength := g.mainThreadLoadQueue.length }
    loadProgressPercentage :=
      if tilesLoading = 0 then 100
      else
        let remaining : Nat :=
          if tilesLoading ≤ totalTiles then totalTiles - tilesLoading else totalTiles + 18446744073709551616 - tilesLoading
        100 * (remaining : Rat) / (totalTiles : Rat) }

def hasMoreTilesToLoadInWorkerThread (g : TilesetViewGroup) : Bool := !g.workerThreadLoadQueue.isEmpty

/-- The back of the queue, and the group without it. -/
def getNextTileToLoadInWorkerThread (g : TilesetViewGroup) : Option TileId × TilesetViewGroup :=
  let g := g.assert (!g.workerThreadLoadQueue.isEmpty)
  (g.workerThreadLoadQueue.getLast?.map TileLoadTask.pTile,
    { g with workerThreadLoadQueue := g.workerThreadLoadQueue.dropLast })

def hasMoreTilesToLoadInMainThread (g : TilesetViewGroup) : Bool := !g.mainThreadLoadQueue.isEmpty

def getNextTileToLoadInMainThread (g : TilesetViewGroup) : Option TileId × TilesetViewGroup :=
  let g := g.assert (!g.mainThreadLoadQueue.isEmpty)
  (g.mainThreadLoadQueue.getLast?.map TileLoadTask.pTile,
    { g with mainThreadLoadQueue := g.mainThreadLoadQueue.dropLast })

end TilesetViewGroup

/-- What `updateViewGroup` makes of the options first: with level-of-detail transitions, tiles that are out of
sight are not dropped at once. -/
def Scene.withLodTransitions (s : Scene) : Scene :=
  { s with
    options := { s.options with
      enableFrustumCulling := s.options.enableFrustumCulling && !s.options.enableLodTransitionPeriod
      enableFogCulling := s.options.enableFogCulling && !s.options.enableLodTransitionPeriod } }

/-- `Tileset::updateViewGroup` up to the fading of tiles; the tree is the root tile, if there is one, and what
is below it. -/
def updateViewGroup (s : Scene) (tree : Option (TileId × Forest TileId)) (g : TilesetViewGroup) : TilesetViewGroup :=
  match tree with
  | none => g
  | some (root, children) =>
    let s := s.withLodTransitions
    if s.frustums.isEmpty then { g with updateResult := .new }
    else ((s.visitVisibleChildren (.cons root children .nil) 0 false .new (g.startNewFrame s)).2).finishFrame s

end Selection

end QtCesium
