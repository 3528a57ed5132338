import QtCesium.Selection

/-! The content of tiles over time: reference counts that go up the tree, the list of tiles whose content may be
unloaded, the start and the end of loads, and `unloadCachedBytes`. The tileset has not been destroyed, and there
is no glTF modifier. -/

namespace QtCesium.TileCache

/-- A tile, by the indices of the children on the way from it up to the root. -/
abbrev TilePath := List Nat

/-- `TileContent`; render content with what `computeByteSize` makes of its model. -/
inductive TileContent where
  | unknown
  | empty
  | external
  | render (byteSize : Int)
  deriving DecidableEq

namespace TileContent

def isRenderContent : TileContent → Bool
  | render _ => true
  | _ => false

def computeByteSize : TileContent → Int
  | render byteSize => byteSize
  | _ => 0

end TileContent

/-- `TileID`, without the coordinates that an ID of a tree of tiles has. -/
inductive TileID where
  | string (url : String)
  | treeNode
  | upsampledQuadtreeNode
  deriving DecidableEq

/-- `TileIdUtilities::isLoadable`. -/
def TileID.isLoadable : TileID → Bool
  | string url => !url.isEmpty
  | _ => true

structure Tile where
  /-- The length of `_children`. -/
  childCount : Nat
  id : TileID
  state : TileLoadState
  content : TileContent
  referenceCount : Int
  deriving DecidableEq

namespace Tile

def hasReferencingContent (tile : Tile) : Bool := tile.content ≠ .unknown && tile.id.isLoadable

def needsLoading (tile : Tile) : Bool := tile.state = .unloaded || tile.state = .failedTemporarily

end Tile

/-- What a loader gives to the constructors of `Tile`, of which none makes render content. -/
structure NewTile where
  id : TileID
  content : TileContent
  content_given : content.isRenderContent = false

/-- A constructed tile. Content that can be loaded again holds a reference on its tile from the start. -/
def NewTile.tile (new : NewTile) : Tile where
  childCount := 0
  id := new.id
  state := if new.content = .unknown then .unloaded else .contentLoaded
  content := new.content
  referenceCount := if new.content ≠ .unknown && new.id.isLoadable then 1 else 0

/-- A root tile as loaders make it; content that it is made with cannot be loaded again. -/
structure RootTile extends NewTile where
  unreferenced : toNewTile.tile.hasReferencingContent = false

/-- `TileLoadResult`. A success has content, and its `tileInitializer` creates children. -/
inductive TileLoadResult where
  | success (content : TileContent) (hknown : content ≠ .unknown) (children : List NewTile)
  | failed
  | retryLater

inductive UnloadTileContentResult where
  | keep
  | remove
  | removeAndClearChildren
  deriving DecidableEq

structure TilesetContentManager where
  tile : TilePath → Tile
  /-- No tile is further from the root than this, which bounds recursions down the tree. -/
  depth : Nat
  tilesEligibleForContentUnloading : List TilePath
  tileLoadsInProgress : Int
  loadedTilesCount : Int
  tilesDataUsed : Int
  referenceCount : Int
  /-- Whether every `CESIUM_ASSERT` has held so far, that of the next field apart, and every tile whose children
  were cleared still existed. -/
  assertionsHold : Bool
  /-- Whether every tile that was destroyed with the children of an external tile was in the state that is
  asserted of it: not loadable, or unloaded. -/
  clearedUnloaded : Bool

namespace TilesetContentManager

/-- The manager of a tileset, which holds a reference on it, once the root tile is there. -/
def new (root : RootTile) : TilesetContentManager where
  tile := Function.update (fun _ => { childCount := 0, id := .string "", state := .unloaded, content := .unknown,
                                      referenceCount := 0 }) [] root.tile
  depth := 0
  tilesEligibleForContentUnloading := []
  tileLoadsInProgress := 0
  loadedTilesCount := 1
  tilesDataUsed := root.content.computeByteSize
  referenceCount := 1
  assertionsHold := true
  clearedUnloaded := true

/-- Whether a path leads to a tile that has been created and not destroyed. -/
def isInTree (manager : TilesetContentManager) : TilePath → Bool
  | [] => true
  | index :: parent => index < (manager.tile parent).childCount && manager.isInTree parent

def modifyTile (path : TilePath) (f : Tile → Tile) (manager : TilesetContentManager) : TilesetContentManager :=
  { manager with tile := Function.update manager.tile path (f (manager.tile path)) }

/-- `CESIUM_ASSERT`. -/
def assert (condition : Bool) (manager : TilesetContentManager) : TilesetContentManager :=
  { manager with assertionsHold := manager.assertionsHold && condition }

def setState (path : TilePath) (state : TileLoadState) : TilesetContentManager → TilesetContentManager :=
  modifyTile path fun tile => { tile with state }

def setContentKind (path : TilePath) (content : TileContent) : TilesetContentManager → TilesetContentManager :=
  modifyTile path fun tile => { tile with content }

def getChildren (manager : TilesetContentManager) (path : TilePath) : List TilePath :=
  (List.range (manager.tile path).childCount).map (· :: path)

/-- The children with a reference count above zero. -/
def referencedChildren (manager : TilesetContentManager) (path : TilePath) : Nat :=
  (manager.getChildren path).countP fun child => 0 < (manager.tile child).referenceCount

def isContentReferenced (manager : TilesetContentManager) (path : TilePath) : Bool :=
  let referencesNotToThisTilesContent : Int :=
    (if (manager.tile path).hasReferencingContent then 1 else 0) + manager.referencedChildren path
  referencesNotToThisTilesContent < (manager.tile path).referenceCount

def markTileIneligibleForContentUnloading (path : TilePath) (manager : TilesetContentManager) :
    TilesetContentManager :=
  { manager with tilesEligibleForContentUnloading := manager.tilesEligibleForContentUnloading.erase path }

def markTileEligibleForContentUnloading (path : TilePath) (manager : TilesetContentManager) :
    TilesetContentManager :=
  if path ∈ manager.tilesEligibleForContentUnloading then manager
  else { manager with tilesEligibleForContentUnloading := manager.tilesEligibleForContentUnloading ++ [path] }

/-- `Tile::addReference`. -/
def addReference : TilePath → TilesetContentManager → TilesetContentManager
  | [], manager =>
    let manager := manager.modifyTile [] fun tile => { tile with referenceCount := tile.referenceCount + 1 }
    let manager :=
      if (manager.tile []).referenceCount = 1 then { manager with referenceCount := manager.referenceCount + 1 }
      else manager
    if manager.isContentReferenced [] then manager.markTileIneligibleForContentUnloading [] else manager
  | index :: parent, manager =>
    let manager := manager.modifyTile (index :: parent) fun tile =>
      { tile with referenceCount := tile.referenceCount + 1 }
    let manager :=
      if (manager.tile (index :: parent)).referenceCount = 1 then
        addReference parent (manager.assert (index < (manager.tile parent).childCount))
      else manager
    if manager.isContentReferenced (index :: parent) then
      manager.markTileIneligibleForContentUnloading (index :: parent)
    else manager

/-- `Tile::releaseReference`. -/
def releaseReference : TilePath → TilesetContentManager → TilesetContentManager
  | [], manager =>
    let manager := manager.assert (0 < (manager.tile []).referenceCount)
    let manager := manager.modifyTile [] fun tile => { tile with referenceCount := tile.referenceCount - 1 }
    let referenceCount := (manager.tile []).referenceCount
    let manager :=
      if manager.isContentReferenced [] then manager else manager.markTileEligibleForContentUnloading []
    if referenceCount = 0 then { manager with referenceCount := manager.referenceCount - 1 } else manager
  | index :: parent, manager =>
    let manager := manager.assert (0 < (manager.tile (index :: parent)).referenceCount)
    let manager := manager.modifyTile (index :: parent) fun tile =>
      { tile with referenceCount := tile.referenceCount - 1 }
    let referenceCount := (manager.tile (index :: parent)).referenceCount
    let manager :=
      if manager.isContentReferenced (index :: parent) then manager
      else manager.markTileEligibleForContentUnloading (index :: parent)
    if referenceCount = 0 then
      releaseReference parent (manager.assert (index < (manager.tile parent).childCount))
    else manager

def notifyTileStartLoading (manager : TilesetContentManager) : TilesetContentManager :=
  { manager with tileLoadsInProgress := manager.tileLoadsInProgress + 1 }

def notifyTileDoneLoading (path : TilePath) (manager : TilesetContentManager) : TilesetContentManager :=
  let manager := manager.assert (0 < manager.tileLoadsInProgress)
  { manager with
    tileLoadsInProgress := manager.tileLoadsInProgress - 1
    loadedTilesCount := manager.loadedTilesCount + 1
    tilesDataUsed := manager.tilesDataUsed + (manager.tile path).content.computeByteSize }

def notifyTileUnloading (path : TilePath) (manager : TilesetContentManager) : TilesetContentManager :=
  { manager with
    tilesDataUsed := manager.tilesDataUsed - (manager.tile path).content.computeByteSize
    loadedTilesCount := manager.loadedTilesCount - 1 }

/-- Whether a tile upsamples its parent's content at the moment. -/
def isUpsampling (manager : TilesetContentManager) (path : TilePath) : Bool :=
  (manager.tile path).state = .contentLoading && (manager.tile path).id = .upsampledQuadtreeNode

/-- The end of an unloading: the content goes, and with it the reference it holds on its tile. -/
def dropContent (path : TilePath) (manager : TilesetContentManager) : TilesetContentManager :=
  ((manager.notifyTileUnloading path).setContentKind path .unknown).setState path .unloaded |>.releaseReference path

def unloadTileContent (path : TilePath) (manager : TilesetContentManager) :
    UnloadTileContentResult × TilesetContentManager :=
  let tile := manager.tile path
  if !tile.id.isLoadable then (.keep, manager)
  else if tile.state = .unloaded then (.remove, manager)
  else if tile.state = .contentLoading then (.keep, manager)
  else if tile.content = .empty then (.remove, manager.dropContent path)
  else if tile.content = .external then
    if 1 < tile.referenceCount then (.keep, manager)
    else (.removeAndClearChildren, manager.dropContent path)
  else
    -- `unloadContentLoadedState` and `unloadDoneState` free the renderer's resources
    let manager := manager.assert
      ((tile.state ≠ .contentLoaded && tile.state ≠ .done) || tile.content.isRenderContent)
    if (manager.getChildren path).any manager.isUpsampling then (.keep, manager.setState path .unloading)
    else if tile.content = .unknown then (.remove, (manager.notifyTileUnloading path).setState path .unloaded)
    else (.remove, manager.dropContent path)

/-- What `createChildTiles` makes of the tree. -/
def placeChildTiles (path : TilePath) (children : List NewTile) (manager : TilesetContentManager) :
    TilesetContentManager :=
  modifyTile path (fun tile => { tile with childCount := children.length }) { manager with
    depth := max manager.depth (path.length + 1)
    tile := fun other =>
      match other with
      | [] => manager.tile []
      | index :: parent =>
        if parent = path then (children[index]?.map NewTile.tile).getD (manager.tile (index :: parent))
        else manager.tile (index :: parent) }

/-- `createChildTiles`, which throws where there are children already. A child that holds a reference on itself
takes one on its parent in place of the one its constructor took on the manager. -/
def createChildTiles (path : TilePath) (children : List NewTile) (manager : TilesetContentManager) :
    Option TilesetContentManager :=
  if (manager.tile path).childCount ≠ 0 then none
  else
    let manager := manager.placeChildTiles path children
    some ((manager.getChildren path).foldl
      (fun manager child => if 0 < (manager.tile child).referenceCount then manager.addReference path else manager)
      manager)

/-- `loadTileContent` of a tile that needs loading, as far as the loader's own work; the continuation that is left
with the loader's future holds a reference on the tile and one on the manager. -/
def startLoading (path : TilePath) (manager : TilesetContentManager) : TilesetContentManager :=
  let manager := manager.addReference path
  let manager := { manager with referenceCount := manager.referenceCount + 1 }
  manager.notifyTileStartLoading.setState path .contentLoading

/-- `updateDoneState`, by whether an overlay lacks its projection in the tile's geometry. -/
def updateDoneState (path : TilePath) (missingProjection : Bool) (manager : TilesetContentManager) :
    TilesetContentManager :=
  if (manager.tile path).content.isRenderContent && missingProjection then (manager.unloadTileContent path).2
  else manager

/-- `finishLoading`, with the update of the tile that follows it. -/
def finishLoading (path : TilePath) (missingProjection : Bool) (manager : TilesetContentManager) :
    TilesetContentManager :=
  if (manager.tile path).content.isRenderContent && (manager.tile path).state = .contentLoaded then
    (manager.setState path .done).updateDoneState path missingProjection
  else manager

/-- `loadTileContent`. An upsampled tile has to wait until its parent is done. The tile whose load has begun, which
may be one further up, is the first component. -/
def loadTileContent (missingProjection : TilePath → Bool) :
    TilePath → TilesetContentManager → Option TilePath × TilesetContentManager
  | [], manager =>
    if !(manager.tile []).needsLoading || (manager.tile []).id = .upsampledQuadtreeNode then (none, manager)
    else (some [], manager.startLoading [])
  | index :: parent, manager =>
    if !(manager.tile (index :: parent)).needsLoading then (none, manager)
    else if (manager.tile (index :: parent)).id = .upsampledQuadtreeNode && (manager.tile parent).state ≠ .done then
      let (begun, manager) := loadTileContent missingProjection parent manager
      (begun, manager.finishLoading parent (missingProjection parent))
    else (some (index :: parent), manager.startLoading (index :: parent))

def setTileContent (path : TilePath) (result : TileLoadResult) (manager : TilesetContentManager) :
    TilesetContentManager :=
  match result with
  | .failed => manager.setState path .failed
  | .retryLater => manager.setState path .failedTemporarily
  | .success content _ children =>
    let manager := manager.assert ((manager.tile path).content = .unknown)
    let manager := manager.setContentKind path content
    let manager := if (manager.tile path).hasReferencingContent then manager.addReference path else manager
    if children = [] then manager.setState path .contentLoaded
    else
      match manager.createChildTiles path children with
      | some manager => manager.setState path .contentLoaded
      -- the exception ends in `catchInMainThread`
      | none => manager.setState path .failed

/-- The continuations of a load in the main thread, and the end of what they hold. -/
def doneLoading (path : TilePath) (result : TileLoadResult) (manager : TilesetContentManager) :
    TilesetContentManager :=
  let manager := ((manager.setTileContent path result).notifyTileDoneLoading path).releaseReference path
  { manager with referenceCount := manager.referenceCount - 1 }

/-- `updateContentLoadedState`, with `mainThreadLoadingTimeLimit` not above zero or above. -/
def updateContentLoadedState (path : TilePath) (unthrottled missingProjection : Bool)
    (manager : TilesetContentManager) : TilesetContentManager :=
  match (manager.tile path).content with
  | .external => manager.setState path .done
  | .render _ => if unthrottled then manager.finishLoading path missingProjection else manager
  | .empty => manager.setState path .done
  | .unknown => manager

/-- `updateTileContent`, but for the creation of children. -/
def updateTileContent (path : TilePath) (unthrottled missingProjection : Bool) (manager : TilesetContentManager) :
    TilesetContentManager :=
  let manager :=
    if (manager.tile path).state = .unloading then (manager.unloadTileContent path).2 else manager
  let manager :=
    if (manager.tile path).state = .contentLoaded then
      manager.updateContentLoadedState path unthrottled missingProjection
    else manager
  if (manager.tile path).state = .done then manager.updateDoneState path missingProjection else manager

/-- The assertions that `clearChildrenRecursively` makes of each child, which it then takes from the list. -/
def forgetChild (child : TilePath) (manager : TilesetContentManager) : TilesetContentManager :=
  let tile := manager.tile child
  let manager := manager.assert (tile.referenceCount = 0 && !tile.hasReferencingContent)
  { manager with
    clearedUnloaded := manager.clearedUnloaded && (!tile.id.isLoadable || tile.state = .unloaded)
    tilesEligibleForContentUnloading := manager.tilesEligibleForContentUnloading.erase child }

def clearChildren (path : TilePath) (manager : TilesetContentManager) : TilesetContentManager :=
  (manager.assert (manager.referencedChildren path = 0)).modifyTile path fun tile => { tile with childCount := 0 }

/-- `clearChildrenRecursively`, for trees of a depth below the fuel. -/
def clearChildrenRecursively : Nat → TilePath → TilesetContentManager → TilesetContentManager
  | 0, _, manager => manager
  | fuel + 1, path, manager =>
    ((manager.getChildren path).foldl
      (fun manager child => clearChildrenRecursively fuel child (manager.forgetChild child)) manager).clearChildren path

/-- The element after one in the list. -/
def next (manager : TilesetContentManager) (path : TilePath) : Option TilePath :=
  (manager.tilesEligibleForContentUnloading.dropWhile (· ≠ path)).tail.head?

/-- The body of the loop of `unloadCachedBytes`: the tile to go on with, the tiles whose children are to be cleared
and the manager after it. -/
def unloadNext (path : TilePath) (cleared : List TilePath) (manager : TilesetContentManager) :
    Option TilePath × List TilePath × TilesetContentManager :=
  let pNext := manager.next path
  let (removed, manager) := manager.unloadTileContent path
  (pNext, if removed = .removeAndClearChildren then cleared ++ [path] else cleared,
    if removed = .keep then manager else manager.markTileIneligibleForContentUnloading path)

/-- The loop of `unloadCachedBytes`; the fuel is the number of tiles that the time budget is enough for. -/
def unloadLoop (maximumCachedBytes : Int) :
    Nat → Option TilePath → List TilePath → TilesetContentManager → List TilePath × TilesetContentManager
  | 0, _, cleared, manager => (cleared, manager)
  | _ + 1, none, cleared, manager => (cleared, manager)
  | budget + 1, some path, cleared, manager =>
    if maximumCachedBytes < manager.tilesDataUsed then
      let (pNext, cleared, manager) := manager.unloadNext path cleared
      unloadLoop maximumCachedBytes budget pNext cleared manager
    else (cleared, manager)

def unloadCachedBytes (maximumCachedBytes : Int) (budget : Nat) (manager : TilesetContentManager) :
    TilesetContentManager :=
  let (cleared, manager) := unloadLoop maximumCachedBytes budget manager.tilesEligibleForContentUnloading.head? []
    manager
  cleared.foldl
    (fun manager path =>
      (manager.assert (manager.isInTree path && (manager.tile path).referenceCount = 0)).clearChildrenRecursively
        (manager.depth + 1) path)
    manager

end TilesetContentManager

end QtCesium.TileCache
