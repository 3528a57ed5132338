import QtCesium.LoaderChain

/-! `TilesetContentManager` as far as the start of a tileset uses it: what it keeps of a loader's result,
its count of loads, and the promise behind the root-tile-available event. -/

namespace QtCesium

open Decimal

structure TilesetLoadFailureDetails where
  statusCode : UInt16
  message : Bytes

/-- `_rootTileAvailablePromise`. -/
inductive RootTileAvailable where
  | pending
  | resolved
  | rejected (exn : Bytes)
  deriving DecidableEq

structure TilesetContentManager where
  requestHeaders : List Header
  pLoader : Option TilesetContentLoader
  pRootTile : Option Tile
  tilesetCredits : List LoaderCreditResult
  tileLoadsInProgress : Int
  loadedTilesCount : Int
  rootTileAvailable : RootTileAvailable

namespace TilesetContentManager

def new : TilesetContentManager := ⟨[], none, none, [], 0, 0, .pending⟩

def notifyTileStartLoading (manager : TilesetContentManager) : TilesetContentManager :=
  { manager with tileLoadsInProgress := manager.tileLoadsInProgress + 1 }

def notifyTileDoneLoading (manager : TilesetContentManager) : TilesetContentManager :=
  { manager with
    tileLoadsInProgress := manager.tileLoadsInProgress - 1
    loadedTilesCount := manager.loadedTilesCount + 1 }

/-- The details are what `loadErrorCallback` is called with, before the function returns. -/
def propagateTilesetContentLoaderResult (manager : TilesetContentManager)
    (result : TilesetContentLoaderResult) :
    Option TilesetLoadFailureDetails × TilesetContentManager :=
  if result.errors.hasErrors then
    (some ⟨result.statusCode, joinToString result.errors.errors (text "\n- ")⟩, manager)
  else
    (none, { manager with
      tilesetCredits := manager.tilesetCredits ++ result.credits
      requestHeaders := result.requestHeaders
      pLoader := result.pLoader
      pRootTile := result.pRootTile })

def resolveRootTileAvailable (manager : TilesetContentManager) : TilesetContentManager :=
  { manager with rootTileAvailable := .resolved }

def rejectRootTileAvailable (manager : TilesetContentManager) (exn : Bytes) : TilesetContentManager :=
  { manager with rootTileAvailable := .rejected exn }

end TilesetContentManager

/-- `CesiumIonTilesetContentLoaderFactory`. -/
structure CesiumIonTilesetContentLoaderFactory where
  ionAssetID : UInt32
  ionAccessToken : Bytes
  ionAssetEndpointUrl : Bytes
  deriving DecidableEq

namespace CesiumIonTilesetContentLoaderFactory

def isValid (factory : CesiumIonTilesetContentLoaderFactory) : Bool := factory.ionAssetID > 0

/-- The URL of the endpoint request for an asset. -/
def endpointUrl (ionAssetEndpointUrl : Bytes) (ionAssetID : Nat) (ionAccessToken : Bytes) : Bytes :=
  ionAssetEndpointUrl ++ text "v1/assets/" ++ decimal ionAssetID ++ text "/endpoint?access_token=" ++
    ionAccessToken

/-- Different assets have different endpoints. -/
theorem endpointUrl_injective {ionAssetEndpointUrl ionAccessToken : Bytes} {left right : Nat}
    (h : endpointUrl ionAssetEndpointUrl left ionAccessToken =
      endpointUrl ionAssetEndpointUrl right ionAccessToken) : left = right := by
  have hnumber := List.append_cancel_right (List.append_cancel_right h)
  exact decimal_injective (List.append_cancel_left hnumber)

/-- The arguments of the `CesiumIonTilesetLoader::createLoader` that takes a URL. Nothing sets
`showCreditsOnScreen`. -/
def ionLoad (factory : CesiumIonTilesetContentLoaderFactory) : IonLoad where
  url := endpointUrl factory.ionAssetEndpointUrl factory.ionAssetID.toNat factory.ionAccessToken
  ionAccessToken := factory.ionAccessToken
  needsAuthHeader := false
  showCreditsOnScreen := false

/-- `createLoader`: the ion loader's future on the thread that creates it, with the conversion of its
result attached. -/
def createLoader (readers : Readers) (factory : CesiumIonTilesetContentLoaderFactory)
    (cache : EndpointCache) : Futures.Pending Load .result :=
  match createIonLoader readers factory.ionLoad cache with
  | .settled outcome => .settled outcome
  | .get request rest => .get request (rest.append (.cons LoadContinuation.convertResult .nil))

end CesiumIonTilesetContentLoaderFactory

end QtCesium
