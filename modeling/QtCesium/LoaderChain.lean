import Mathlib.Data.List.AList
import QtCesium.LibraryFutures
import QtCesium.LoaderResult

/-! The continuations that lead from the request for an ion asset's endpoint to a tileset's root tile:
`CesiumIonTilesetLoader`, `TilesetJsonLoader`, `LayerJsonTerrainLoader` and
`TilesetMetadata::loadSchemaUri`. Each lambda handed to a future is a constructor with what it
captures. -/

namespace QtCesium

open Futures Decimal

/-- The documents the loaders read, which `rapidjson` and the JSON readers turn into their members. A
document that parses is an object, as the loaders take for granted. -/
structure Readers where
  parseIonResponse : Bytes → Except ParseError IonResponse
  parseTilesetJson : Bytes → Except ParseError (Option Tile)
  parseLayerJson : Bytes → Except ParseError LayerJson
  readSchema : Bytes → Except (List Bytes) Unit
  resolve : Bytes → Bytes → Bool → Bytes

/-- `endpointCache`, by the URL of the endpoint request. -/
abbrev EndpointCache := AList fun _ : Bytes => AssetEndpoint

/-- What `CesiumIonTilesetLoader::createLoader` was called with. -/
structure IonLoad where
  url : Bytes
  ionAccessToken : Bytes
  needsAuthHeader : Bool
  showCreditsOnScreen : Bool
  deriving DecidableEq

inductive LoadTy where
  | request
  | layers
  | result
  deriving DecidableEq

abbrev LoadTy.Value : LoadTy → Type
  | .request => IAssetRequest
  | .layers => LoadLayersResult
  | .result => TilesetContentLoaderResult

inductive LoadContinuation : LoadTy → LoadTy → Type where
  | endpointResponse (load : IonLoad) : LoadContinuation .request .result
  | tilesetJsonResponse : LoadContinuation .request .result
  | schemaResponse (result : TilesetContentLoaderResult) : LoadContinuation .request .result
  | layerJsonResponse (requestHeaders : List Header) : LoadContinuation .request .layers
  | parentLayerResponse (requestHeaders : List Header) (loadLayersResult : LoadLayersResult) :
      LoadContinuation .request .layers
  | convertLayers (requestHeaders : List Header) : LoadContinuation .layers .result
  | ionResult (load : IonLoad) (credits : List LoaderCreditResult) (requestHeaders : List Header) :
      LoadContinuation .result .result
  | refreshTokenIfNeeded (load : IonLoad) : LoadContinuation .result .result
  | convertResult : LoadContinuation .result .result

abbrev Load : Language where
  Ty := LoadTy
  Value := LoadTy.Value
  Exn := Bytes
  Request := AssetGet
  response := .request
  Continuation := LoadContinuation
  State := EndpointCache

abbrev LoadFuture (a : LoadTy) := Future Load a

def resolved {a : LoadTy} (value : LoadTy.Value a) : LoadFuture a := .settled (.ok value)

def rejected {a : LoadTy} (exn : Bytes) : LoadFuture a := .settled (.error exn)

/-- Statuses outside 200 to 299; `zeroIsFine` where 0 stands for a file. -/
def isFailure (zeroIsFine : Bool) (statusCode : UInt16) : Bool :=
  !(zeroIsFine && statusCode == 0) && (statusCode < 200 || 300 ≤ statusCode)

def statusText (statusCode : UInt16) : Bytes := decimal statusCode.toNat

variable (readers : Readers)

/-! ### `TilesetJsonLoader` -/

/-- `TilesetMetadata::loadSchemaUri` once its request is complete. -/
def schemaResponse (result : TilesetContentLoaderResult) (request : IAssetRequest) : LoadFuture .result :=
  match request.response with
  | none => rejected (text "Did not receive a valid response for schema URI " ++ request.url)
  | some response =>
      if isFailure true response.statusCode then
        rejected (text "Received status code " ++ statusText response.statusCode ++
          text " for schema URI " ++ request.url ++ text ".")
      else
        match readers.readSchema response.data with
        | .error errors =>
            let joined := joinToString errors (text "\n - ")
            let suffix := if joined = [] then [] else text " Errors:\n - " ++ joined
            rejected (text "Error reading Schema from " ++ request.url ++ text "." ++ suffix)
        | .ok () => resolved result

/-- `TilesetJsonLoader::createLoader` for a parsed document. The continuation it attaches to a resolved
future runs at once, on the worker thread. -/
def createTilesetJsonLoader (tilesetJsonUrl : Bytes) (pRootTile : Option Tile) : LoadFuture .result :=
  let result : TilesetContentLoaderResult :=
    ⟨some (.tilesetJson tilesetJsonUrl), pRootTile, [], [], .empty, 200⟩
  match pRootTile with
  | none => resolved result
  | some tile =>
      if tile.hasVoxels then
        match tile.schemaUri with
        | none => resolved result
        | some schemaUri => .get ⟨schemaUri, []⟩ (.cons (LoadContinuation.schemaResponse result) .nil)
      else resolved result

def tilesetJsonResponse (request : IAssetRequest) : LoadFuture .result :=
  match request.response with
  | none =>
      resolved (.error (text "Did not receive a valid response for tile content " ++ request.url) 200)
  | some response =>
      if isFailure true response.statusCode then
        resolved (.error (text "Received status code " ++ statusText response.statusCode ++
          text " for tile content " ++ request.url) response.statusCode)
      else
        match readers.parseTilesetJson response.data with
        | .error error =>
            resolved (.error (text "Error when parsing tileset JSON, error code " ++ decimal error.code ++
              text " at byte offset " ++ decimal error.offset) 200)
        | .ok pRootTile => createTilesetJsonLoader request.url pRootTile

/-! ### `LayerJsonTerrainLoader` -/

def loadLayersRecursive (baseUrl : Bytes) (requestHeaders : List Header) (layerJson : LayerJson)
    (loadLayersResult : LoadLayersResult) : LoadFuture .layers :=
  if layerJson.tiles = [] then
    resolved { loadLayersResult with
      errors := loadLayersResult.errors.emplaceError
        (text "Layer Json does not specify any tile URL templates") }
  else
    let errors := match layerJson.metadataAvailability with
      | some _ => loadLayersResult.errors
      | none => loadLayersResult.errors.merge layerJson.availabilityErrors
    let loadLayersResult := { loadLayersResult with
      errors, layerCredits := loadLayersResult.layerCredits ++ [layerJson.attribution] }
    if layerJson.parentUrl = [] then resolved loadLayersResult
    else
      let resolvedUrl := readers.resolve baseUrl layerJson.parentUrl false
      let resolvedUrl := if resolvedUrl.getLast? = some 0x2f then resolvedUrl else resolvedUrl ++ text "/"
      .get ⟨resolvedUrl ++ text "layer.json", requestHeaders⟩
        (.cons (LoadContinuation.parentLayerResponse requestHeaders loadLayersResult) .nil)

def parentLayerResponse (requestHeaders : List Header) (loadLayersResult : LoadLayersResult)
    (request : IAssetRequest) : LoadFuture .layers :=
  let warn (message : Bytes) : LoadFuture .layers :=
    resolved { loadLayersResult with errors := loadLayersResult.errors.emplaceWarning message }
  match request.response with
  | none => warn (text "Did not receive a valid response for parent layer " ++ request.url)
  | some response =>
      if isFailure true response.statusCode then
        warn (text "Received status code " ++ statusText response.statusCode ++
          text " for parent layer " ++ request.url)
      else
        match readers.parseLayerJson response.data with
        | .error error =>
            warn (text "Error when parsing layer.json, error code " ++ decimal error.code ++
              text " at byte offset " ++ decimal error.offset)
        | .ok layerJson =>
            loadLayersRecursive readers request.url requestHeaders layerJson loadLayersResult

def loadLayerJson (baseUrl : Bytes) (requestHeaders : List Header) (data : Bytes) : LoadFuture .layers :=
  match readers.parseLayerJson data with
  | .error error =>
      resolved (.error (text "Error when parsing layer.json, error code " ++ decimal error.code ++
        text " at byte offset " ++ decimal error.offset) 200)
  | .ok layerJson =>
      let projectionString := layerJson.projection.getD (text "EPSG:4326")
      if projectionString = text "EPSG:4326" then
        loadLayersRecursive readers baseUrl requestHeaders layerJson ⟨some .geographic, [], .empty, 200⟩
      else if projectionString = text "EPSG:3857" then
        loadLayersRecursive readers baseUrl requestHeaders layerJson ⟨some .webMercator, [], .empty, 200⟩
      else
        resolved (.error (text "Tileset layer.json contained an unknown projection value: " ++
          projectionString) 200)

def layerJsonResponse (requestHeaders : List Header) (request : IAssetRequest) : LoadFuture .layers :=
  match request.response with
  | none =>
      resolved (.error (text "Did not receive a valid response for tile content " ++ request.url) 200)
  | some response =>
      if isFailure true response.statusCode then
        resolved (.error (text "Received status code " ++ statusText response.statusCode ++
          text " for tile content " ++ request.url) response.statusCode)
      else loadLayerJson readers request.url requestHeaders response.data

def convertToTilesetContentLoaderResult (requestHeaders : List Header)
    (loadLayersResult : LoadLayersResult) : TilesetContentLoaderResult :=
  if loadLayersResult.errors.hasErrors then
    ⟨none, none, [], [], loadLayersResult.errors, loadLayersResult.statusCode⟩
  else
    match loadLayersResult.projection with
    | none =>
        .error (text "Could not deduce tiling scheme, projection, or bounding volume from layer.json.") 200
    | some _ =>
        ⟨some .layerJson, some ⟨false, none⟩,
          loadLayersResult.layerCredits.map fun credit => ⟨credit, true⟩, requestHeaders,
          loadLayersResult.errors, 200⟩

/-! ### `CesiumIonTilesetLoader` -/

def endpointCredits (load : IonLoad) (endpoint : AssetEndpoint) : List LoaderCreditResult :=
  endpoint.attributions.map fun attribution =>
    ⟨attribution.html, load.showCreditsOnScreen || !attribution.collapsible⟩

def bearer (accessToken : Bytes) : Header := (text "Authorization", text "Bearer " ++ accessToken)

def endpointHeaders (endpoint : AssetEndpoint) : List Header :=
  if endpoint.accessToken = [] then [] else [bearer endpoint.accessToken]

/-- The result of the loader an endpoint names, under the ion loader that owns it. -/
def ionResult (load : IonLoad) (credits : List LoaderCreditResult) (requestHeaders : List Header)
    (loaded : TilesetContentLoaderResult) : TilesetContentLoaderResult :=
  if loaded.errors.hasErrors then ⟨none, none, [], [], loaded.errors, loaded.statusCode⟩
  else
    ⟨some (.cesiumIon load.url load.ionAccessToken loaded.pLoader), loaded.pRootTile,
      loaded.credits ++ credits, requestHeaders, loaded.errors, loaded.statusCode⟩

/-- The request for the endpoint's tileset and the continuations attached to it. -/
def mainThreadLoadTilesetJsonFromAssetEndpoint (load : IonLoad) (endpoint : AssetEndpoint) :
    AssetGet × Chain Load .request .result :=
  let requestHeaders := endpointHeaders endpoint
  (⟨endpoint.url, requestHeaders⟩,
    .cons LoadContinuation.tilesetJsonResponse
      (.cons (LoadContinuation.ionResult load (endpointCredits load endpoint) requestHeaders) .nil))

def mainThreadLoadLayerJsonFromAssetEndpoint (load : IonLoad) (endpoint : AssetEndpoint) :
    AssetGet × Chain Load .request .result :=
  let requestHeaders := endpointHeaders endpoint
  (⟨readers.resolve endpoint.url (text "layer.json") true, requestHeaders⟩,
    .cons (LoadContinuation.layerJsonResponse requestHeaders)
      (.cons (LoadContinuation.convertLayers requestHeaders)
        (.cons (LoadContinuation.ionResult load (endpointCredits load endpoint) requestHeaders) .nil)))

def waitFor (waiting : AssetGet × Chain Load .request .result) : LoadFuture .result :=
  .get waiting.1 waiting.2

def mainThreadHandleEndpointResponse (load : IonLoad) (request : IAssetRequest) (cache : EndpointCache) :
    LoadFuture .result × EndpointCache :=
  match request.response with
  | none =>
      (resolved (.error (text "No response received for asset request " ++ request.url) 200), cache)
  | some response =>
      if isFailure false response.statusCode then
        (resolved (.error (text "Received status code " ++ statusText response.statusCode ++
          text " for asset response " ++ request.url) response.statusCode), cache)
      else
        match readers.parseIonResponse response.data with
        | .error error =>
            (resolved (.error (text "Error when parsing Cesium ion response JSON, error code " ++
              decimal error.code ++ text " at byte offset " ++ decimal error.offset) 200), cache)
        | .ok ionResponse =>
            let external := ionResponse.externalType != []
            let type := if external then ionResponse.externalType else ionResponse.type
            let url := if external then ionResponse.optionsUrl.getD ionResponse.url else ionResponse.url
            if type = text "TERRAIN" then
              let endpoint := ⟨type, readers.resolve url (text "layer.json") true,
                ionResponse.accessToken, ionResponse.attributions⟩
              (waitFor (mainThreadLoadLayerJsonFromAssetEndpoint readers load endpoint),
                cache.insert request.url endpoint)
            else if type = text "3DTILES" then
              let endpoint := ⟨type, url, ionResponse.accessToken, ionResponse.attributions⟩
              (waitFor (mainThreadLoadTilesetJsonFromAssetEndpoint load endpoint),
                cache.insert request.url endpoint)
            else
              (resolved (.error (text "Received unsupported asset response type: " ++ type) 200), cache)

def createIonLoader (load : IonLoad) (cache : EndpointCache) : LoadFuture .result :=
  match cache.lookup load.url with
  | some endpoint =>
      let refresh : Chain Load .result .result := .cons (LoadContinuation.refreshTokenIfNeeded load) .nil
      if endpoint.type = text "TERRAIN" then
        let (request, chain) := mainThreadLoadLayerJsonFromAssetEndpoint readers load endpoint
        waitFor (request, chain.append refresh)
      else if endpoint.type = text "3DTILES" then
        let (request, chain) := mainThreadLoadTilesetJsonFromAssetEndpoint load endpoint
        waitFor (request, chain.append refresh)
      else
        resolved (.error (text "Received unsupported asset response type: " ++ endpoint.type) 200)
  | none =>
      let headers := if load.needsAuthHeader then [bearer load.ionAccessToken] else []
      .get ⟨load.url, headers⟩ (.cons (LoadContinuation.endpointResponse load) .nil)

def refreshTokenIfNeeded (load : IonLoad) (result : TilesetContentLoaderResult) (cache : EndpointCache) :
    LoadFuture .result × EndpointCache :=
  if result.errors.hasErrors ∧ result.statusCode = 401 then
    let cache := cache.erase load.url
    (createIonLoader readers load cache, cache)
  else (resolved result, cache)

/-- Which thread runs each continuation, and what it does there. -/
def loadBody {a b : LoadTy} : LoadContinuation a b → Body Load a b
  | .endpointResponse load => .thenInMainThread (mainThreadHandleEndpointResponse readers load)
  | .tilesetJsonResponse => .thenInWorkerThread (tilesetJsonResponse readers)
  | .schemaResponse result =>
      .thenInMainThread fun request cache => (schemaResponse readers result request, cache)
  | .layerJsonResponse headers => .thenInWorkerThread (layerJsonResponse readers headers)
  | .parentLayerResponse headers result =>
      .thenInWorkerThread (parentLayerResponse readers headers result)
  | .convertLayers headers =>
      .thenInMainThread fun layers cache =>
        (resolved (a := .result) (convertToTilesetContentLoaderResult headers layers), cache)
  | .ionResult load credits headers =>
      .thenImmediately fun loaded => resolved (a := .result) (ionResult load credits headers loaded)
  | .refreshTokenIfNeeded load => .thenInMainThread (refreshTokenIfNeeded readers load)
  | .convertResult => .thenImmediately fun result => resolved (a := .result) result

def loadSemantics : Semantics Load where
  body := loadBody readers

end QtCesium
