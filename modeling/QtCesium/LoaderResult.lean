import QtCesium.Bytes
import QtCesium.LibraryDecimal

/-! What the tileset loaders pass to each other: requests and responses of the asset accessor, lists
of errors, and the results that end in a root tile. -/

namespace QtCesium

/-- `CesiumUtility::ErrorList`. -/
structure ErrorList where
  errors : List Bytes
  warnings : List Bytes
  deriving DecidableEq

namespace ErrorList

def empty : ErrorList := ⟨[], []⟩

def emplaceError (list : ErrorList) (error : Bytes) : ErrorList :=
  { list with errors := list.errors ++ [error] }

def emplaceWarning (list : ErrorList) (warning : Bytes) : ErrorList :=
  { list with warnings := list.warnings ++ [warning] }

def merge (list other : ErrorList) : ErrorList :=
  ⟨list.errors ++ other.errors, list.warnings ++ other.warnings⟩

def hasErrors (list : ErrorList) : Bool := !list.errors.isEmpty

end ErrorList

def joinToString (elements : List Bytes) (separator : Bytes) : Bytes :=
  match elements with
  | [] => []
  | first :: rest => rest.foldl (fun acc element => acc ++ separator ++ element) first

abbrev Header := Bytes × Bytes

/-- A call of `IAssetAccessor::get`. -/
structure AssetGet where
  url : Bytes
  headers : List Header
  deriving DecidableEq

structure IAssetResponse where
  statusCode : UInt16
  data : Bytes
  deriving DecidableEq

structure IAssetRequest where
  url : Bytes
  response : Option IAssetResponse
  deriving DecidableEq

/-- What the network makes of a request: an exception of the accessor, or a completed request that
may still lack a response. -/
abbrev Reply := Except Bytes (Option IAssetResponse)

def AssetGet.complete (request : AssetGet) (reply : Reply) : Except Bytes IAssetRequest :=
  reply.map fun response => ⟨request.url, response⟩

/-- `rapidjson`'s error code and byte offset. -/
structure ParseError where
  code : Nat
  offset : Nat
  deriving DecidableEq

structure LoaderCreditResult where
  creditText : Bytes
  showOnScreen : Bool
  deriving DecidableEq

structure AssetEndpointAttribution where
  html : Bytes
  collapsible : Bool
  deriving DecidableEq

structure AssetEndpoint where
  type : Bytes
  url : Bytes
  accessToken : Bytes
  attributions : List AssetEndpointAttribution
  deriving DecidableEq

/-- The members of an ion endpoint response that are read; a missing string is empty. -/
structure IonResponse where
  attributions : List AssetEndpointAttribution
  type : Bytes
  url : Bytes
  accessToken : Bytes
  externalType : Bytes
  optionsUrl : Option Bytes
  deriving DecidableEq

/-- The root tile of a tileset, with what is asked of its external content. -/
structure Tile where
  hasVoxels : Bool
  schemaUri : Option Bytes
  deriving DecidableEq

/-- The members of a `layer.json` that are read, and the errors in its rectangles of availability,
which are read when `metadataAvailability` is not a number. -/
structure LayerJson where
  projection : Option Bytes
  tiles : List Bytes
  metadataAvailability : Option Int
  availabilityErrors : ErrorList
  attribution : Bytes
  parentUrl : Bytes
  deriving DecidableEq

inductive TilesetContentLoader where
  | tilesetJson (baseUrl : Bytes)
  | layerJson
  | cesiumIon (url ionAccessToken : Bytes) (aggregatedLoader : Option TilesetContentLoader)

structure TilesetContentLoaderResult where
  pLoader : Option TilesetContentLoader
  pRootTile : Option Tile
  credits : List LoaderCreditResult
  requestHeaders : List Header
  errors : ErrorList
  statusCode : UInt16

/-- The default-constructed result with one error. -/
def TilesetContentLoaderResult.error (message : Bytes) (statusCode : UInt16) :
    TilesetContentLoaderResult :=
  ⟨none, none, [], [], ErrorList.empty.emplaceError message, statusCode⟩

inductive Projection where
  | geographic
  | webMercator
  deriving DecidableEq

/-- Tiling scheme, projection and bounding volume are set together, from the projection. -/
structure LoadLayersResult where
  projection : Option Projection
  layerCredits : List Bytes
  errors : ErrorList
  statusCode : UInt16

def LoadLayersResult.error (message : Bytes) (statusCode : UInt16) : LoadLayersResult :=
  ⟨none, [], ErrorList.empty.emplaceError message, statusCode⟩

end QtCesium
