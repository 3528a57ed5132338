import QtCesium.LibraryFutures
import QtCesium.LibraryText
import QtCesium.LibraryDecimal
import QtCesium.LibraryRun
import QtCesium.Bytes
import QtCesium.ConfigFile
import QtCesium.ConfigGrammar
import QtCesium.AssetNumber
import QtCesium.LoaderChain
import QtCesium.ContentManager
import QtCesium.MainThread
import QtCesium.Runtime
import QtCesium.RuntimeLoad
import QtCesium.RuntimeObjects
import QtCesium.RuntimeSteps
import QtCesium.RuntimeRegistration
import QtCesium.RuntimeWrites
import QtCesium.RuntimeStatus
import QtCesium.RuntimeAsset
import QtCesium.LibraryForest
import QtCesium.TraversalState
import QtCesium.TraversalLookup
import QtCesium.TraversalRun
import QtCesium.Selection
import QtCesium.SelectionTree
import QtCesium.SelectionVisit
import QtCesium.SelectionCut
import QtCesium.SelectionFrames
import QtCesium.SelectionSettled
import QtCesium.TileCache
import QtCesium.TileReferences
import QtCesium.TileInvariant
import QtCesium.TileClearing
import QtCesium.TileEviction
import QtCesium.TileLoading
