import QtCesium.LibraryForest

/-! `TreeTraversalState`: the states that one partial depth-first traversal leaves with the nodes of a tree,
kept in one vector with skip links, and looked up by the next traversal without a search. -/

namespace QtCesium

structure TraversalData (N S : Type) where
  pNode : N
  nextSiblingIndex : Int
  state : S
  deriving DecidableEq

structure TraversalIndices where
  previous : Int
  current : Int
  deriving DecidableEq

/-- `parentIndices` has the back of the vector first. -/
structure TreeTraversalState (N S : Type) where
  previousTraversal : List (TraversalData N S)
  currentTraversal : List (TraversalData N S)
  parentIndices : List TraversalIndices
  previousTraversalNextNodeIndex : Int
  deriving DecidableEq

namespace TreeTraversalState

variable {N S : Type}

def new : TreeTraversalState N S := ⟨[], [], [], 0⟩

/-- An entry of a traversal, by an index that is `-1` for no entry. -/
def entry (traversal : List (TraversalData N S)) (index : Int) : Option (TraversalData N S) :=
  if 0 ≤ index then traversal[index.toNat]? else none

def getNodeCountInPreviousTraversal (t : TreeTraversalState N S) : Nat := t.previousTraversal.length

def getNodeCountInCurrentTraversal (t : TreeTraversalState N S) : Nat := t.currentTraversal.length

def beginTraversal (t : TreeTraversalState N S) : TreeTraversalState N S :=
  { t with
    previousTraversal := t.currentTraversal
    currentTraversal := []
    previousTraversalNextNodeIndex := 0 }

/-- Whether the next node of the previous traversal is this one. -/
def expects [DecidableEq N] (t : TreeTraversalState N S) (pNode : N) : Bool :=
  (entry t.previousTraversal t.previousTraversalNextNodeIndex).any fun data => data.pNode = pNode

def beginNode [DecidableEq N] [Inhabited S] (t : TreeTraversalState N S) (pNode : N) :
    TreeTraversalState N S :=
  let currentTraversalIndex : Int := t.currentTraversal.length
  if t.expects pNode then
    { t with
      previousTraversalNextNodeIndex := t.previousTraversalNextNodeIndex + 1
      parentIndices := ⟨t.previousTraversalNextNodeIndex, currentTraversalIndex⟩ :: t.parentIndices
      currentTraversal := t.currentTraversal ++ [⟨pNode, -1, default⟩] }
  else
    { t with
      parentIndices := ⟨-1, currentTraversalIndex⟩ :: t.parentIndices
      currentTraversal := t.currentTraversal ++ [⟨pNode, -1, default⟩] }

def previousDataIndex (t : TreeTraversalState N S) : Int :=
  match t.parentIndices with
  | [] => -1
  | indices :: _ => indices.previous

def currentDataIndex (t : TreeTraversalState N S) : Int :=
  match t.parentIndices with
  | [] => -1
  | indices :: _ => indices.current

def previousData (t : TreeTraversalState N S) : Option (TraversalData N S) :=
  entry t.previousTraversal t.previousDataIndex

def currentData (t : TreeTraversalState N S) : Option (TraversalData N S) :=
  entry t.currentTraversal t.currentDataIndex

def getCurrentNode (t : TreeTraversalState N S) : Option N := t.currentData.map TraversalData.pNode

def previousState (t : TreeTraversalState N S) : Option S := t.previousData.map TraversalData.state

def currentState (t : TreeTraversalState N S) : Option S := t.currentData.map TraversalData.state

/-- A change of the entry that `currentData` refers to. -/
def modifyCurrentData (t : TreeTraversalState N S) (f : TraversalData N S → TraversalData N S) :
    TreeTraversalState N S :=
  { t with currentTraversal := t.currentTraversal.modify t.currentDataIndex.toNat f }

/-- An assignment to what `currentState` refers to. -/
def setCurrentState (t : TreeTraversalState N S) (state : S) : TreeTraversalState N S :=
  t.modifyCurrentData fun data => { data with state }

def finishNode (t : TreeTraversalState N S) : TreeTraversalState N S :=
  let closed := t.modifyCurrentData fun data => { data with nextSiblingIndex := t.currentTraversal.length }
  { closed with
    previousTraversalNextNodeIndex :=
      match t.previousData with
      | some data => data.nextSiblingIndex
      | none => t.previousTraversalNextNodeIndex
    parentIndices := t.parentIndices.tail }

/-- The loop of `forEachPreviousChild`: from entry `i` on, by the skip links, up to entry `limit`. -/
def siblingsFrom (traversal : List (TraversalData N S)) (limit : Int) : Nat → Int → List (N × S)
  | 0, _ => []
  | fuel + 1, i =>
    if i < limit then
      match entry traversal i with
      | some data => (data.pNode, data.state) :: siblingsFrom traversal limit fuel data.nextSiblingIndex
      | none => []
    else []

/-- What `forEachPreviousChild` calls its callback with, in order. -/
def previousChildren (t : TreeTraversalState N S) : List (N × S) :=
  match t.previousData with
  | none => []
  | some parent =>
    siblingsFrom t.previousTraversal parent.nextSiblingIndex t.previousTraversal.length (t.previousDataIndex + 1)

/-- What `forEachPreviousDescendant` calls its callback with, in order. -/
def previousDescendants (t : TreeTraversalState N S) : List (N × S) :=
  match t.previousData with
  | none => []
  | some parent =>
    let first := (t.previousDataIndex + 1).toNat
    ((t.previousTraversal.take parent.nextSiblingIndex.toNat).drop first).map fun data => (data.pNode, data.state)

/-- `forEachCurrentDescendant`, with a callback that may change the state it is given. -/
def forEachCurrentDescendant (t : TreeTraversalState N S) (callback : S → S) : TreeTraversalState N S :=
  match t.currentData with
  | none => t
  | some parent =>
    let first := (t.currentDataIndex + 1).toNat
    let endIndex :=
      if 0 ≤ parent.nextSiblingIndex then parent.nextSiblingIndex.toNat else t.currentTraversal.length
    { t with
      currentTraversal := t.currentTraversal.take first ++
        ((t.currentTraversal.take endIndex).drop first).map (fun data => { data with state := callback data.state }) ++
        t.currentTraversal.drop endIndex }

/-- `slowlyGetStates`: the state that the last entry for a node has. -/
def slowlyGetStates [DecidableEq N] (traversal : List (TraversalData N S)) (pNode : N) : Option S :=
  traversal.foldl (fun result data => if data.pNode = pNode then some data.state else result) none

def slowlyGetCurrentStates [DecidableEq N] (t : TreeTraversalState N S) : N → Option S :=
  slowlyGetStates t.currentTraversal

def slowlyGetPreviousStates [DecidableEq N] (t : TreeTraversalState N S) : N → Option S :=
  slowlyGetStates t.previousTraversal

/-- The entries of a finished traversal of a level, the first of them at index `base`. -/
def record (base : Nat) : Forest (N × S) → List (TraversalData N S)
  | .nil => []
  | .cons (pNode, state) children siblings =>
    ⟨pNode, (base + 1 + children.size : Nat), state⟩ ::
      (record (base + 1) children ++ record (base + 1 + children.size) siblings)

end TreeTraversalState

end QtCesium
