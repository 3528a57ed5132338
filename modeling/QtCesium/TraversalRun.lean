import QtCesium.TraversalLookup
import QtCesium.LibraryRun

/-! Clients of `TreeTraversalState`: whatever a client does between the begin and the end of each node, every
lookup it makes, in every traversal, is the one of the whole record of the traversal before. -/

namespace QtCesium.TreeTraversalState

variable {N S : Type} [DecidableEq N]
  {t : TreeTraversalState N S} {before : List (TraversalData N S)} {pNode : N} {state : S}
  {below : Forest (N × S)} {previous : Int} {parents : List TraversalIndices}

/-- What a client does during a traversal. -/
inductive Call (N S : Type) where
  | beginNode (pNode : N)
  | finishNode (pNode : N)
  | setCurrentState (state : S)
  | forEachCurrentDescendant (callback : S → S)

/-- The calls of a client that traverses a level below an open node, and may change the state of that node
and of what it has traversed below it at any time. -/
inductive Traverses : Forest N → List (Call N S) → Prop where
  | done : Traverses .nil []
  | visit {pNode : N} {children siblings : Forest N} {inner later : List (Call N S)}
      (hchildren : Traverses children inner) (hsiblings : Traverses siblings later) :
      Traverses (.cons pNode children siblings)
        (.beginNode pNode :: (inner ++ .finishNode pNode :: later))
  | set {level : Forest N} {later : List (Call N S)} (state : S) (hlater : Traverses level later) :
      Traverses level (.setCurrentState state :: later)
  | each {level : Forest N} {later : List (Call N S)} (callback : S → S) (hlater : Traverses level later) :
      Traverses level (.forEachCurrentDescendant callback :: later)

/-- The current node is looked up rightly: the quick answers of the class are the ones that the whole record of
the previous traversal gives, and the record is of the earlier tree. -/
def LooksUp (earlier : Forest N) (t : TreeTraversalState N S) : Prop :=
  ∃ recorded, nodes recorded = earlier ∧ t.previousTraversal = record 0 recorded ∧
    ∀ pNode, t.getCurrentNode = some pNode →
      t.previousState = t.slowlyGetPreviousStates pNode ∧
        t.previousChildren = ((seenIn recorded pNode).elim [] fun found => found.2.roots) ∧
        t.previousDescendants = ((seenIn recorded pNode).elim [] fun found => found.2.preorder)

/-- An open node with what was recorded of it. -/
structure Standing (recorded : Forest (N × S)) (t : TreeTraversalState N S) (before : List (TraversalData N S))
    (pNode : N) (state : S) (below : Forest (N × S)) (previous : Int) (parents : List TraversalIndices) : Prop where
  current : Current t before pNode state below previous parents
  traversal : t.previousTraversal = record 0 recorded
  seen : Seen t (seenIn recorded pNode)

theorem Standing.looksUp {recorded : Forest (N × S)} (hnodup : (recorded.keys Prod.fst).Nodup)
    (h : Standing recorded t before pNode state below previous parents) : LooksUp (nodes recorded) t := by
  refine ⟨recorded, rfl, h.traversal, fun node hnode => ?_⟩
  rw [h.current.getCurrentNode_eq] at hnode
  cases hnode
  have hslow : t.slowlyGetPreviousStates pNode = (seenIn recorded pNode).map Prod.fst := by
    rw [slowlyGetPreviousStates, h.traversal, slowlyGetStates_record 0 recorded hnodup]
  exact ⟨h.seen.previousState_eq.trans hslow.symm, h.seen.previousChildren_eq, h.seen.previousDescendants_eq⟩

/-- The calls between the begin and the end of a node leave a finished subtree with its parent. -/
theorem Standing.finishNode {recorded : Forest (N × S)} {inner : TreeTraversalState N S} {child : N} {childState : S}
    {total : Forest (N × S)} {childPrevious : Int}
    (h : Standing recorded t before pNode state below previous parents)
    (hinner : Standing recorded inner t.currentTraversal child childState total childPrevious t.parentIndices) :
    Standing recorded inner.finishNode before pNode state
      (below.append (.cons (child, childState) total .nil)) previous parents := by
  obtain ⟨htraversal, hindices⟩ := hinner.current.finishNode
  have hsame : inner.finishNode.previousTraversal = t.previousTraversal := by
    rw [finishNode_previousTraversal, hinner.traversal, h.traversal]
  exact ⟨h.current.traversed ⟨htraversal, hindices, hsame⟩, hsame.trans h.traversal, h.seen.congr hsame hindices⟩

theorem Standing.setCurrentState {recorded : Forest (N × S)} (later : S)
    (h : Standing recorded t before pNode state below previous parents) :
    Standing recorded (t.setCurrentState later) before pNode later below previous parents :=
  ⟨h.current.setCurrentState later, h.traversal, h.seen.congr rfl rfl⟩

theorem Standing.forEachCurrentDescendant {recorded : Forest (N × S)} (callback : S → S)
    (h : Standing recorded t before pNode state below previous parents) :
    Standing recorded (t.forEachCurrentDescendant callback) before pNode state
      (below.map fun label => (label.1, callback label.2)) previous parents := by
  obtain ⟨hprevious, hindices, _⟩ := forEachCurrentDescendant_frame t callback
  exact ⟨h.current.forEachCurrentDescendant callback, hprevious.trans h.traversal, h.seen.congr hprevious hindices⟩

theorem Standing.parentIndices_ne_nil {recorded : Forest (N × S)}
    (h : Standing recorded t before pNode state below previous parents) : t.parentIndices ≠ [] := by
  rw [h.current.indices]
  exact List.cons_ne_nil _ _

/-- No node is open, and the current traversal is the record of a tree. -/
structure Finished (tree : Forest N) (t : TreeTraversalState N S) : Prop where
  indices : t.parentIndices = []
  record : ∃ recorded, nodes recorded = tree ∧ t.currentTraversal = record 0 recorded

theorem looksUp_of_no_node {recorded : Forest (N × S)} (htraversal : t.previousTraversal = record 0 recorded)
    (hindices : t.parentIndices = []) : LooksUp (nodes recorded) t := by
  have hnone : t.getCurrentNode = none := by
    rw [getCurrentNode, currentData, currentDataIndex, hindices]
    rfl
  refine ⟨recorded, rfl, htraversal, fun pNode hnode => ?_⟩
  rw [hnone] at hnode
  cases hnode

variable [Inhabited S]

/-- One call, where its assertions hold. -/
def call (t : TreeTraversalState N S) : Call N S → Option (TreeTraversalState N S)
  | .beginNode pNode => some (t.beginNode pNode)
  | .finishNode pNode => if t.getCurrentNode = some pNode then some t.finishNode else none
  | .setCurrentState state => if t.parentIndices = [] then none else some (t.setCurrentState state)
  | .forEachCurrentDescendant callback =>
    if t.parentIndices = [] then none else some (t.forEachCurrentDescendant callback)

theorem call_beginNode (t : TreeTraversalState N S) (pNode : N) : call t (.beginNode pNode) = some (t.beginNode pNode) :=
  rfl

theorem Standing.beginNode {recorded : Forest (N × S)} (t : TreeTraversalState N S)
    (hrecorded : t.previousTraversal = record 0 recorded) (hseen : Seen (t.beginNode pNode) (seenIn recorded pNode)) :
    ∃ previous, Standing recorded (t.beginNode pNode) t.currentTraversal pNode default .nil previous
      t.parentIndices := by
  obtain ⟨previous, hcurrent⟩ := beginNode_current t pNode
  exact ⟨previous, hcurrent, (beginNode_previousTraversal t pNode).trans hrecorded, hseen⟩

/-- From an open node, the calls of a client run to the end of the level, with every lookup right. -/
structure Completes (recorded : Forest (N × S)) (t : TreeTraversalState N S) (calls : List (Call N S))
    (before : List (TraversalData N S)) (pNode : N) (below : Forest N) (previous : Int)
    (parents : List TraversalIndices) (stop : Int) (after : TreeTraversalState N S) : Prop where
  run : Run.run call t calls = some after
  standing : ∃ state total, nodes total = below ∧ Standing recorded after before pNode state total previous parents
  next : after.previousTraversalNextNodeIndex = stop
  looksUp : Run.Throughout call (LooksUp (nodes recorded)) t calls

/-- Whatever a client does with the states, its lookups are right and it gets to the end of the level. The
induction is on the level; the index into the previous traversal is what carries it from node to node. -/
theorem Traverses.completes {recorded : Forest (N × S)} (hnodup : (recorded.keys Prod.fst).Nodup) {level : Forest N}
    {calls : List (Call N S)} (h : Traverses level calls) :
    ∀ {t : TreeTraversalState N S} {before : List (TraversalData N S)} {pNode : N} {state : S}
      {below : Forest (N × S)} {previous : Int} {parents : List TraversalIndices} {stop : Int},
      Standing recorded t before pNode state below previous parents → Expects recorded t level stop →
      ∃ after, Completes recorded t calls before pNode ((nodes below).append level) previous parents stop after := by
  induction h with
  | done =>
      intro t before pNode state below previous parents stop hstanding hexpects
      refine ⟨t, rfl, ⟨state, below, (Forest.append_nil _).symm, hstanding⟩, hexpects.stop_of_nil.symm, ?_⟩
      exact Run.throughout_nil.mpr (hstanding.looksUp hnodup)
  | @visit child children siblings inner later _ _ ihChildren ihSiblings =>
      intro t before pNode state below previous parents stop hstanding hexpects
      obtain ⟨hseen, middle, hinner, hrest⟩ := hexpects.beginNode hstanding.traversal hnodup
      obtain ⟨childPrevious, hbegun⟩ := Standing.beginNode t hstanding.traversal hseen
      obtain ⟨bottom, hbottom⟩ := ihChildren hbegun hinner
      obtain ⟨childState, total, htotal, hopen⟩ := hbottom.standing
      have hsame : bottom.previousTraversal = t.previousTraversal := hopen.traversal.trans hstanding.traversal.symm
      have hindices : bottom.parentIndices = (t.beginNode child).parentIndices := by
        rw [hopen.current.indices, hbegun.current.indices]
      have hclosed := hstanding.finishNode hopen
      obtain ⟨after, hafter⟩ := ihSiblings hclosed (hrest bottom hsame hindices (.inl hbottom.next))
      have hfinish : call bottom (.finishNode child) = some bottom.finishNode :=
        if_pos hopen.current.getCurrentNode_eq
      have hlater : Run.Throughout call (LooksUp (nodes recorded)) bottom (.finishNode child :: later) := by
        refine Run.throughout_cons.mpr ⟨hopen.looksUp hnodup, fun next hnext => ?_⟩
        rw [hfinish] at hnext
        cases hnext
        exact hafter.looksUp
      refine ⟨after, ?_, ?_, hafter.next, ?_⟩
      · refine Run.run_cons.mpr ⟨t.beginNode child, rfl, ?_⟩
        rw [Run.run_append hbottom.run]
        exact Run.run_cons.mpr ⟨bottom.finishNode, hfinish, hafter.run⟩
      · have htree : (nodes (below.append (.cons (child, childState) total .nil))).append siblings =
            (nodes below).append (.cons child children siblings) := by
          rw [nodes_append, Forest.append_assoc]
          change (nodes below).append (.cons child (nodes total) siblings) = _
          rw [htotal]
          rfl
        rw [← htree]
        exact hafter.standing
      · refine Run.throughout_cons.mpr ⟨hstanding.looksUp hnodup, fun next hnext => ?_⟩
        rw [call_beginNode] at hnext
        cases hnext
        exact Run.throughout_append hbottom.run hbottom.looksUp hlater
  | set later _ ih =>
      intro t before pNode state below previous parents stop hstanding hexpects
      obtain ⟨after, hafter⟩ := ih (hstanding.setCurrentState later) (hexpects.congr rfl rfl)
      have hset : call t (.setCurrentState later) = some (t.setCurrentState later) :=
        if_neg hstanding.parentIndices_ne_nil
      refine ⟨after, Run.run_cons.mpr ⟨_, hset, hafter.run⟩, hafter.standing, hafter.next, ?_⟩
      refine Run.throughout_cons.mpr ⟨hstanding.looksUp hnodup, fun next hnext => ?_⟩
      rw [hset] at hnext
      cases hnext
      exact hafter.looksUp
  | each callback _ ih =>
      intro t before pNode state below previous parents stop hstanding hexpects
      obtain ⟨hprevious, _, hnext⟩ := forEachCurrentDescendant_frame t callback
      obtain ⟨after, hafter⟩ := ih (hstanding.forEachCurrentDescendant callback) (hexpects.congr hprevious hnext)
      rw [nodes_map] at hafter
      have heach : call t (.forEachCurrentDescendant callback) = some (t.forEachCurrentDescendant callback) :=
        if_neg hstanding.parentIndices_ne_nil
      refine ⟨after, Run.run_cons.mpr ⟨_, heach, hafter.run⟩, hafter.standing, hafter.next, ?_⟩
      refine Run.throughout_cons.mpr ⟨hstanding.looksUp hnodup, fun next hstep => ?_⟩
      rw [heach] at hstep
      cases hstep
      exact hafter.looksUp

/-- A traversal of a whole tree, from its root. -/
structure Traversal (N S : Type) where
  root : N
  children : Forest N
  calls : List (Call N S)
  traverses : Traverses children calls

namespace Traversal

def tree (traversal : Traversal N S) : Forest N := .cons traversal.root traversal.children .nil

def allCalls (traversal : Traversal N S) : List (Call N S) :=
  .beginNode traversal.root :: (traversal.calls ++ [.finishNode traversal.root])

end Traversal

def traverse (t : TreeTraversalState N S) (traversal : Traversal N S) : Option (TreeTraversalState N S) :=
  Run.run call t.beginTraversal traversal.allCalls

/-- A traversal that meets the assumptions runs to its end with every lookup right, and leaves a record of its
own tree for the next. -/
theorem traverse_finished {earlier : Forest N} {traversal : Traversal N S} (hfinished : Finished earlier t)
    (hfollows : Follows earlier traversal.tree) :
    ∃ after, traverse t traversal = some after ∧ Finished traversal.tree after ∧
      Run.Throughout call (LooksUp earlier) t.beginTraversal traversal.allCalls := by
  obtain ⟨hindices, recorded, rfl, hrecord⟩ := hfinished
  obtain ⟨hnodup, haligned⟩ := hfollows
  rw [preorder_nodes] at hnodup
  have hprevious : t.beginTraversal.previousTraversal = record 0 recorded := hrecord
  have hexpects : ∃ stop, Expects recorded t.beginTraversal traversal.tree stop := by
    rcases haligned with hfresh | haligned
    · exact ⟨_, .fresh hfresh⟩
    · refine ⟨_, .aligned [] [] recorded (fun label below hnode => hnode) ?_ rfl haligned⟩
      rw [List.append_nil, List.nil_append]
      exact hprevious
  obtain ⟨stop, hexpects⟩ := hexpects
  obtain ⟨hseen, middle, hinner, _⟩ := hexpects.beginNode hprevious hnodup
  obtain ⟨previous, hbegun⟩ := Standing.beginNode t.beginTraversal hprevious hseen
  obtain ⟨bottom, hbottom⟩ := traversal.traverses.completes hnodup hbegun hinner
  obtain ⟨state, total, htotal, hopen⟩ := hbottom.standing
  obtain ⟨htraversal, hparents⟩ := hopen.current.finishNode
  have hfinish : call bottom (.finishNode traversal.root) = some bottom.finishNode :=
    if_pos hopen.current.getCurrentNode_eq
  have hclosed : LooksUp (nodes recorded) bottom.finishNode :=
    looksUp_of_no_node hopen.traversal (hparents.trans hindices)
  have hend : Run.Throughout call (LooksUp (nodes recorded)) bottom [.finishNode traversal.root] := by
    refine Run.throughout_cons.mpr ⟨hopen.looksUp hnodup, fun next hnext => ?_⟩
    rw [hfinish] at hnext
    cases hnext
    exact Run.throughout_nil.mpr hclosed
  refine ⟨bottom.finishNode, ?_, ⟨hparents.trans hindices, _, ?_, htraversal⟩, ?_⟩
  · refine Run.run_cons.mpr ⟨_, call_beginNode _ _, ?_⟩
    rw [Run.run_append hbottom.run]
    exact Run.run_cons.mpr ⟨_, hfinish, rfl⟩
  · change Forest.cons traversal.root (nodes total) .nil = traversal.tree
    rw [htotal]
    rfl
  · refine Run.throughout_cons.mpr ⟨looksUp_of_no_node hprevious hindices, fun next hnext => ?_⟩
    rw [call_beginNode] at hnext
    cases hnext
    exact Run.throughout_append hbottom.run hbottom.looksUp hend

/-- What every traversal of a sequence finds: the record that the last one left, and right lookups in it. -/
def AllLookUp (t : TreeTraversalState N S) (traversals : List (Traversal N S)) : Prop :=
  Run.Along traverse (fun state traversal => ∃ earlier, Finished earlier state ∧
    Run.Throughout call (LooksUp earlier) state.beginTraversal traversal.allCalls) t traversals

theorem allLookUp_of_finished {earlier : Forest N} {traversals : List (Traversal N S)}
    (hchain : (earlier :: traversals.map Traversal.tree).IsChain Follows) (hfinished : Finished earlier t) :
    (Run.run traverse t traversals).isSome ∧ AllLookUp t traversals := by
  induction traversals generalizing t earlier with
  | nil => exact ⟨rfl, trivial⟩
  | cons traversal rest ih =>
      obtain ⟨hfollows, hrest⟩ := List.isChain_cons_cons.mp hchain
      obtain ⟨after, hrun, hafter, hlooks⟩ := traverse_finished hfinished hfollows
      obtain ⟨hsome, hlater⟩ := ih hrest hafter
      refine ⟨?_, ⟨earlier, hfinished, hlooks⟩, fun next hnext => ?_⟩
      · rw [Run.run, hrun]
        exact hsome
      · rw [hrun] at hnext
        cases hnext
        exact hlater

end QtCesium.TreeTraversalState
