import QtCesium.TraversalState

/-! The skip-link vectors of `TreeTraversalState` as forests: what each call does to them, and the lookups
in the previous traversal that every traversal meeting the documented assumptions gets. -/

namespace QtCesium.TreeTraversalState

variable {N S : Type}

theorem length_record (base : Nat) (level : Forest (N × S)) : (record base level).length = level.size := by
  induction level generalizing base with
  | nil => rfl
  | cons label children siblings ihChildren ihSiblings =>
      simp only [record, List.length_cons, List.length_append, ihChildren, ihSiblings, Forest.size_cons]
      omega

theorem record_append (base : Nat) (first second : Forest (N × S)) :
    record base (first.append second) = record base first ++ record (base + first.size) second := by
  induction first generalizing base with
  | nil => rfl
  | cons label children siblings _ ihSiblings =>
      simp only [Forest.cons_append, record, ihSiblings, List.cons_append, List.append_assoc, Forest.size_cons]
      rw [show base + 1 + children.size + siblings.size = base + (1 + children.size + siblings.size) by omega]

/-- The skip links of a record tell where each subtree ends, so that the record tells the tree. -/
theorem record_injective {base : Nat} {first second : Forest (N × S)} (h : record base first = record base second) :
    first = second := by
  induction first generalizing base second with
  | nil =>
      cases second with
      | nil => rfl
      | cons label below rest => cases h
  | cons label children siblings ihChildren ihSiblings =>
      obtain ⟨pNode, state⟩ := label
      cases second with
      | nil => cases h
      | cons label' children' siblings' =>
          obtain ⟨pNode', state'⟩ := label'
          obtain ⟨hentry, hrest⟩ := List.cons.inj h
          obtain ⟨rfl, hskip, rfl⟩ := TraversalData.mk.inj hentry
          have hsize : children.size = children'.size := by omega
          rw [← hsize] at hrest
          have hlength : (record (base + 1) children).length = (record (base + 1) children').length := by
            rw [length_record, length_record, hsize]
          obtain ⟨hchildren, hsiblings⟩ := List.append_inj hrest hlength
          rw [ihChildren hchildren, ihSiblings hsiblings]

theorem record_preorder (base : Nat) (level : Forest (N × S)) :
    (record base level).map (fun data => (data.pNode, data.state)) = level.preorder := by
  induction level generalizing base with
  | nil => rfl
  | cons label children siblings ihChildren ihSiblings =>
      simp only [record, List.map_cons, List.map_append, ihChildren, ihSiblings, Forest.preorder_cons]

theorem record_map (base : Nat) (callback : S → S) (level : Forest (N × S)) :
    (record base level).map (fun data => { data with state := callback data.state }) =
      record base (level.map fun label => (label.1, callback label.2)) := by
  induction level generalizing base with
  | nil => rfl
  | cons label children siblings ihChildren ihSiblings =>
      simp only [record, List.map_cons, List.map_append, ihChildren, ihSiblings, Forest.map_cons, Forest.size_map]

theorem entry_append (earlier later : List (TraversalData N S)) (data : TraversalData N S) :
    entry (earlier ++ data :: later) earlier.length = some data := by
  simp [entry]

theorem modify_append (earlier later : List (TraversalData N S)) (data : TraversalData N S)
    (f : TraversalData N S → TraversalData N S) :
    (earlier ++ data :: later).modify earlier.length f = earlier ++ f data :: later := by
  induction earlier with
  | nil => rfl
  | cons first earlier ih => rw [List.cons_append, List.length_cons, List.modify_succ_cons, ih, List.cons_append]

/-! ### The current traversal -/

/-- The current node and its state, with what has been traversed below it; `before` is what was traversed
before it, and `parents` its open ancestors. -/
structure Current (t : TreeTraversalState N S) (before : List (TraversalData N S)) (pNode : N) (state : S)
    (below : Forest (N × S)) (previous : Int) (parents : List TraversalIndices) : Prop where
  traversal : t.currentTraversal = before ++ ⟨pNode, -1, state⟩ :: record (before.length + 1) below
  indices : t.parentIndices = ⟨previous, before.length⟩ :: parents

/-- A level of nodes has been traversed, between two states with the same open ancestors. -/
structure Traversed (t after : TreeTraversalState N S) (level : Forest (N × S)) : Prop where
  traversal : after.currentTraversal = t.currentTraversal ++ record t.currentTraversal.length level
  indices : after.parentIndices = t.parentIndices
  previous : after.previousTraversal = t.previousTraversal

theorem Traversed.refl (t : TreeTraversalState N S) : Traversed t t .nil :=
  ⟨(List.append_nil _).symm, rfl, rfl⟩

theorem Traversed.trans {t middle after : TreeTraversalState N S} {first second : Forest (N × S)}
    (hfirst : Traversed t middle first) (hsecond : Traversed middle after second) :
    Traversed t after (first.append second) where
  traversal := by
    rw [hsecond.traversal, hfirst.traversal, record_append, List.length_append, length_record, List.append_assoc]
  indices := hsecond.indices.trans hfirst.indices
  previous := hsecond.previous.trans hfirst.previous

variable {t : TreeTraversalState N S} {before : List (TraversalData N S)} {pNode : N} {state : S}
  {below : Forest (N × S)} {previous : Int} {parents : List TraversalIndices}

theorem Current.currentDataIndex_eq (h : Current t before pNode state below previous parents) :
    t.currentDataIndex = before.length := by
  rw [currentDataIndex, h.indices]

theorem Current.previousDataIndex_eq (h : Current t before pNode state below previous parents) :
    t.previousDataIndex = previous := by
  rw [previousDataIndex, h.indices]

theorem Current.currentData_eq (h : Current t before pNode state below previous parents) :
    t.currentData = some ⟨pNode, -1, state⟩ := by
  rw [currentData, h.currentDataIndex_eq, h.traversal, entry_append]

theorem Current.getCurrentNode_eq (h : Current t before pNode state below previous parents) :
    t.getCurrentNode = some pNode := by
  rw [getCurrentNode, h.currentData_eq, Option.map_some]

theorem Current.currentState_eq (h : Current t before pNode state below previous parents) :
    t.currentState = some state := by
  rw [currentState, h.currentData_eq, Option.map_some]

theorem Current.setCurrentState (h : Current t before pNode state below previous parents) (later : S) :
    Current (t.setCurrentState later) before pNode later below previous parents where
  traversal := by
    rw [TreeTraversalState.setCurrentState, modifyCurrentData, h.currentDataIndex_eq, h.traversal,
      Int.toNat_natCast, modify_append]
  indices := h.indices

theorem forEachCurrentDescendant_frame (t : TreeTraversalState N S) (callback : S → S) :
    (t.forEachCurrentDescendant callback).previousTraversal = t.previousTraversal ∧
      (t.forEachCurrentDescendant callback).parentIndices = t.parentIndices ∧
      (t.forEachCurrentDescendant callback).previousTraversalNextNodeIndex = t.previousTraversalNextNodeIndex := by
  rw [TreeTraversalState.forEachCurrentDescendant]
  split
  · exact ⟨rfl, rfl, rfl⟩
  · exact ⟨rfl, rfl, rfl⟩

/-- What was traversed below the current node goes through the callback, and nothing else does. -/
theorem Current.forEachCurrentDescendant (h : Current t before pNode state below previous parents)
    (callback : S → S) :
    Current (t.forEachCurrentDescendant callback) before pNode state
      (below.map fun label => (label.1, callback label.2)) previous parents where
  traversal := by
    have hsplit : t.currentTraversal = (before ++ [⟨pNode, -1, state⟩]) ++ record (before.length + 1) below := by
      rw [h.traversal, List.append_assoc, List.singleton_append]
    have hfirst : (t.currentDataIndex + 1).toNat = (before ++ [(⟨pNode, -1, state⟩ : TraversalData N S)]).length := by
      rw [h.currentDataIndex_eq, List.length_append, List.length_singleton]
      omega
    rw [TreeTraversalState.forEachCurrentDescendant, h.currentData_eq]
    simp only [hfirst]
    rw [if_neg (by decide), List.take_length, List.drop_length, List.append_nil]
    rw [hsplit, List.take_left, List.drop_left, record_map, List.append_assoc, List.singleton_append]
  indices := by
    rw [TreeTraversalState.forEachCurrentDescendant, h.currentData_eq]
    exact h.indices

theorem Current.traversed {after : TreeTraversalState N S} {level : Forest (N × S)}
    (h : Current t before pNode state below previous parents) (hlevel : Traversed t after level) :
    Current after before pNode state (below.append level) previous parents where
  traversal := by
    have hlength : t.currentTraversal.length = before.length + 1 + below.size := by
      rw [h.traversal, List.length_append, List.length_cons, length_record]
      omega
    rw [hlevel.traversal, hlength, h.traversal, record_append, List.append_assoc, List.cons_append]
  indices := hlevel.indices.trans h.indices

/-- Closing the current node leaves the entries of a finished subtree. -/
theorem Current.finishNode (h : Current t before pNode state below previous parents) :
    t.finishNode.currentTraversal = before ++ record before.length (.cons (pNode, state) below .nil) ∧
      t.finishNode.parentIndices = parents := by
  have hlength : t.currentTraversal.length = before.length + 1 + below.size := by
    rw [h.traversal, List.length_append, List.length_cons, length_record]
    omega
  constructor
  · change t.currentTraversal.modify t.currentDataIndex.toNat _ = _
    rw [h.currentDataIndex_eq, Int.toNat_natCast, h.traversal, modify_append, ← h.traversal, hlength]
    simp only [record, List.append_nil]
  · change t.parentIndices.tail = parents
    rw [h.indices, List.tail_cons]

/-! ### The previous traversal -/

/-- What the previous traversal recorded for the current node: its state and the level below it. -/
inductive Seen (t : TreeTraversalState N S) : Option (S × Forest (N × S)) → Prop where
  | no (hindex : t.previousDataIndex = -1) : Seen t none
  | yes (earlier later : List (TraversalData N S)) (pNode : N) (state : S) (below : Forest (N × S))
      (hindex : t.previousDataIndex = earlier.length)
      (htraversal : t.previousTraversal = earlier ++
        ⟨pNode, (earlier.length + 1 + below.size : Nat), state⟩ :: (record (earlier.length + 1) below ++ later)) :
      Seen t (some (state, below))

theorem Seen.congr {t after : TreeTraversalState N S} {seen : Option (S × Forest (N × S))} (h : Seen t seen)
    (htraversal : after.previousTraversal = t.previousTraversal) (hindices : after.parentIndices = t.parentIndices) :
    Seen after seen := by
  have hindex : after.previousDataIndex = t.previousDataIndex := by rw [previousDataIndex, hindices]; rfl
  cases h with
  | no hno => exact .no (hindex.trans hno)
  | yes earlier later pNode state below hyes hsplit =>
      exact .yes earlier later pNode state below (hindex.trans hyes) (htraversal.trans hsplit)

theorem previousData_of_no (h : t.previousDataIndex = -1) : t.previousData = none := by
  rw [previousData, h]
  rfl

theorem previousData_of_yes {earlier later : List (TraversalData N S)} {data : TraversalData N S}
    (hindex : t.previousDataIndex = earlier.length) (htraversal : t.previousTraversal = earlier ++ data :: later) :
    t.previousData = some data := by
  rw [previousData, hindex, htraversal, entry_append]

theorem Seen.previousState_eq {seen : Option (S × Forest (N × S))} (h : Seen t seen) :
    t.previousState = seen.map Prod.fst := by
  cases h with
  | no hindex => rw [previousState, previousData_of_no hindex, Option.map_none, Option.map_none]
  | yes earlier later pNode state below hindex htraversal =>
      rw [previousState, previousData_of_yes hindex htraversal, Option.map_some, Option.map_some]

theorem Seen.previousDescendants_eq {seen : Option (S × Forest (N × S))} (h : Seen t seen) :
    t.previousDescendants = seen.elim [] fun found => found.2.preorder := by
  cases h with
  | no hindex => rw [previousDescendants, previousData_of_no hindex, Option.elim_none]
  | yes earlier later pNode state below hindex htraversal =>
      rw [previousDescendants, previousData_of_yes hindex htraversal, Option.elim_some]
      have hfirst : (t.previousDataIndex + 1).toNat = earlier.length + 1 := by rw [hindex]; omega
      simp only [hfirst, Int.toNat_natCast]
      have hsplit : t.previousTraversal =
          ((earlier ++ [⟨pNode, (earlier.length + 1 + below.size : Nat), state⟩]) ++
            record (earlier.length + 1) below) ++ later := by
        rw [htraversal]
        simp only [List.append_assoc, List.cons_append, List.nil_append]
      have htake : t.previousTraversal.take (earlier.length + 1 + below.size) =
          (earlier ++ [⟨pNode, (earlier.length + 1 + below.size : Nat), state⟩]) ++
            record (earlier.length + 1) below := by
        rw [hsplit]
        apply List.take_left'
        rw [List.length_append, List.length_append, List.length_singleton, length_record]
      rw [htake, List.drop_left' (by rw [List.length_append, List.length_singleton]), record_preorder]

/-- The skip links of a finished level lead from each of its roots to the next. -/
theorem siblingsFrom_record (earlier later : List (TraversalData N S)) (level : Forest (N × S)) (fuel : Nat)
    (hfuel : level.size ≤ fuel) :
    siblingsFrom (earlier ++ (record earlier.length level ++ later)) (earlier.length + level.size : Nat) fuel
      earlier.length = level.roots := by
  induction level generalizing earlier fuel with
  | nil =>
      cases fuel with
      | zero => rfl
      | succ fuel => rw [siblingsFrom, Forest.size_nil, Nat.add_zero, if_neg (Int.lt_irrefl _), Forest.roots_nil]
  | cons label children siblings _ ih =>
      obtain ⟨pNode, state⟩ := label
      rw [Forest.size_cons] at hfuel
      obtain ⟨fuel, rfl⟩ : ∃ smaller, fuel = smaller + 1 := ⟨fuel - 1, by omega⟩
      let first : List (TraversalData N S) :=
        ⟨pNode, (earlier.length + 1 + children.size : Nat), state⟩ :: record (earlier.length + 1) children
      have hlength : (earlier ++ first).length = earlier.length + 1 + children.size := by
        rw [List.length_append, List.length_cons, length_record]
        omega
      have hsplit : earlier ++ (record earlier.length (.cons (pNode, state) children siblings) ++ later) =
          (earlier ++ first) ++ (record (earlier ++ first).length siblings ++ later) := by
        rw [hlength, record]
        simp only [first, List.append_assoc, List.cons_append]
      have hrest := ih (earlier ++ first) fuel (by omega)
      rw [← hsplit, hlength] at hrest
      rw [siblingsFrom, if_pos (by rw [Forest.size_cons]; omega)]
      have hentry : entry (earlier ++ (record earlier.length (.cons (pNode, state) children siblings) ++ later))
          earlier.length = some ⟨pNode, (earlier.length + 1 + children.size : Nat), state⟩ := by
        rw [record, List.cons_append, entry_append]
      rw [hentry, Forest.roots_cons, Forest.size_cons,
        show earlier.length + (1 + children.size + siblings.size) =
          earlier.length + 1 + children.size + siblings.size by omega]
      exact congrArg _ hrest

theorem Seen.previousChildren_eq {seen : Option (S × Forest (N × S))} (h : Seen t seen) :
    t.previousChildren = seen.elim [] fun found => found.2.roots := by
  cases h with
  | no hindex => rw [previousChildren, previousData_of_no hindex, Option.elim_none]
  | yes earlier later pNode state below hindex htraversal =>
      rw [previousChildren, previousData_of_yes hindex htraversal, Option.elim_some]
      have hlevel := siblingsFrom_record
        (earlier ++ [⟨pNode, (earlier.length + 1 + below.size : Nat), state⟩]) later below
        t.previousTraversal.length (by
          rw [htraversal, List.length_append, List.length_cons, List.length_append, length_record]
          omega)
      simp only [List.length_append, List.length_singleton, List.append_assoc, List.singleton_append] at hlevel
      rw [← htraversal] at hlevel
      rw [hindex]
      exact hlevel

/-! ### Traversals that meet the documented assumptions -/

/-- None of the nodes of a level is a node of an earlier tree. -/
def Fresh (earlier level : Forest N) : Prop :=
  ∀ pNode ∈ level.preorder, pNode ∉ earlier.preorder

/-- A level with the nodes of an earlier level, in the same order, and below each of them either no node of
the earlier tree or again the nodes that were there. -/
def Aligned (earlier : Forest N) : Forest N → Forest N → Prop
  | .nil, .nil => True
  | .cons expected below later, .cons pNode children siblings =>
    expected = pNode ∧ (Fresh earlier children ∨ Aligned earlier below children) ∧ Aligned earlier later siblings
  | _, _ => False

/-- Two trees traversed one after the other meet the assumptions of the class: a node is known by its pointer,
and below each node the same children are traversed again, or children that were not there before, or none. -/
structure Follows (earlier level : Forest N) : Prop where
  nodup : earlier.preorder.Nodup
  aligned : Fresh earlier level ∨ Aligned earlier earlier level

section Parts

variable {earlier level later part kept : Forest N}

theorem Aligned.mem_level (h : Aligned earlier level later) {pNode : N} (hlater : pNode ∈ later.preorder)
    (hearlier : pNode ∈ earlier.preorder) : pNode ∈ level.preorder := by
  induction later generalizing level with
  | nil => cases hlater
  | cons current children siblings ihChildren ihSiblings =>
      cases level with
      | nil => exact h.elim
      | cons expected below rest =>
          obtain ⟨rfl, hbelow, hrest⟩ := h
          rcases List.mem_cons.mp hlater with rfl | hlater
          · exact List.mem_cons_self
          rcases List.mem_append.mp hlater with hinner | hafter
          · rcases hbelow with hfresh | hbelow
            · exact absurd hearlier (hfresh pNode hinner)
            · exact List.mem_cons_of_mem _ (List.mem_append_left _ (ihChildren hbelow hinner))
          · exact List.mem_cons_of_mem _ (List.mem_append_right _ (ihSiblings hrest hafter))

/-- What was visited of a tree is followed by whatever follows the tree. The induction is on the visited part of
a level; what was visited of the whole tree and is in the level is in that part. -/
theorem Aligned.prune (hprunes : Forest.Prunes kept level) (haligned : Aligned earlier level later)
    (hnodup : level.preorder.Nodup) (hpart : part.preorder ⊆ earlier.preorder)
    (hkept : ∀ pNode ∈ part.preorder, pNode ∈ level.preorder → pNode ∈ kept.preorder) : Aligned part kept later := by
  induction hprunes generalizing later with
  | nil =>
      cases later with
      | nil => trivial
      | cons pNode children siblings => exact haligned.elim
  | @skip label rest siblings children hrest ih =>
      cases later with
      | nil => exact haligned.elim
      | cons pNode children' siblings' =>
          obtain ⟨rfl, hbelow, hlater⟩ := haligned
          obtain ⟨hlabel, hlevel⟩ := List.nodup_cons.mp hnodup
          obtain ⟨_, hsiblings, hdisjoint⟩ := List.nodup_append.mp hlevel
          refine ⟨rfl, .inl ?_, ih hlater hsiblings fun other hother hmem => ?_⟩
          · intro other hother hvisited
            have hchild : other ∈ children.preorder := by
              rcases hbelow with hfresh | hbelow
              · exact absurd (hpart hvisited) (hfresh other hother)
              · exact hbelow.mem_level hother (hpart hvisited)
            have hmem := hkept other hvisited (List.mem_cons_of_mem _ (List.mem_append_left _ hchild))
            rcases List.mem_cons.mp hmem with rfl | hmem
            · exact hlabel (List.mem_append_left _ hchild)
            · exact hdisjoint other hchild other (hrest.sublist.subset hmem) rfl
          · have hmem := hkept other hother (List.mem_cons_of_mem _ (List.mem_append_right _ hmem))
            rcases List.mem_cons.mp hmem with rfl | hmem
            · exact absurd (List.mem_append_right _ ‹_›) hlabel
            · exact hmem
  | @keep label below children rest siblings hbelow hrest ihBelow ihRest =>
      cases later with
      | nil => exact haligned.elim
      | cons pNode children' siblings' =>
          obtain ⟨rfl, hinner, hlater⟩ := haligned
          obtain ⟨hlabel, hlevel⟩ := List.nodup_cons.mp hnodup
          obtain ⟨hchildren, hsiblings, hdisjoint⟩ := List.nodup_append.mp hlevel
          refine ⟨rfl, ?_, ihRest hlater hsiblings fun other hother hmem => ?_⟩
          · rcases hinner with hfresh | hinner
            · exact .inl fun other hother hvisited => hfresh other hother (hpart hvisited)
            · refine .inr (ihBelow hinner hchildren fun other hother hmem => ?_)
              have hvisited := hkept other hother (List.mem_cons_of_mem _ (List.mem_append_left _ hmem))
              rcases List.mem_cons.mp hvisited with rfl | hvisited
              · exact absurd (List.mem_append_left _ hmem) hlabel
              rcases List.mem_append.mp hvisited with hvisited | hvisited
              · exact hvisited
              · exact absurd rfl (hdisjoint other hmem other (hrest.sublist.subset hvisited))
          · have hvisited := hkept other hother (List.mem_cons_of_mem _ (List.mem_append_right _ hmem))
            rcases List.mem_cons.mp hvisited with rfl | hvisited
            · exact absurd (List.mem_append_right _ hmem) hlabel
            rcases List.mem_append.mp hvisited with hvisited | hvisited
            · exact absurd rfl (hdisjoint other (hbelow.sublist.subset hvisited) other hmem)
            · exact hvisited

theorem Fresh.prune (hprunes : Forest.Prunes part earlier) (h : Fresh earlier later) : Fresh part later :=
  fun pNode hlater hpart => h pNode hlater (hprunes.sublist.subset hpart)

/-- The documented assumptions hold for what was visited if they hold for the trees. -/
theorem Follows.prune (hprunes : Forest.Prunes part earlier) (h : Follows earlier later) : Follows part later where
  nodup := hprunes.nodup h.nodup
  aligned := h.aligned.imp (Fresh.prune hprunes) fun haligned =>
    haligned.prune hprunes h.nodup hprunes.sublist.subset fun _ hpart _ => hpart

end Parts

/-- The nodes of a recorded level, without their states. -/
def nodes (recorded : Forest (N × S)) : Forest N := recorded.map Prod.fst

theorem preorder_nodes (recorded : Forest (N × S)) : (nodes recorded).preorder = recorded.keys Prod.fst :=
  Forest.preorder_map Prod.fst recorded

theorem nodes_append (first second : Forest (N × S)) :
    nodes (first.append second) = (nodes first).append (nodes second) := by
  induction first with
  | nil => rfl
  | cons label children siblings _ ih =>
      change Forest.cons _ _ (nodes (siblings.append second)) = _
      rw [ih]
      rfl

theorem nodes_map (callback : S → S) (level : Forest (N × S)) :
    nodes (level.map fun label => (label.1, callback label.2)) = nodes level := by
  induction level with
  | nil => rfl
  | cons label children siblings ihChildren ihSiblings =>
      change Forest.cons _ (nodes (children.map _)) (nodes (siblings.map _)) = _
      rw [ihChildren, ihSiblings]
      rfl

/-- How the index into the previous traversal stands before a level is traversed, and where it stands after. -/
inductive Expects (recorded : Forest (N × S)) (t : TreeTraversalState N S) (level : Forest N) : Int → Prop where
  | fresh (hfresh : Fresh (nodes recorded) level) : Expects recorded t level t.previousTraversalNextNodeIndex
  | aligned (earlier later : List (TraversalData N S)) (expected : Forest (N × S))
      (hnodes : ∀ label below, Forest.Node label below expected → Forest.Node label below recorded)
      (htraversal : t.previousTraversal = earlier ++ (record earlier.length expected ++ later))
      (hnext : t.previousTraversalNextNodeIndex = earlier.length)
      (haligned : Aligned (nodes recorded) (nodes expected) level) :
      Expects recorded t level (earlier.length + expected.size : Nat)

theorem Expects.congr {recorded : Forest (N × S)} {t after : TreeTraversalState N S} {level : Forest N} {stop : Int}
    (h : Expects recorded t level stop) (htraversal : after.previousTraversal = t.previousTraversal)
    (hnext : after.previousTraversalNextNodeIndex = t.previousTraversalNextNodeIndex) :
    Expects recorded after level stop := by
  cases h with
  | fresh hfresh =>
      rw [← hnext]
      exact .fresh hfresh
  | aligned earlier later expected hnodes hsplit hindex haligned =>
      exact .aligned earlier later expected hnodes (htraversal.trans hsplit) (hnext.trans hindex) haligned

theorem Expects.stop_of_nil {recorded : Forest (N × S)} {stop : Int} (h : Expects recorded t .nil stop) :
    stop = t.previousTraversalNextNodeIndex := by
  cases h with
  | fresh _ => rfl
  | aligned earlier later expected hnodes hsplit hindex haligned =>
      cases expected with
      | nil => rw [hindex, Forest.size_nil, Nat.add_zero]
      | cons label below later => exact haligned.elim

theorem finishNode_previousTraversal (t : TreeTraversalState N S) :
    t.finishNode.previousTraversal = t.previousTraversal := rfl

theorem pNode_mem_of_entry {traversal : List (TraversalData N S)} {index : Int} {data : TraversalData N S}
    (h : entry traversal index = some data) : data.pNode ∈ traversal.map TraversalData.pNode := by
  rw [entry] at h
  split at h
  · exact List.mem_map_of_mem (List.mem_of_getElem? h)
  · cases h

theorem record_pNode (base : Nat) (level : Forest (N × S)) :
    (record base level).map TraversalData.pNode = level.keys Prod.fst := by
  rw [Forest.keys, ← record_preorder base level, List.map_map]
  rfl

theorem finishNode_of_seen_none (h : Seen t none) :
    t.finishNode.previousTraversalNextNodeIndex = t.previousTraversalNextNodeIndex := by
  cases h with
  | no hindex =>
      simp only [finishNode, previousData_of_no hindex]

theorem finishNode_of_seen_some {earlier later : List (TraversalData N S)} {data : TraversalData N S}
    (hindex : t.previousDataIndex = earlier.length) (htraversal : t.previousTraversal = earlier ++ data :: later) :
    t.finishNode.previousTraversalNextNodeIndex = data.nextSiblingIndex := by
  simp only [finishNode, previousData_of_yes hindex htraversal]

variable [DecidableEq N]

/-- What a recorded traversal holds for a node: its state and the level below it. -/
def seenIn (recorded : Forest (N × S)) (pNode : N) : Option (S × Forest (N × S)) :=
  (recorded.find Prod.fst pNode).map fun found => (found.1.2, found.2)

theorem foldl_record_of_not_mem (base : Nat) (level : Forest (N × S)) (found : Option S)
    (h : pNode ∉ level.keys Prod.fst) :
    (record base level).foldl (fun result data => if data.pNode = pNode then some data.state else result) found =
      found := by
  induction level generalizing base with
  | nil => rfl
  | cons label children siblings ihChildren ihSiblings =>
      simp only [Forest.keys_cons, List.mem_cons, List.mem_append, not_or] at h
      obtain ⟨hne, hbelow, hlater⟩ := h
      rw [record, List.foldl_cons, if_neg (Ne.symm hne), List.foldl_append, ihChildren _ hbelow, ihSiblings _ hlater]

/-- The slow lookup finds the node of the forest. -/
theorem slowlyGetStates_record (base : Nat) (level : Forest (N × S)) (hnodup : (level.keys Prod.fst).Nodup)
    (pNode : N) : slowlyGetStates (record base level) pNode = (seenIn level pNode).map Prod.fst := by
  induction level generalizing base with
  | nil => rfl
  | cons label children siblings ihChildren ihSiblings =>
      obtain ⟨node, state⟩ := label
      rw [Forest.keys_cons, List.nodup_cons, List.nodup_append] at hnodup
      obtain ⟨hnode, hchildren, hsiblings, hdisjoint⟩ := hnodup
      rw [List.mem_append, not_or] at hnode
      have hbelow := ihChildren (base + 1) hchildren
      have hlater := ihSiblings (base + 1 + children.size) hsiblings
      rw [slowlyGetStates] at hbelow hlater
      rw [slowlyGetStates, record, List.foldl_cons, List.foldl_append, seenIn, Forest.find]
      by_cases heq : node = pNode
      · subst heq
        rw [if_pos rfl, if_pos rfl, foldl_record_of_not_mem _ _ _ hnode.1, foldl_record_of_not_mem _ _ _ hnode.2]
        rfl
      · rw [if_neg heq, if_neg heq, hbelow]
        by_cases hmem : pNode ∈ children.keys Prod.fst
        · have habsent : pNode ∉ siblings.keys Prod.fst := fun hother => hdisjoint _ hmem _ hother rfl
          rw [foldl_record_of_not_mem _ _ _ habsent, Forest.find_eq_none _ habsent, Option.or_none, seenIn]
        · rw [seenIn, Forest.find_eq_none _ hmem, Option.none_or, Option.map_none, Option.map_none]
          exact hlater

/-- A node that was not recorded is not found where the previous traversal stands. -/
theorem not_expects {recorded : Forest (N × S)} (hrecorded : t.previousTraversal = record 0 recorded)
    (h : pNode ∉ recorded.keys Prod.fst) : t.expects pNode = false := by
  rw [expects]
  cases hentry : entry t.previousTraversal t.previousTraversalNextNodeIndex with
  | none => rfl
  | some data =>
      have hmem := pNode_mem_of_entry hentry
      rw [hrecorded, record_pNode] at hmem
      have hne : data.pNode ≠ pNode := by
        intro heq
        exact h (heq ▸ hmem)
      simpa using hne

variable [Inhabited S]

theorem beginNode_current (t : TreeTraversalState N S) (pNode : N) :
    ∃ previous, Current (t.beginNode pNode) t.currentTraversal pNode default .nil previous t.parentIndices := by
  rw [beginNode]
  split
  · exact ⟨_, rfl, rfl⟩
  · exact ⟨_, rfl, rfl⟩

theorem beginNode_previousTraversal (t : TreeTraversalState N S) (pNode : N) :
    (t.beginNode pNode).previousTraversal = t.previousTraversal := by
  rw [beginNode]
  split <;> rfl

theorem beginNode_of_expects (h : t.expects pNode = true) :
    (t.beginNode pNode).previousDataIndex = t.previousTraversalNextNodeIndex ∧
      (t.beginNode pNode).previousTraversalNextNodeIndex = t.previousTraversalNextNodeIndex + 1 := by
  rw [beginNode, if_pos h]
  exact ⟨rfl, rfl⟩

theorem beginNode_of_not_expects (h : t.expects pNode = false) :
    (t.beginNode pNode).previousDataIndex = -1 ∧
      (t.beginNode pNode).previousTraversalNextNodeIndex = t.previousTraversalNextNodeIndex := by
  rw [beginNode, if_neg (by rw [h]; decide)]
  exact ⟨rfl, rfl⟩

/-- A node that was not recorded leaves the place in the previous traversal as it is. -/
theorem Expects.beginNode_fresh {recorded : Forest (N × S)} {children siblings : Forest N}
    (hrecorded : t.previousTraversal = record 0 recorded) (hfresh : Fresh (nodes recorded) (.cons pNode children siblings)) :
    Seen (t.beginNode pNode) (seenIn recorded pNode) ∧
      ∃ inner, Expects recorded (t.beginNode pNode) children inner ∧
        ∀ after : TreeTraversalState N S, after.previousTraversal = t.previousTraversal →
          after.parentIndices = (t.beginNode pNode).parentIndices →
          (after.previousTraversalNextNodeIndex = inner ∨
            after.previousTraversalNextNodeIndex = (t.beginNode pNode).previousTraversalNextNodeIndex) →
          Expects recorded after.finishNode siblings t.previousTraversalNextNodeIndex := by
  have hunknown : pNode ∉ recorded.keys Prod.fst := by
    rw [← preorder_nodes]
    exact hfresh pNode List.mem_cons_self
  obtain ⟨hindex, hnext⟩ := beginNode_of_not_expects (not_expects hrecorded hunknown)
  have hseen : seenIn recorded pNode = none := by
    rw [seenIn, Forest.find_eq_none _ hunknown, Option.map_none]
  have hchildren : Fresh (nodes recorded) children := fun q hq =>
    hfresh q (List.mem_cons_of_mem _ (List.mem_append_left _ hq))
  have hsiblings : Fresh (nodes recorded) siblings := fun q hq =>
    hfresh q (List.mem_cons_of_mem _ (List.mem_append_right _ hq))
  rw [hseen]
  refine ⟨.no hindex, _, .fresh hchildren, fun after htraversal hindices hinner => ?_⟩
  have hbegun : Seen (t.beginNode pNode) none := .no hindex
  have hafter : Seen after none :=
    hbegun.congr (htraversal.trans (beginNode_previousTraversal t pNode).symm) hindices
  have hstop := finishNode_of_seen_none hafter
  rw [hinner.elim id id, hnext] at hstop
  rw [← hstop]
  exact .fresh hsiblings

/-- A node that was recorded at the place reached is matched there, and its end moves the place past its
recorded subtree, whatever was traversed of it this time. -/
theorem Expects.beginNode_aligned {recorded below rest : Forest (N × S)} {children siblings : Forest N} {state : S}
    {earlier later : List (TraversalData N S)} (hnodup : (recorded.keys Prod.fst).Nodup)
    (hnodes : ∀ label inner, Forest.Node label inner (.cons (pNode, state) below rest) →
      Forest.Node label inner recorded)
    (htraversal : t.previousTraversal = earlier ++ (record earlier.length (.cons (pNode, state) below rest) ++ later))
    (hnext : t.previousTraversalNextNodeIndex = earlier.length)
    (hchildren : Fresh (nodes recorded) children ∨ Aligned (nodes recorded) (nodes below) children)
    (hsiblings : Aligned (nodes recorded) (nodes rest) siblings) :
    Seen (t.beginNode pNode) (seenIn recorded pNode) ∧
      ∃ inner, Expects recorded (t.beginNode pNode) children inner ∧
        ∀ after : TreeTraversalState N S, after.previousTraversal = t.previousTraversal →
          after.parentIndices = (t.beginNode pNode).parentIndices →
          (after.previousTraversalNextNodeIndex = inner ∨
            after.previousTraversalNextNodeIndex = (t.beginNode pNode).previousTraversalNextNodeIndex) →
          Expects recorded after.finishNode siblings
            (earlier.length + (Forest.cons (pNode, state) below rest).size : Nat) := by
  let data : TraversalData N S := ⟨pNode, (earlier.length + 1 + below.size : Nat), state⟩
  have hsplit : t.previousTraversal = earlier ++ data :: (record (earlier.length + 1) below ++
      (record (earlier.length + 1 + below.size) rest ++ later)) := by
    rw [htraversal, record, List.cons_append, List.append_assoc]
  have hexpects : t.expects pNode = true := by
    rw [expects, hnext, hsplit, entry_append]
    exact decide_eq_true rfl
  obtain ⟨hindex, hnext'⟩ := beginNode_of_expects hexpects
  rw [hnext] at hindex hnext'
  have hbegun := beginNode_previousTraversal t pNode
  have hfound : recorded.find Prod.fst pNode = some ((pNode, state), below) :=
    (hnodes _ _ (.here rest)).find_eq Prod.fst hnodup
  have hseen : seenIn recorded pNode = some (state, below) := by
    rw [seenIn, hfound, Option.map_some]
  have hthis : Seen (t.beginNode pNode) (some (state, below)) :=
    .yes earlier _ pNode state below hindex (hbegun.trans hsplit)
  have hexpected : ∃ inner, Expects recorded (t.beginNode pNode) children inner := by
    rcases hchildren with hfresh | haligned
    · exact ⟨_, .fresh hfresh⟩
    · refine ⟨_, .aligned (earlier ++ [data]) (record (earlier.length + 1 + below.size) rest ++ later) below
        (fun label inner hnode => hnodes label inner (.down rest hnode)) ?_ ?_ haligned⟩
      · rw [hbegun, hsplit, List.length_append, List.length_singleton, List.append_assoc, List.singleton_append]
      · rw [hnext', List.length_append, List.length_singleton]
        omega
  obtain ⟨inner, hinner⟩ := hexpected
  rw [hseen]
  refine ⟨hthis, inner, hinner, fun after hsame hindices _ => ?_⟩
  have hafter : after.previousDataIndex = earlier.length := by
    rw [previousDataIndex, hindices, ← hindex, previousDataIndex]
  have hstop := finishNode_of_seen_some hafter (hsame.trans hsplit)
  rw [show earlier.length + (Forest.cons (pNode, state) below rest).size =
    (earlier ++ data :: record (earlier.length + 1) below).length + rest.size by
      rw [List.length_append, List.length_cons, length_record, Forest.size_cons]
      omega]
  refine .aligned _ later rest (fun label inner hnode => hnodes label inner (.next below hnode)) ?_ ?_ hsiblings
  · rw [finishNode_previousTraversal, hsame, hsplit, List.length_append, List.length_cons, length_record,
      List.append_assoc, List.cons_append]
    rw [show earlier.length + (below.size + 1) = earlier.length + 1 + below.size by omega]
  · rw [hstop, List.length_append, List.length_cons, length_record]
    change ((earlier.length + 1 + below.size : Nat) : Int) = _
    omega

/-- The step of a traversal along the recorded one: the node that begins is looked up rightly, its children
are expected next, and after its end the siblings, whether the children were traversed or not. -/
theorem Expects.beginNode {recorded : Forest (N × S)} {children siblings : Forest N} {stop : Int}
    (hrecorded : t.previousTraversal = record 0 recorded) (hnodup : (recorded.keys Prod.fst).Nodup)
    (h : Expects recorded t (.cons pNode children siblings) stop) :
    Seen (t.beginNode pNode) (seenIn recorded pNode) ∧
      ∃ inner, Expects recorded (t.beginNode pNode) children inner ∧
        ∀ after : TreeTraversalState N S, after.previousTraversal = t.previousTraversal →
          after.parentIndices = (t.beginNode pNode).parentIndices →
          (after.previousTraversalNextNodeIndex = inner ∨
            after.previousTraversalNextNodeIndex = (t.beginNode pNode).previousTraversalNextNodeIndex) →
          Expects recorded after.finishNode siblings stop := by
  cases h with
  | fresh hfresh => exact Expects.beginNode_fresh hrecorded hfresh
  | aligned earlier later expected hnodes htraversal hnext haligned =>
      cases expected with
      | nil => exact haligned.elim
      | cons label below rest =>
          obtain ⟨node, state⟩ := label
          obtain ⟨rfl, hchildren, hsiblings⟩ := haligned
          exact Expects.beginNode_aligned hnodup hnodes htraversal hnext hchildren hsiblings

end QtCesium.TreeTraversalState
