import QtCesium.SelectionCut
import Mathlib.Algebra.Order.Ring.Rat
import Mathlib.Tactic.Positivity
import Mathlib.Tactic.Linarith

/-! Frame after frame of a view group, over a tree whose tiles gain and lose their children between the frames:
what the render list, the fading-out set, the load queues and the progress are after each of them. -/

namespace QtCesium.Selection

open TreeTraversalState

/-! ### Frames -/

/-- A frame that visits the tiles: there is a view, and the tree follows the one of the last such frame. -/
structure Frame (earlier : Forest TileId) where
  scene : Scene
  root : TileId
  children : Forest TileId
  frustums_ne_nil : scene.frustums ≠ []
  hasTree : HasTree scene (.cons root children .nil)
  nodup : (Forest.cons root children .nil).preorder.Nodup
  aligned : Fresh earlier (.cons root children .nil) ∨ Aligned earlier earlier (.cons root children .nil)

namespace Frame

variable {earlier : Forest TileId} (f : Frame earlier)

def level : Forest TileId := .cons f.root f.children .nil

def after (g : TilesetViewGroup) : TilesetViewGroup := updateViewGroup f.scene (some (f.root, f.children)) g

end Frame

/-- The states of a view group between frames, with the tree of the last frame that visited tiles. Between two
frames, tiles are taken from the load queues to be loaded, and tiles may leave the fading-out set. -/
inductive Reached : Forest TileId → TilesetViewGroup → Prop where
  | new : Reached .nil .new
  | frame {earlier : Forest TileId} {g : TilesetViewGroup} (h : Reached earlier g) (f : Frame earlier) :
      Reached f.level (f.after g)
  | noTile {earlier : Forest TileId} {g : TilesetViewGroup} (h : Reached earlier g) (s : Scene) :
      Reached earlier (updateViewGroup s none g)
  | noView {earlier : Forest TileId} {g : TilesetViewGroup} (h : Reached earlier g) (s : Scene)
      (root : TileId) (children : Forest TileId) (hfrustums : s.frustums = []) :
      Reached earlier (updateViewGroup s (some (root, children)) g)
  | nextInWorkerThread {earlier : Forest TileId} {g : TilesetViewGroup} (h : Reached earlier g)
      (hmore : g.hasMoreTilesToLoadInWorkerThread = true) : Reached earlier g.getNextTileToLoadInWorkerThread.2
  | nextInMainThread {earlier : Forest TileId} {g : TilesetViewGroup} (h : Reached earlier g)
      (hmore : g.hasMoreTilesToLoadInMainThread = true) : Reached earlier g.getNextTileToLoadInMainThread.2
  | fade {earlier : Forest TileId} {g : TilesetViewGroup} (h : Reached earlier g) (left : Finset TileId) :
      Reached earlier
        { g with updateResult := { g.updateResult with tilesFadingOut := g.updateResult.tilesFadingOut \ left } }

/-- What holds of a view group between frames. -/
structure Resting (earlier : Forest TileId) (g : TilesetViewGroup) : Prop where
  indices : g.traversalState.parentIndices = []
  visited : ∃ visited, Cut earlier visited ∧ g.traversalState.currentTraversal = record 0 visited
  nodup : earlier.preorder.Nodup
  assertions : g.assertionsHold = true

/-- What a frame came to: an outcome of the tree selection, and where it is found in the view group. -/
structure Selected (s : Scene) (level : Forest TileId) (g after : TilesetViewGroup)
    (recorded : Forest (TileId × TileSelectionState)) (outcome : Outcome) : Prop where
  selects : Selects s.withLodTransitions (seenIn recorded) false level outcome
  earlier : g.traversalState.currentTraversal = record 0 recorded
  previous : after.traversalState.previousTraversal = record 0 recorded
  current : after.traversalState.currentTraversal = record 0 outcome.visited
  shown : after.updateResult.tilesToRenderThisFrame = s.shown outcome.visited
  faded : ∀ tile, tile ∈ after.updateResult.tilesFadingOut ↔
    (s.options.enableLodTransitionPeriod = true ∧ tile ∈ g.updateResult.tilesFadingOut) ∨ tile ∈ outcome.faded
  worker : after.workerThreadLoadQueue.Perm (outcome.queued.filter s.loadsInWorkerThread)
  main : after.mainThreadLoadQueue.Perm (outcome.queued.filter s.loadsInMainThread)
  loading : after.workerThreadLoadQueue.length + after.mainThreadLoadQueue.length + after.updateResult.tilesKicked =
    outcome.requested.countP s.loads
  already : after.tilesAlreadyLoadingOrUnloading = outcome.requested.countP s.inTransition
  subset : outcome.queued ⊆ outcome.requested

section Finish

variable (s : Scene) (g : TilesetViewGroup)

theorem finishFrame_tilesLoading : (g.finishFrame s).tilesLoading s = g.tilesLoading s := by
  simp only [TilesetViewGroup.tilesLoading, TilesetViewGroup.finishFrame, List.length_mergeSort,
    TilesetViewGroup.mappedRasterTilesToRender]

/-- Where the subtraction of the counts is possible, it is what it looks like. -/
theorem finishFrame_progress (hle : (g.finishFrame s).tilesLoading s ≤ (g.finishFrame s).totalTiles s) :
    (g.finishFrame s).loadProgressPercentage =
      if (g.finishFrame s).tilesLoading s = 0 then 100
      else 100 * (((g.finishFrame s).totalTiles s - (g.finishFrame s).tilesLoading s : Nat) : Rat) /
        ((g.finishFrame s).totalTiles s : Rat) := by
  rw [finishFrame_tilesLoading] at hle ⊢
  have hsub : g.tilesLoading s ≤ g.totalTiles s := hle
  change (if g.tilesLoading s = 0 then (100 : Rat) else 100 * ((if _ then _ else _ : Nat) : Rat) / _) = _
  rw [if_pos hsub]
  rfl

end Finish

theorem withLodTransitions_frustums (s : Scene) : s.withLodTransitions.frustums = s.frustums := rfl

theorem Frame.after_eq {earlier : Forest TileId} (f : Frame earlier) (g : TilesetViewGroup) :
    f.after g = ((f.scene.withLodTransitions.visitVisibleChildren f.level 0 false .new
      (g.startNewFrame f.scene.withLodTransitions)).2).finishFrame f.scene.withLodTransitions := by
  have hfrustums : f.scene.withLodTransitions.frustums.isEmpty = false := by
    rw [withLodTransitions_frustums, List.isEmpty_eq_false_iff]
    exact f.frustums_ne_nil
  simp only [Frame.after, updateViewGroup, hfrustums]
  rfl

theorem Resting.selected {earlier : Forest TileId} {g : TilesetViewGroup} (h : Resting earlier g) (f : Frame earlier) :
    ∃ recorded outcome, Cut earlier recorded ∧ Selected f.scene f.level g (f.after g) recorded outcome ∧
      (f.after g).traversalState.parentIndices = [] ∧ (f.after g).assertionsHold = true := by
  obtain ⟨hindices, ⟨recorded, hcut, hrecord⟩, hnodup, hassertions⟩ := h
  have hfollows : Follows (nodes recorded) f.level := Follows.prune hcut.prunes ⟨hnodup, f.aligned⟩
  have hkeys : (recorded.keys Prod.fst).Nodup := by
    rw [← preorder_nodes]
    exact hfollows.nodup
  have hstart : (g.startNewFrame f.scene.withLodTransitions).traversalState.previousTraversal = record 0 recorded :=
    hrecord
  have hexpects : ∃ stop, Expects recorded (g.startNewFrame f.scene.withLodTransitions).traversalState f.level stop := by
    rcases hfollows.aligned with hfresh | haligned
    · exact ⟨_, .fresh hfresh⟩
    · refine ⟨_, .aligned [] [] recorded (fun label below hnode => hnode) ?_ rfl haligned⟩
      rw [List.append_nil, List.nil_append]
      exact hstart
  obtain ⟨stop, hexpects⟩ := hexpects
  have htree : HasTree f.scene.withLodTransitions f.level := f.hasTree
  obtain ⟨outcome, hselects, -, hvisited, -⟩ :=
    visitVisibleChildren_visits f.scene.withLodTransitions hkeys htree 0 false .new _ stop hstart hexpects
  obtain ⟨htraversed, hgrown⟩ := hvisited
  have hrequests := hselects.requests f.nodup
  have hcurrent : (f.after g).traversalState.currentTraversal = record 0 outcome.visited := by
    rw [f.after_eq]
    exact htraversed.traversal
  refine ⟨recorded, outcome, hcut, ?_, ?_, ?_⟩
  · refine ⟨hselects, hrecord, ?_, hcurrent, ?_, ?_, ?_, ?_, ?_, ?_, hgrown.subset⟩
    · rw [f.after_eq]
      exact htraversed.previous.trans hrecord
    · rw [f.after_eq]
      exact hgrown.shown
    · intro tile
      rw [f.after_eq]
      refine (hgrown.faded tile).trans (or_congr_left ?_)
      change tile ∈ (if f.scene.options.enableLodTransitionPeriod = true then g.updateResult.tilesFadingOut else ∅) ↔ _
      by_cases htransitions : f.scene.options.enableLodTransitionPeriod = true
      · rw [if_pos htransitions]
        exact (and_iff_right htransitions).symm
      · rw [if_neg htransitions]
        exact iff_of_false (Finset.notMem_empty tile) fun h => htransitions h.1
    · rw [f.after_eq]
      exact (List.mergeSort_perm _ _).trans (.of_eq hgrown.worker)
    · rw [f.after_eq]
      exact (List.mergeSort_perm _ _).trans (.of_eq hgrown.main)
    · rw [f.after_eq]
      have hloading := hgrown.loading
      simp only [TilesetViewGroup.finishFrame, List.length_mergeSort]
      exact hloading.trans (Nat.zero_add _)
    · rw [f.after_eq]
      exact hgrown.already.trans (Nat.zero_add _)
  · rw [f.after_eq]
    exact htraversed.indices.trans hindices
  · rw [f.after_eq]
    exact (hgrown.assertions hrequests.nodup fun _ _ => List.not_mem_nil).trans hassertions

theorem Resting.frame {earlier : Forest TileId} {g : TilesetViewGroup} (h : Resting earlier g) (f : Frame earlier) :
    Resting f.level (f.after g) := by
  obtain ⟨recorded, outcome, -, hselected, hindices, hassertions⟩ := h.selected f
  exact ⟨hindices, ⟨outcome.visited, hselected.selects.cut, hselected.current⟩, f.nodup, hassertions⟩

theorem Reached.resting {earlier : Forest TileId} {g : TilesetViewGroup} (h : Reached earlier g) :
    Resting earlier g := by
  induction h with
  | new => exact ⟨rfl, ⟨.nil, .nil, rfl⟩, List.nodup_nil, rfl⟩
  | frame _ f ih => exact ih.frame f
  | noTile _ s ih => exact ih
  | noView _ s root children hfrustums ih =>
      have hempty : s.withLodTransitions.frustums.isEmpty = true := List.isEmpty_iff.mpr hfrustums
      simp only [updateViewGroup, hempty]
      exact ⟨ih.indices, ih.visited, ih.nodup, ih.assertions⟩
  | @nextInWorkerThread _ g _ hmore ih =>
      have hassertions : g.getNextTileToLoadInWorkerThread.2.assertionsHold = (g.assertionsHold && true) :=
        congrArg (g.assertionsHold && ·) hmore
      exact ⟨ih.indices, ih.visited, ih.nodup, hassertions.trans (by rw [ih.assertions]; rfl)⟩
  | @nextInMainThread _ g _ hmore ih =>
      have hassertions : g.getNextTileToLoadInMainThread.2.assertionsHold = (g.assertionsHold && true) :=
        congrArg (g.assertionsHold && ·) hmore
      exact ⟨ih.indices, ih.visited, ih.nodup, hassertions.trans (by rw [ih.assertions]; rfl)⟩
  | fade _ left ih => exact ⟨ih.indices, ih.visited, ih.nodup, ih.assertions⟩

/-- A root with two children, the first of them loaded. -/
def twoChildren (second : TileLoadState) : Scene where
  tile tile :=
    if tile = 0 then ⟨none, [1, 2], .replace, false, .done, .render, [], false⟩
    else ⟨some 0, [], .replace, false, if tile = 2 then second else .done, .render, [], false⟩
  options :=
    { maximumScreenSpaceError := 16
      preloadAncestors := true
      preloadSiblings := true
      loadingDescendantLimit := 20
      forbidHoles := false
      enableFrustumCulling := true
      enableOcclusionCulling := false
      delayRefinementForOcclusion := true
      enableFogCulling := true
      enforceCulledScreenSpaceError := true
      culledScreenSpaceError := 64
      excluders := []
      enableLodTransitionPeriod := false
      kickDescendantsWhileFadingIn := true }
  frustums := [⟨fun _ => true, fun _ => true, fun tile => if tile = 0 then 100 else 1⟩]
  tilePriority tile := tile
  pGltfModifier := none
  pTileOcclusionProxyPool := none

theorem hasTree_twoChildren (second : TileLoadState) :
    HasTree (twoChildren second) (.cons 0 (.cons 1 .nil (.cons 2 .nil .nil)) .nil) := by
  intro tile below hnode
  cases hnode with
  | here => rfl
  | next _ hnode => cases hnode
  | down _ hnode =>
      cases hnode with
      | here => rfl
      | down _ hnode => cases hnode
      | next _ hnode =>
          cases hnode with
          | here => rfl
          | down _ hnode => cases hnode
          | next _ hnode => cases hnode

/-- The first frame of a view group; the second child has yet to be loaded. -/
def firstFrame : Frame .nil where
  scene := twoChildren .unloaded
  root := 0
  children := .cons 1 .nil (.cons 2 .nil .nil)
  frustums_ne_nil := List.cons_ne_nil _ _
  hasTree := hasTree_twoChildren .unloaded
  nodup := by decide
  aligned := .inl fun _ _ => List.not_mem_nil

/-- The next one, with the second child loaded. -/
def secondFrame : Frame firstFrame.level where
  scene := twoChildren .done
  root := 0
  children := .cons 1 .nil (.cons 2 .nil .nil)
  frustums_ne_nil := List.cons_ne_nil _ _
  hasTree := hasTree_twoChildren .done
  nodup := by decide
  aligned := .inr ⟨rfl, .inr ⟨rfl, .inr trivial, rfl, .inr trivial, trivial⟩, trivial⟩

example : (firstFrame.after .new).updateResult.tilesToRenderThisFrame = [0] := by decide

section Screen

variable {earlier : Forest TileId} {g : TilesetViewGroup}

theorem stateIn_eq {visited : Forest (TileId × TileSelectionState)} (hnodup : (visited.keys Prod.fst).Nodup)
    {t : TreeTraversalState TileId TileSelectionState} (h : t.currentTraversal = record 0 visited) (tile : TileId) :
    t.slowlyGetCurrentStates tile = stateIn visited tile := by
  rw [slowlyGetCurrentStates, h, slowlyGetStates_record 0 visited hnodup, stateIn]

theorem stateIn_of_mem {visited : Forest (TileId × TileSelectionState)} (hnodup : (visited.keys Prod.fst).Nodup)
    {tile : TileId} {state : TileSelectionState} (h : (tile, state) ∈ visited.preorder) :
    stateIn visited tile = some state := by
  obtain ⟨below, hnode⟩ := Forest.exists_node_of_mem h
  rw [stateIn, seenIn, hnode.find_eq Prod.fst hnodup]
  rfl

theorem Selects.keys_nodup {s : Scene} {seen : Seen} {ancestorMeetsSse : Bool} {level : Forest TileId}
    {outcome : Outcome} (h : Selects s seen ancestorMeetsSse level outcome) (hnodup : level.preorder.Nodup) :
    (outcome.visited.keys Prod.fst).Nodup := by
  rw [← preorder_nodes]
  exact h.cut.prunes.nodup hnodup

theorem mem_shown_iff {s : Scene} {visited : Forest (TileId × TileSelectionState)}
    (hnodup : (visited.keys Prod.fst).Nodup) {tile : TileId} :
    tile ∈ s.shown visited ↔ stateIn visited tile = some .rendered ∨
      (stateIn visited tile = some .refined ∧ (s.tile tile).refine = .add) := by
  rw [Scene.shown, Scene.shownOf, List.mem_map]
  constructor
  · rintro ⟨⟨tile, state⟩, hmem, rfl⟩
    obtain ⟨hmem, hshown⟩ := List.mem_filter.mp hmem
    rw [stateIn_of_mem hnodup hmem]
    simpa [Scene.wasShown] using hshown
  · rintro (hstate | ⟨hstate, hadd⟩)
    · exact ⟨(tile, .rendered), List.mem_filter.mpr ⟨mem_of_stateIn hstate, rfl⟩, rfl⟩
    · refine ⟨(tile, .refined), List.mem_filter.mpr ⟨mem_of_stateIn hstate, ?_⟩, rfl⟩
      simp [Scene.wasShown, hadd]

/-- After every frame, each path from the root to a leaf passes tiles that are refined, then one tile that is
rendered or culled, and below it none that is rendered or refined. -/
theorem Reached.frame_path (h : Reached earlier g) (f : Frame earlier) {path : List TileId}
    (hpath : Forest.LeafPath path f.level) : CutPath (f.after g).traversalState.slowlyGetCurrentStates path := by
  obtain ⟨recorded, outcome, -, hselected, -⟩ := h.resting.selected f
  have hkeys := hselected.selects.keys_nodup f.nodup
  exact (hselected.selects.cut.path f.nodup hpath).congr fun tile _ => stateIn_eq hkeys hselected.current tile

theorem Reached.frame_path_first : CutPath (firstFrame.after .new).traversalState.slowlyGetCurrentStates [0, 2] :=
  Reached.new.frame_path firstFrame (.down 0 .nil (.next 1 .nil (.leaf 2 .nil)))

/-- After every frame, the render list has once each the tiles that are rendered, and those that are refined and
stay on the screen with their children. -/
theorem Reached.frame_shown (h : Reached earlier g) (f : Frame earlier) :
    (f.after g).updateResult.tilesToRenderThisFrame.Nodup ∧
      ∀ tile, tile ∈ (f.after g).updateResult.tilesToRenderThisFrame ↔
        (f.after g).traversalState.slowlyGetCurrentStates tile = some .rendered ∨
          ((f.after g).traversalState.slowlyGetCurrentStates tile = some .refined ∧
            (f.scene.tile tile).refine = .add) := by
  obtain ⟨recorded, outcome, -, hselected, -⟩ := h.resting.selected f
  have hkeys := hselected.selects.keys_nodup f.nodup
  rw [hselected.shown]
  constructor
  · exact (List.filter_sublist.map Prod.fst).nodup hkeys
  · intro tile
    rw [stateIn_eq hkeys hselected.current]
    exact mem_shown_iff hkeys

theorem Reached.frame_shown_first : 0 ∈ (firstFrame.after .new).updateResult.tilesToRenderThisFrame ↔
    (firstFrame.after .new).traversalState.slowlyGetCurrentStates 0 = some .rendered ∨
      ((firstFrame.after .new).traversalState.slowlyGetCurrentStates 0 = some .refined ∧
        (firstFrame.scene.tile 0).refine = .add) :=
  (Reached.new.frame_shown firstFrame).2 0

/-- Where a tile that is ready has given way to its descendants, all of those that are to be rendered are ready, or
one of them keeps on the screen what the previous frame showed there. -/
def Justified (s : Scene) (t : TreeTraversalState TileId TileSelectionState) : Prop :=
  ∃ recorded visited, t.previousTraversal = record 0 recorded ∧ t.currentTraversal = record 0 visited ∧
    ∀ tile below, Forest.Node (tile, .refined) below visited → (s.tile tile).isRenderable = true →
      AllRenderable s below.preorder ∨ KeepsDetail s (seenIn recorded) below.preorder

end Screen

/-! ### The load queues and the progress -/

section Loading

variable {earlier : Forest TileId} {g : TilesetViewGroup}

namespace TileLoadPriorityGroup

def rank : TileLoadPriorityGroup → Nat
  | preload => 0
  | normal => 1
  | urgent => 2

theorem rank_injective {left right : TileLoadPriorityGroup} (h : left.rank = right.rank) : left = right := by
  cases left <;> cases right <;> first | rfl | cases h

end TileLoadPriorityGroup

/-- A task is before another in the order of the queues when its group is of a lower rank, or when it has the
greater priority value of the two in one group. -/
theorem TileLoadTask.lt_iff {left right : TileLoadTask} :
    left.lt right = true ↔ left.group.rank < right.group.rank ∨
      left.group.rank = right.group.rank ∧ right.priority < left.priority := by
  rw [TileLoadTask.lt]
  by_cases hgroup : left.group = right.group
  · rw [if_pos hgroup, hgroup]
    simp
  · rw [if_neg hgroup]
    have hrank : left.group.rank ≠ right.group.rank := fun h => hgroup (TileLoadPriorityGroup.rank_injective h)
    obtain ⟨tile, group, priority⟩ := left
    obtain ⟨tile', group', priority'⟩ := right
    cases group <;> cases group' <;> first | exact absurd rfl hgroup | simp [TileLoadPriorityGroup.rank]

theorem inOrder_trans {first second third : TileLoadTask} (h : second.lt first = false) (h' : third.lt second = false) :
    third.lt first = false := by
  rw [Bool.eq_false_iff, ne_eq, TileLoadTask.lt_iff] at h h' ⊢
  rintro (hrank | ⟨hrank, hpriority⟩)
  · by_cases hfirst : second.group.rank < first.group.rank
    · exact h (.inl hfirst)
    · exact h' (.inl (by omega))
  · by_cases hfirst : second.group.rank < first.group.rank
    · exact h (.inl hfirst)
    by_cases hsecond : third.group.rank < second.group.rank
    · exact h' (.inl hsecond)
    · have hsame : second.group.rank = first.group.rank := by omega
      have hsame' : third.group.rank = second.group.rank := by omega
      by_cases hbetween : first.priority < second.priority
      · exact h (.inr ⟨hsame, hbetween⟩)
      · exact h' (.inr ⟨hsame', lt_of_le_of_lt (not_lt.mp hbetween) hpriority⟩)

theorem inOrder_total (left right : TileLoadTask) : right.lt left = false ∨ left.lt right = false := by
  by_cases h : right.lt left = true
  · right
    rw [Bool.eq_false_iff, ne_eq, TileLoadTask.lt_iff]
    rcases TileLoadTask.lt_iff.mp h with hrank | ⟨hrank, hpriority⟩
    · rintro (hback | ⟨hback, _⟩) <;> omega
    · rintro (hback | ⟨_, hback⟩)
      · omega
      · exact lt_asymm hpriority hback
  · exact .inl (Bool.eq_false_iff.mpr h)

theorem mergeSort_inOrder (tasks : List TileLoadTask) :
    (tasks.mergeSort fun left right => !right.lt left).Pairwise fun left right => right.lt left = false := by
  have hsorted := @List.pairwise_mergeSort _ (fun left right : TileLoadTask => !right.lt left) ?_ ?_ tasks
  · exact hsorted.imp fun h => by rwa [Bool.not_eq_true'] at h
  · intro first second third h h'
    rw [Bool.not_eq_true'] at h h' ⊢
    exact inOrder_trans h h'
  · intro left right
    rw [Bool.or_eq_true, Bool.not_eq_true', Bool.not_eq_true']
    exact inOrder_total left right

theorem Selects.queued_sublist {s : Scene} {seen : Seen} {ancestorMeetsSse : Bool} {level : Forest TileId}
    {outcome : Outcome} (h : Selects s seen ancestorMeetsSse level outcome) :
    outcome.queued.Sublist outcome.requested := by
  induction h with
  | nil => exact List.Sublist.refl _
  | culled _ _ _ _ ih => exact (List.Sublist.refl _).append ih
  | leaf _ _ _ _ ih => exact (List.Sublist.refl _).append ih
  | inner _ _ _ _ _ _ ih => exact (List.Sublist.refl _).append ih
  | refined _ _ _ _ _ _ _ _ ihBelow ihRest =>
      exact (((List.Sublist.refl _).append ihBelow).append (List.Sublist.refl _)).append ihRest
  | @kicked _ _ restored _ _ _ _ _ _ _ _ _ _ _ _ _ _ _ _ _ _ ihBelow ihRest =>
      refine (((List.Sublist.refl _).append ?_).append (List.Sublist.refl _)).append ihRest
      cases restored with
      | true => exact List.nil_sublist _
      | false => exact ihBelow

/-- The two queues share no tile and have each tile once. -/
theorem filter_loads_nodup {s : Scene} {tasks : List TileLoadTask} (hnodup : (tasks.map TileLoadTask.pTile).Nodup) :
    ((tasks.filter s.loadsInWorkerThread ++ tasks.filter s.loadsInMainThread).map TileLoadTask.pTile).Nodup := by
  rw [List.map_append, List.nodup_append]
  refine ⟨(List.filter_sublist.map _).nodup hnodup, (List.filter_sublist.map _).nodup hnodup, ?_⟩
  intro x hx y hy heq
  obtain ⟨task, htask, rfl⟩ := List.mem_map.mp hx
  obtain ⟨other, hother, rfl⟩ := List.mem_map.mp hy
  obtain ⟨hmem, hworker⟩ := List.mem_filter.mp htask
  obtain ⟨_, hmain⟩ := List.mem_filter.mp hother
  rw [Scene.loadsInWorkerThread] at hworker
  rw [Scene.loadsInMainThread, ← heq, hworker] at hmain
  cases hmain

/-- The load queues have each tile once, each was visited in the frame and needs the loading that the queue is for,
and the most urgent tasks are at the back; and no assertion about them has failed. -/
structure LoadQueues (s : Scene) (g : TilesetViewGroup) : Prop where
  assertions : g.assertionsHold = true
  nodup : ((g.workerThreadLoadQueue ++ g.mainThreadLoadQueue).map TileLoadTask.pTile).Nodup
  visited : ∀ task ∈ g.workerThreadLoadQueue ++ g.mainThreadLoadQueue,
    (g.traversalState.slowlyGetCurrentStates task.pTile).isSome = true
  worker : ∀ task ∈ g.workerThreadLoadQueue, s.needsWorkerThreadLoading task.pTile = true
  main : ∀ task ∈ g.mainThreadLoadQueue,
    s.needsWorkerThreadLoading task.pTile = false ∧ s.needsMainThreadLoading task.pTile = true
  workerOrder : g.workerThreadLoadQueue.Pairwise fun left right => right.lt left = false
  mainOrder : g.mainThreadLoadQueue.Pairwise fun left right => right.lt left = false

theorem Reached.frame_loadQueues (h : Reached earlier g) (f : Frame earlier) : LoadQueues f.scene (f.after g) := by
  obtain ⟨recorded, outcome, -, hselected, -, hassertions⟩ := h.resting.selected f
  have hrequests := hselected.selects.requests f.nodup
  have hkeys := hselected.selects.keys_nodup f.nodup
  have hqueued : (outcome.queued.map TileLoadTask.pTile).Nodup :=
    (hselected.selects.queued_sublist.map _).nodup hrequests.nodup
  have hmem : ∀ task ∈ (f.after g).workerThreadLoadQueue ++ (f.after g).mainThreadLoadQueue, task ∈ outcome.queued := by
    intro task htask
    rcases List.mem_append.mp htask with htask | htask
    · exact (List.mem_filter.mp (hselected.worker.mem_iff.mp htask)).1
    · exact (List.mem_filter.mp (hselected.main.mem_iff.mp htask)).1
  refine ⟨hassertions, ?_, ?_, ?_, ?_, ?_, ?_⟩
  · exact ((hselected.worker.append hselected.main).map _).nodup_iff.mpr (filter_loads_nodup hqueued)
  · intro task htask
    have hvisited := hrequests.visited task (hselected.subset (hmem task htask))
    rw [preorder_nodes, Forest.keys, List.mem_map] at hvisited
    obtain ⟨⟨tile, state⟩, hlabel, htile⟩ := hvisited
    rw [stateIn_eq hkeys hselected.current, ← htile, stateIn_of_mem hkeys hlabel]
    rfl
  · exact fun task htask => (List.mem_filter.mp (hselected.worker.mem_iff.mp htask)).2
  · intro task htask
    have hloads := (List.mem_filter.mp (hselected.main.mem_iff.mp htask)).2
    rw [Scene.loadsInMainThread, Bool.and_eq_true, Bool.not_eq_true'] at hloads
    exact hloads
  · rw [f.after_eq]
    exact mergeSort_inOrder _
  · rw [f.after_eq]
    exact mergeSort_inOrder _

theorem Reached.frame_loadQueues_first : LoadQueues (twoChildren .unloaded) (firstFrame.after .new) :=
  Reached.new.frame_loadQueues firstFrame

theorem countP_add_countP_le {s : Scene} (tasks : List TileLoadTask) :
    tasks.countP s.loads + tasks.countP s.inTransition ≤ tasks.length := by
  induction tasks with
  | nil => exact Nat.le_refl _
  | cons task rest ih =>
      rw [List.countP_cons, List.countP_cons, List.length_cons]
      by_cases hloads : s.loads task = true
      · have hnot : s.inTransition task = false := by rw [Scene.inTransition, hloads]; rfl
        rw [if_pos hloads, hnot, if_neg Bool.false_ne_true]
        omega
      · rw [if_neg hloads]
        split <;> omega

theorem percentage_range {loading total : Nat} (hle : loading ≤ total) :
    let percentage : Rat := if loading = 0 then 100 else 100 * ((total - loading : Nat) : Rat) / (total : Rat)
    0 ≤ percentage ∧ percentage ≤ 100 ∧ (percentage = 100 ↔ loading = 0) := by
  intro percentage
  by_cases hzero : loading = 0
  · have hfull : percentage = 100 := if_pos hzero
    rw [hfull]
    exact ⟨by norm_num, le_rfl, iff_of_true rfl hzero⟩
  · have hpart : percentage = 100 * ((total - loading : Nat) : Rat) / (total : Rat) := if_neg hzero
    have htotal : (0 : Rat) < total := by
      have hpositive : 0 < total := by omega
      exact_mod_cast hpositive
    have hless : ((total - loading : Nat) : Rat) < total := by
      have hless : total - loading < total := by omega
      exact_mod_cast hless
    have hlt : percentage < 100 := by
      rw [hpart, div_lt_iff₀ htotal]
      linarith
    refine ⟨?_, hlt.le, iff_of_false hlt.ne hzero⟩
    rw [hpart]
    positivity

/-- No more tiles are loading than there are tiles, so that the unsigned subtraction of the two does not wrap around;
the progress is a percentage, and it is 100 exactly when no tile is loading. -/
structure Progress (s : Scene) (g : TilesetViewGroup) : Prop where
  loading_le : g.tilesLoading s ≤ g.totalTiles s
  nonneg : 0 ≤ g.loadProgressPercentage
  le : g.loadProgressPercentage ≤ 100
  full_iff : g.loadProgressPercentage = 100 ↔ g.tilesLoading s = 0

theorem Resting.progress (h : Resting earlier g) (f : Frame earlier) : Progress f.scene (f.after g) := by
  obtain ⟨recorded, outcome, -, hselected, -⟩ := h.selected f
  have hrequests := hselected.selects.requests f.nodup
  have hvisited : outcome.requested.length ≤ (f.after g).traversalState.getNodeCountInCurrentTraversal := by
    rw [getNodeCountInCurrentTraversal, hselected.current, length_record, ← Forest.length_preorder]
    calc outcome.requested.length
        = (outcome.requested.map TileLoadTask.pTile).length := (List.length_map _).symm
      _ ≤ (nodes outcome.visited).preorder.length := by
        refine (List.subperm_of_subset hrequests.nodup fun tile htile => ?_).length_le
        obtain ⟨task, htask, rfl⟩ := List.mem_map.mp htile
        exact hrequests.visited task htask
      _ = outcome.visited.preorder.length := by rw [Forest.length_preorder, Forest.length_preorder, nodes, Forest.size_map]
  have hle : (f.after g).tilesLoading f.scene ≤ (f.after g).totalTiles f.scene := by
    have hcount := countP_add_countP_le (s := f.scene) outcome.requested
    have hloading := hselected.loading
    have halready := hselected.already
    have hmapped : ((f.after g).mappedRasterTilesToRender f.scene).countP (fun mapped => !mapped.attached) ≤
        ((f.after g).mappedRasterTilesToRender f.scene).length := List.countP_le_length
    rw [TilesetViewGroup.tilesLoading, TilesetViewGroup.totalTiles]
    omega
  have hprogress : (f.after g).loadProgressPercentage =
      if (f.after g).tilesLoading f.scene = 0 then 100
      else 100 * (((f.after g).totalTiles f.scene - (f.after g).tilesLoading f.scene : Nat) : Rat) /
        ((f.after g).totalTiles f.scene : Rat) := by
    rw [f.after_eq] at hle ⊢
    exact finishFrame_progress _ _ hle
  obtain ⟨hnonneg, hhundred, hfull⟩ := percentage_range hle
  rw [← hprogress] at hnonneg hhundred hfull
  exact ⟨hle, hnonneg, hhundred, hfull⟩

end Loading

end QtCesium.Selection
