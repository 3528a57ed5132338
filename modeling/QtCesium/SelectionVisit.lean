import QtCesium.SelectionTree
import QtCesium.TraversalRun

/-! The visits of `Tileset` have the outcomes of the tree selection: the vectors of the traversal state and of
the result grow by what the outcome says, and checkpoints take back exactly what came after them. -/

namespace QtCesium.Selection

open TreeTraversalState

namespace Scene

variable (s : Scene)

def loadsInWorkerThread (task : TileLoadTask) : Bool := s.needsWorkerThreadLoading task.pTile

def loadsInMainThread (task : TileLoadTask) : Bool :=
  !s.needsWorkerThreadLoading task.pTile && s.needsMainThreadLoading task.pTile

/-- A tile asked for that goes into one of the load queues. -/
def loads (task : TileLoadTask) : Bool := s.loadsInWorkerThread task || s.loadsInMainThread task

/-- A tile asked for that is between states, and goes into neither queue. -/
def inTransition (task : TileLoadTask) : Bool :=
  !s.loads task && ((s.tile task.pTile).state = .contentLoading || (s.tile task.pTile).state = .unloading)

end Scene

/-- From one state of a view group to another within a frame: what came onto the render list, into the
fading-out set and into the load queues, and which tiles were asked for. -/
structure Extends (s : Scene) (g after : TilesetViewGroup) (shown faded : List TileId)
    (queued requested : List TileLoadTask) : Prop where
  shown : after.updateResult.tilesToRenderThisFrame = g.updateResult.tilesToRenderThisFrame ++ shown
  faded : ∀ tile, tile ∈ after.updateResult.tilesFadingOut ↔ tile ∈ g.updateResult.tilesFadingOut ∨ tile ∈ faded
  worker : after.workerThreadLoadQueue = g.workerThreadLoadQueue ++ queued.filter s.loadsInWorkerThread
  main : after.mainThreadLoadQueue = g.mainThreadLoadQueue ++ queued.filter s.loadsInMainThread
  loading : after.workerThreadLoadQueue.length + after.mainThreadLoadQueue.length + after.updateResult.tilesKicked =
    g.workerThreadLoadQueue.length + g.mainThreadLoadQueue.length + g.updateResult.tilesKicked +
      requested.countP s.loads
  already : after.tilesAlreadyLoadingOrUnloading =
    g.tilesAlreadyLoadingOrUnloading + requested.countP s.inTransition
  subset : queued ⊆ requested
  assertions : (requested.map TileLoadTask.pTile).Nodup →
    (∀ task ∈ requested, task.pTile ∉ (g.workerThreadLoadQueue ++ g.mainThreadLoadQueue).map TileLoadTask.pTile) →
    after.assertionsHold = g.assertionsHold

namespace Extends

variable {s : Scene} {g middle after : TilesetViewGroup} {shown faded shown' faded' : List TileId}
  {queued requested queued' requested' : List TileLoadTask}

theorem mem_queues (h : Extends s g after shown faded queued requested) {task : TileLoadTask}
    (htask : task ∈ after.workerThreadLoadQueue ++ after.mainThreadLoadQueue) :
    task ∈ g.workerThreadLoadQueue ++ g.mainThreadLoadQueue ∨ task ∈ queued := by
  rw [h.worker, h.main] at htask
  simp only [List.mem_append, List.mem_filter] at htask ⊢
  tauto

theorem trans (hfirst : Extends s g middle shown faded queued requested)
    (hsecond : Extends s middle after shown' faded' queued' requested') :
    Extends s g after (shown ++ shown') (faded ++ faded') (queued ++ queued') (requested ++ requested') where
  shown := by rw [hsecond.shown, hfirst.shown, List.append_assoc]
  faded tile := by rw [hsecond.faded, hfirst.faded, List.mem_append, or_assoc]
  worker := by rw [hsecond.worker, hfirst.worker, List.filter_append, List.append_assoc]
  main := by rw [hsecond.main, hfirst.main, List.filter_append, List.append_assoc]
  loading := by
    have h := hfirst.loading
    have h' := hsecond.loading
    rw [List.countP_append]
    omega
  already := by
    rw [hsecond.already, hfirst.already, List.countP_append]
    omega
  subset := List.append_subset.mpr ⟨fun task h => List.mem_append_left _ (hfirst.subset h),
    fun task h => List.mem_append_right _ (hsecond.subset h)⟩
  assertions hnodup hfree := by
    rw [List.map_append, List.nodup_append] at hnodup
    obtain ⟨hleft, hright, hdisjoint⟩ := hnodup
    have hmiddle := hfirst.assertions hleft fun task h => hfree task (List.mem_append_left _ h)
    refine (hsecond.assertions hright fun task h hqueued => ?_).trans hmiddle
    obtain ⟨other, hother, hsame⟩ := List.mem_map.mp hqueued
    rcases hfirst.mem_queues hother with hold | hnew
    · exact hfree task (List.mem_append_right _ h) (List.mem_map.mpr ⟨other, hold, hsame⟩)
    · exact hdisjoint _ (List.mem_map_of_mem (hfirst.subset hnew)) _ (List.mem_map_of_mem h) hsame

/-- A change of the traversal state and of the counters of visits. -/
theorem of_same (hshown : after.updateResult.tilesToRenderThisFrame = g.updateResult.tilesToRenderThisFrame)
    (hfaded : after.updateResult.tilesFadingOut = g.updateResult.tilesFadingOut)
    (hworker : after.workerThreadLoadQueue = g.workerThreadLoadQueue)
    (hmain : after.mainThreadLoadQueue = g.mainThreadLoadQueue)
    (hkicked : after.updateResult.tilesKicked = g.updateResult.tilesKicked)
    (halready : after.tilesAlreadyLoadingOrUnloading = g.tilesAlreadyLoadingOrUnloading)
    (hassertions : after.assertionsHold = g.assertionsHold) :
    Extends s g after [] [] [] [] where
  shown := by rw [hshown, List.append_nil]
  faded tile := by rw [hfaded]; simp
  worker := by rw [hworker, List.filter_nil, List.append_nil]
  main := by rw [hmain, List.filter_nil, List.append_nil]
  loading := by rw [hworker, hmain, hkicked]; rfl
  already := halready
  subset := List.Subset.refl _
  assertions _ _ := hassertions

end Extends

theorem extends_emplaceTileToRender (s : Scene) (tile : TileId) (g : TilesetViewGroup) :
    Extends s g (Scene.emplaceTileToRender tile g) [tile] [] [] [] where
  shown := rfl
  faded tile := by simp [Scene.emplaceTileToRender]
  worker := (List.append_nil _).symm
  main := (List.append_nil _).symm
  loading := rfl
  already := rfl
  subset := List.Subset.refl _
  assertions _ _ := rfl

/-- Which of the queues a task goes into, or whether its tile counts as one between states. -/
theorem addToLoadQueue_cases (s : Scene) (task : TileLoadTask) (g : TilesetViewGroup) :
    let checked := g.assert
      (!(g.workerThreadLoadQueue ++ g.mainThreadLoadQueue).any fun queued => queued.pTile = task.pTile)
    (s.loadsInWorkerThread task = true ∧
      s.addToLoadQueue task g = { checked with workerThreadLoadQueue := g.workerThreadLoadQueue ++ [task] }) ∨
    (s.loadsInMainThread task = true ∧ s.loadsInWorkerThread task = false ∧
      s.addToLoadQueue task g = { checked with mainThreadLoadQueue := g.mainThreadLoadQueue ++ [task] }) ∨
    (s.inTransition task = true ∧ s.loads task = false ∧ s.addToLoadQueue task g = { checked with
      tilesAlreadyLoadingOrUnloading := g.tilesAlreadyLoadingOrUnloading + 1 }) ∨
    (s.inTransition task = false ∧ s.loads task = false ∧ s.addToLoadQueue task g = checked) := by
  intro checked
  rw [Scene.addToLoadQueue, Scene.inTransition, Scene.loads, Scene.loadsInMainThread, Scene.loadsInWorkerThread]
  cases s.needsWorkerThreadLoading task.pTile with
  | true => exact .inl ⟨rfl, rfl⟩
  | false =>
      cases s.needsMainThreadLoading task.pTile with
      | true => exact .inr (.inl ⟨rfl, rfl, rfl⟩)
      | false =>
          by_cases hstate : (s.tile task.pTile).state = .contentLoading ∨ (s.tile task.pTile).state = .unloading
          · refine .inr (.inr (.inl ⟨?_, rfl, ?_⟩))
            · simpa using hstate
            · rw [if_neg Bool.false_ne_true, if_neg Bool.false_ne_true, if_pos hstate]
              rfl
          · refine .inr (.inr (.inr ⟨?_, rfl, ?_⟩))
            · simpa using hstate
            · rw [if_neg Bool.false_ne_true, if_neg Bool.false_ne_true, if_neg hstate]

/-- A tile that is not in the queues is asked for without a failed assertion. -/
theorem addToLoadQueue_assertions {s : Scene} {task : TileLoadTask} {g : TilesetViewGroup}
    (hfree : task.pTile ∉ (g.workerThreadLoadQueue ++ g.mainThreadLoadQueue).map TileLoadTask.pTile) :
    (s.addToLoadQueue task g).assertionsHold = g.assertionsHold := by
  have hnone : ((g.workerThreadLoadQueue ++ g.mainThreadLoadQueue).any fun queued => queued.pTile = task.pTile) = false := by
    rw [List.any_eq_false]
    intro queued hqueued hsame
    exact hfree (List.mem_map.mpr ⟨queued, hqueued, of_decide_eq_true hsame⟩)
  rcases addToLoadQueue_cases s task g with ⟨_, heq⟩ | ⟨_, _, heq⟩ | ⟨_, _, heq⟩ | ⟨_, _, heq⟩ <;>
    simp [heq, hnone]

theorem extends_addToLoadQueue (s : Scene) (task : TileLoadTask) (g : TilesetViewGroup) :
    Extends s g (s.addToLoadQueue task g) [] [] [task] [task] := by
  have hassertions : ([task].map TileLoadTask.pTile).Nodup →
      (∀ other ∈ [task], other.pTile ∉ (g.workerThreadLoadQueue ++ g.mainThreadLoadQueue).map TileLoadTask.pTile) →
      (s.addToLoadQueue task g).assertionsHold = g.assertionsHold := fun _ hfree =>
    addToLoadQueue_assertions (hfree task List.mem_cons_self)
  rcases addToLoadQueue_cases s task g with ⟨hworker, heq⟩ | ⟨hmain, hworker, heq⟩ | ⟨hstate, hloads, heq⟩ |
    ⟨hstate, hloads, heq⟩
  · have hmain : s.loadsInMainThread task = false := by
      rw [Scene.loadsInMainThread, ← Scene.loadsInWorkerThread, hworker, Bool.not_true, Bool.false_and]
    refine ⟨?_, ?_, ?_, ?_, ?_, ?_, List.Subset.refl _, hassertions⟩ <;>
      simp [heq, hworker, hmain, Scene.loads, Scene.inTransition]
    omega
  · refine ⟨?_, ?_, ?_, ?_, ?_, ?_, List.Subset.refl _, hassertions⟩ <;>
      simp [heq, hworker, hmain, Scene.loads, Scene.inTransition]
    omega
  · have hboth := Bool.or_eq_false_iff.mp hloads
    refine ⟨?_, ?_, ?_, ?_, ?_, ?_, List.Subset.refl _, hassertions⟩ <;>
      simp [heq, hstate, hloads, hboth.1, hboth.2]
  · have hboth := Bool.or_eq_false_iff.mp hloads
    refine ⟨?_, ?_, ?_, ?_, ?_, ?_, List.Subset.refl _, hassertions⟩ <;>
      simp [heq, hstate, hloads, hboth.1, hboth.2]

theorem extends_addTileToLoadQueue (s : Scene) (tile : TileId) (group : TileLoadPriorityGroup)
    (g : TilesetViewGroup) :
    Extends s g (s.addTileToLoadQueue tile group g) [] [] [s.task tile group] [s.task tile group] :=
  extends_addToLoadQueue s (s.task tile group) g

theorem extends_addToTilesFadingOut (s : Scene) (label : TileId × TileSelectionState) (g : TilesetViewGroup) :
    Extends s g (s.addToTilesFadingOutIfPreviouslyRendered label g) [] (s.shownOf [label]) [] [] := by
  rw [Scene.addToTilesFadingOutIfPreviouslyRendered, Scene.shownOf]
  cases hshown : s.wasShown label with
  | true =>
      rw [if_pos rfl, List.filter_singleton, hshown]
      constructor <;> simp [or_comm]
  | false =>
      rw [if_neg Bool.false_ne_true, List.filter_singleton, hshown]
      exact Extends.of_same rfl rfl rfl rfl rfl rfl rfl

theorem extends_foldl_addToTilesFadingOut (s : Scene) (labels : List (TileId × TileSelectionState))
    (g : TilesetViewGroup) :
    Extends s g (labels.foldl (fun g label => s.addToTilesFadingOutIfPreviouslyRendered label g) g) []
      (s.shownOf labels) [] [] := by
  induction labels generalizing g with
  | nil => exact Extends.of_same rfl rfl rfl rfl rfl rfl rfl
  | cons label labels ih =>
      have hsplit : s.shownOf (label :: labels) = s.shownOf [label] ++ s.shownOf labels := by
        rw [Scene.shownOf, Scene.shownOf, Scene.shownOf, ← List.map_append, ← List.filter_append, List.singleton_append]
      rw [List.foldl_cons, hsplit]
      exact (extends_addToTilesFadingOut s label g).trans (ih _)

/-! ### The visit of one tile -/

/-- Between the begin and the end of a tile's visit, which began in `start`: the tile is the current node, with
a state and what has been visited below it, and the group has grown by the given lists. -/
structure Visiting (s : Scene) (recorded : Forest (TileId × TileSelectionState)) (start g : TilesetViewGroup)
    (tile : TileId) (state : TileSelectionState) (below : Forest (TileId × TileSelectionState)) (previous next : Int)
    (shown faded : List TileId) (queued requested : List TileLoadTask) : Prop where
  standing : Standing recorded g.traversalState start.traversalState.currentTraversal tile state below previous
    start.traversalState.parentIndices
  next : g.traversalState.previousTraversalNextNodeIndex = next
  grown : Extends s start g shown faded queued requested

namespace Visiting

variable {s : Scene} {recorded : Forest (TileId × TileSelectionState)} {start g after : TilesetViewGroup}
  {tile : TileId} {state : TileSelectionState} {below : Forest (TileId × TileSelectionState)} {previous next : Int}
  {shown faded shown' faded' : List TileId} {queued requested queued' requested' : List TileLoadTask}

theorem extend (h : Visiting s recorded start g tile state below previous next shown faded queued requested)
    (htraversal : after.traversalState = g.traversalState)
    (hextends : Extends s g after shown' faded' queued' requested') :
    Visiting s recorded start after tile state below previous next (shown ++ shown') (faded ++ faded')
      (queued ++ queued') (requested ++ requested') :=
  ⟨htraversal ▸ h.standing, by rw [htraversal]; exact h.next, h.grown.trans hextends⟩

theorem getPreviousState_eq
    (h : Visiting s recorded start g tile state below previous next shown faded queued requested) :
    Scene.getPreviousState g = Seen.state (seenIn recorded) tile := by
  rw [Scene.getPreviousState, h.standing.seen.previousState_eq, Seen.state]

theorem previousDescendants_eq
    (h : Visiting s recorded start g tile state below previous next shown faded queued requested) :
    g.traversalState.previousDescendants = Seen.below (seenIn recorded) tile := by
  rw [h.standing.seen.previousDescendants_eq, Seen.below]

theorem setCurrentState (later : TileSelectionState)
    (h : Visiting s recorded start g tile state below previous next shown faded queued requested) :
    Visiting s recorded start (Scene.setCurrentState later g) tile later below previous next shown faded queued
      requested where
  standing := h.standing.setCurrentState later
  next := h.next
  grown := by
    have hsame : Extends s g (Scene.setCurrentState later g) [] [] [] [] := .of_same rfl rfl rfl rfl rfl rfl rfl
    simpa only [List.append_nil] using h.grown.trans hsame

/-- A change of the counters that no outcome speaks of. -/
theorem of_same (h : Visiting s recorded start g tile state below previous next shown faded queued requested)
    (htraversal : after.traversalState = g.traversalState)
    (hsame : Extends s g after [] [] [] []) :
    Visiting s recorded start after tile state below previous next shown faded queued requested := by
  simpa only [List.append_nil] using h.extend htraversal hsame

theorem countTileCulled
    (h : Visiting s recorded start g tile state below previous next shown faded queued requested) :
    Visiting s recorded start (Scene.countTileCulled g) tile state below previous next shown faded queued requested :=
  h.of_same rfl (.of_same rfl rfl rfl rfl rfl rfl rfl)

theorem emplaceTileToRender
    (h : Visiting s recorded start g tile state below previous next shown faded queued requested) :
    Visiting s recorded start (Scene.emplaceTileToRender tile g) tile state below previous next (shown ++ [tile])
      faded queued requested := by
  have hgrown := extends_emplaceTileToRender s tile g
  have htraversal : (Scene.emplaceTileToRender tile g).traversalState = g.traversalState := rfl
  simpa only [List.append_nil] using h.extend htraversal hgrown

theorem addTileToLoadQueue (group : TileLoadPriorityGroup)
    (h : Visiting s recorded start g tile state below previous next shown faded queued requested) :
    Visiting s recorded start (s.addTileToLoadQueue tile group g) tile state below previous next shown faded
      (queued ++ [s.task tile group]) (requested ++ [s.task tile group]) := by
  have htraversal : (s.addTileToLoadQueue tile group g).traversalState = g.traversalState := by
    rw [Scene.addTileToLoadQueue, Scene.addToLoadQueue]
    split
    · rfl
    · split
      · rfl
      · split <;> rfl
  simpa only [List.append_nil] using h.extend htraversal (extends_addTileToLoadQueue s tile group g)

theorem addPreviousDescendantsToTilesFadingOut
    (h : Visiting s recorded start g tile state below previous next shown faded queued requested) :
    Visiting s recorded start (s.addPreviousDescendantsToTilesFadingOut g) tile state below previous next shown
      (faded ++ s.fadedBelow (seenIn recorded) tile) queued requested := by
  have htraversal : ∀ (labels : List (TileId × TileSelectionState)) (g : TilesetViewGroup),
      (labels.foldl (fun g label => s.addToTilesFadingOutIfPreviouslyRendered label g) g).traversalState =
        g.traversalState := by
    intro labels
    induction labels with
    | nil => intro g; rfl
    | cons label labels ih =>
        intro g
        rw [List.foldl_cons, ih, Scene.addToTilesFadingOutIfPreviouslyRendered]
        split <;> rfl
  rw [Scene.addPreviousDescendantsToTilesFadingOut, h.previousDescendants_eq, Scene.fadedBelow]
  simpa only [List.append_nil] using h.extend (htraversal _ g) (extends_foldl_addToTilesFadingOut s _ g)

theorem addCurrentTileDescendantsToTilesFadingOut
    (h : Visiting s recorded start g tile state below previous next shown faded queued requested) :
    Visiting s recorded start (s.addCurrentTileDescendantsToTilesFadingOutIfPreviouslyRendered g) tile state below
      previous next shown (faded ++ s.fadedBelowRefined (seenIn recorded) tile) queued requested := by
  rw [Scene.addCurrentTileDescendantsToTilesFadingOutIfPreviouslyRendered, h.getPreviousState_eq,
    Scene.fadedBelowRefined]
  split
  · exact h.addPreviousDescendantsToTilesFadingOut
  · rw [List.append_nil]
    exact h

theorem addCurrentTileToTilesFadingOut
    (h : Visiting s recorded start g tile state below previous next shown faded queued requested) :
    Visiting s recorded start (s.addCurrentTileToTilesFadingOutIfPreviouslyRendered tile g) tile state below
      previous next shown (faded ++ s.fadedTile (seenIn recorded) tile) queued requested := by
  have htraversal : ∀ label, (s.addToTilesFadingOutIfPreviouslyRendered label g).traversalState = g.traversalState := by
    intro label
    rw [Scene.addToTilesFadingOutIfPreviouslyRendered]
    split <;> rfl
  rw [Scene.addCurrentTileToTilesFadingOutIfPreviouslyRendered, h.getPreviousState_eq, Scene.fadedTile]
  simpa only [List.append_nil] using h.extend (htraversal _) (extends_addToTilesFadingOut s _ g)

theorem createTraversalDetailsForSingleTile_eq
    (h : Visiting s recorded start g tile state below previous next shown faded queued requested) :
    s.createTraversalDetailsForSingleTile tile g = s.singleDetails (seenIn recorded) tile := by
  rw [Scene.createTraversalDetailsForSingleTile, h.getPreviousState_eq, h.previousDescendants_eq]
  rfl

end Visiting

/-! ### The visit of a level -/

/-- A visit of a whole level has an outcome of the tree selection. -/
structure Visited (s : Scene) (g after : TilesetViewGroup) (outcome : Outcome) : Prop where
  traversed : Traversed g.traversalState after.traversalState outcome.visited
  grown : Extends s g after (s.shown outcome.visited) outcome.faded outcome.queued outcome.requested

theorem TraversalDetails.new_merge (details : TraversalDetails) : TraversalDetails.new.merge details = details := by
  simp [TraversalDetails.new, TraversalDetails.merge]

theorem TraversalDetails.merge_new (details : TraversalDetails) : details.merge .new = details := by
  simp [TraversalDetails.new, TraversalDetails.merge]

theorem TraversalDetails.merge_assoc (first second third : TraversalDetails) :
    (first.merge second).merge third = first.merge (second.merge third) := by
  simp only [TraversalDetails.merge, Bool.and_assoc, Bool.or_assoc, Nat.add_assoc]

/-- What the visit of a level, to whose details it is added, has come to. -/
def Visits (s : Scene) (recorded : Forest (TileId × TileSelectionState)) (ancestorMeetsSse : Bool)
    (level : Forest TileId) (details : TraversalDetails) (g : TilesetViewGroup) (stop : Int)
    (result : TraversalDetails × TilesetViewGroup) : Prop :=
  ∃ outcome, Selects s (seenIn recorded) ancestorMeetsSse level outcome ∧
    result.1 = details.merge outcome.details ∧ Visited s g result.2 outcome ∧
    result.2.traversalState.previousTraversalNextNodeIndex = stop

/-- What a function that visits the children of a tile has to do. -/
def VisitsLevel (s : Scene) (recorded : Forest (TileId × TileSelectionState)) (level : Forest TileId)
    (visit : Bool → TilesetViewGroup → TraversalDetails × TilesetViewGroup) : Prop :=
  ∀ (ancestorMeetsSse : Bool) (g : TilesetViewGroup) (stop : Int),
    g.traversalState.previousTraversal = record 0 recorded → Expects recorded g.traversalState level stop →
    Visits s recorded ancestorMeetsSse level .new g stop (visit ancestorMeetsSse g)

namespace Visiting

variable {s : Scene} {recorded : Forest (TileId × TileSelectionState)} {start g after : TilesetViewGroup}
  {tile : TileId} {state : TileSelectionState} {below : Forest (TileId × TileSelectionState)} {previous next : Int}
  {shown faded : List TileId} {queued requested : List TileLoadTask}

theorem visited {outcome : Outcome} {stop : Int}
    (h : Visiting s recorded start g tile state below previous next shown faded queued requested)
    (hvisited : Visited s g after outcome) (hstop : after.traversalState.previousTraversalNextNodeIndex = stop) :
    Visiting s recorded start after tile state (below.append outcome.visited) previous stop
      (shown ++ s.shown outcome.visited) (faded ++ outcome.faded) (queued ++ outcome.queued)
      (requested ++ outcome.requested) where
  standing := ⟨h.standing.current.traversed hvisited.traversed,
    hvisited.traversed.previous.trans h.standing.traversal,
    h.standing.seen.congr hvisited.traversed.previous hvisited.traversed.indices⟩
  next := hstop
  grown := h.grown.trans hvisited.grown

/-- The end of the visit of a tile. -/
theorem finishNode (h : Visiting s recorded start g tile state below previous next shown faded queued requested)
    (hstart : start.traversalState.previousTraversal = record 0 recorded)
    (hafter : after = { g with traversalState := g.traversalState.finishNode }) :
    Traversed start.traversalState after.traversalState (.cons (tile, state) below .nil) ∧
      Extends s start after shown faded queued requested := by
  subst hafter
  obtain ⟨htraversal, hindices⟩ := h.standing.current.finishNode
  refine ⟨⟨htraversal, hindices, ?_⟩, ?_⟩
  · rw [finishNode_previousTraversal, h.standing.traversal, hstart]
  · have hsame : Extends s g { g with traversalState := g.traversalState.finishNode } [] [] [] [] :=
      .of_same rfl rfl rfl rfl rfl rfl rfl
    simpa only [List.append_nil] using h.grown.trans hsame

end Visiting

/-- What the visit of a tile has come to when the tile is about to be finished: an outcome for the tile, and an
index into the previous traversal from before or from after its children. -/
def Decides (s : Scene) (recorded : Forest (TileId × TileSelectionState)) (start : TilesetViewGroup)
    (ancestorMeetsSse : Bool) (tile : TileId) (children : Forest TileId) (previous first inner : Int)
    (result : TraversalDetails × TilesetViewGroup) : Prop :=
  ∃ state below next faded queued requested, (next = inner ∨ next = first) ∧
    SelectsTile s (seenIn recorded) ancestorMeetsSse tile children
      ⟨.cons (tile, state) below .nil, result.1, faded, queued, requested⟩ ∧
    Visiting s recorded start result.2 tile state below previous next (s.shown (.cons (tile, state) below .nil))
      faded queued requested

section Tile

variable {s : Scene} {recorded : Forest (TileId × TileSelectionState)} {start g : TilesetViewGroup}
  {ancestorMeetsSse : Bool} {tile : TileId} {children : Forest TileId} {previous first inner : Int}

/-- The visit of a tile has begun, and nothing has been decided. -/
def Begun (s : Scene) (recorded : Forest (TileId × TileSelectionState)) (start g : TilesetViewGroup) (tile : TileId)
    (previous first : Int) : Prop :=
  Visiting s recorded start g tile .none .nil previous first [] [] [] []

theorem renderLeaf_decides (hvisit : (s.cullResult tile).shouldVisit = true) (h : Begun s recorded start g tile previous first) :
    Decides s recorded start ancestorMeetsSse tile .nil previous first inner (s.renderLeaf tile g) := by
  have hqueued := ((h.setCurrentState .rendered).emplaceTileToRender).addTileToLoadQueue .normal
  refine ⟨.rendered, .nil, first, [], [s.task tile .normal], [s.task tile .normal], .inr rfl, ?_, hqueued⟩
  intro siblings rest hrest
  change Selects s _ _ _ (Outcome.append ⟨_, s.createTraversalDetailsForSingleTile tile _, _, _, _⟩ rest)
  rw [hqueued.createTraversalDetailsForSingleTile_eq]
  exact .leaf hvisit (.one .normal (s.tilePriority tile)) (List.cons_ne_nil _ _) hrest

theorem renderInnerTile_decides {own : List TileLoadTask} (hvisit : (s.cullResult tile).shouldVisit = true)
    (hrender : Renders s ancestorMeetsSse tile) (hown : AtMostOne tile own)
    (hasked : ancestorMeetsSse = false → own ≠ [])
    (hstay : (s.tile tile).isRenderable = true ∨ (Seen.state (seenIn recorded) tile).getOriginalResult ≠ .refined)
    (h : Visiting s recorded start g tile .none .nil previous first [] [] own own) :
    Decides s recorded start ancestorMeetsSse tile children previous first inner (s.renderInnerTile tile g) := by
  have hrendered := (h.addCurrentTileDescendantsToTilesFadingOut.setCurrentState .rendered).emplaceTileToRender
  refine ⟨.rendered, .nil, first, s.fadedBelowRefined (seenIn recorded) tile, own, own, .inr rfl, ?_, hrendered⟩
  intro siblings rest hrest
  change Selects s _ _ _ (Outcome.append ⟨_, s.createTraversalDetailsForSingleTile tile _, _, _, _⟩ rest)
  rw [hrendered.createTraversalDetailsForSingleTile_eq]
  exact .inner hvisit hrender hown hasked hstay hrest

theorem cullTile_decides (hcull : (s.cullResult tile).shouldVisit = false) (h : Begun s recorded start g tile previous first) :
    Decides s recorded start ancestorMeetsSse tile children previous first inner (s.cullTile tile g) := by
  have hvisit := ((h.addCurrentTileToTilesFadingOut.addCurrentTileDescendantsToTilesFadingOut).setCurrentState
    .culled).countTileCulled
  rw [Scene.cullTile]
  simp only [Scene.addCurrentTileAndDescendantsToTilesFadingOutIfPreviouslyRendered]
  split
  · next hholes =>
      have hqueued := hvisit.addTileToLoadQueue .normal
      refine ⟨.culled, .nil, first, _, _, _, .inr rfl, fun hrest => ?_, hqueued⟩
      rw [hqueued.createTraversalDetailsForSingleTile_eq]
      rw [Bool.and_eq_true, decide_eq_true_eq] at hholes
      exact .culled hcull (.one .normal (s.tilePriority tile)) (.inr ⟨rfl, hholes.1, hholes.2, List.cons_ne_nil _ _⟩)
        hrest
  · split
    · exact ⟨.culled, .nil, first, _, _, _, .inr rfl,
        fun hrest => .culled hcull (.one .preload (s.tilePriority tile)) (.inl rfl) hrest, hvisit.addTileToLoadQueue .preload⟩
    · exact ⟨.culled, .nil, first, _, _, _, .inr rfl, fun hrest => .culled hcull .none (.inl rfl) hrest, hvisit⟩

/-- Whether a tile has been asked for in its own visit, as the flag says. -/
inductive QueuedOnce (tile : TileId) : Bool → List TileLoadTask → Prop where
  | no : QueuedOnce tile false []
  | yes (group : TileLoadPriorityGroup) (priority : Rat) : QueuedOnce tile true [⟨tile, group, priority⟩]

theorem QueuedOnce.atMostOne {queuedForLoad : Bool} {own : List TileLoadTask}
    (h : QueuedOnce tile queuedForLoad own) : AtMostOne tile own := by
  cases h with
  | no => exact .none
  | yes group priority => exact .one group priority

/-- The tile itself on the render list, where it is rendered in addition to its children. -/
def additive (s : Scene) (tile : TileId) : List TileId := if (s.tile tile).refine = .add then [tile] else []

theorem loadAndRenderAdditiveRefinedTile_visiting {queuedForLoad : Bool} {own : List TileLoadTask}
    (hown : QueuedOnce tile queuedForLoad own)
    (h : Visiting s recorded start g tile .none .nil previous first [] [] own own) :
    ∃ before, QueuedOnce tile ((s.loadAndRenderAdditiveRefinedTile tile queuedForLoad g).1 || queuedForLoad) before ∧
      (queuedForLoad = true ∨ (s.tile tile).refine = .add → before ≠ []) ∧
      Visiting s recorded start (s.loadAndRenderAdditiveRefinedTile tile queuedForLoad g).2 tile .none .nil previous
        first (additive s tile) [] before before := by
  rw [Scene.loadAndRenderAdditiveRefinedTile, additive]
  by_cases hadd : (s.tile tile).refine = .add
  · rw [if_pos hadd, if_pos hadd]
    cases hown with
    | no => exact ⟨_, .yes .normal (s.tilePriority tile), fun _ => List.cons_ne_nil _ _,
        h.emplaceTileToRender.addTileToLoadQueue .normal⟩
    | yes group priority => exact ⟨_, .yes group priority, fun _ => List.cons_ne_nil _ _, h.emplaceTileToRender⟩
  · rw [if_neg hadd, if_neg hadd]
    refine ⟨own, hown, fun hasked => ?_, h⟩
    cases hown with
    | no => exact hasked.elim (fun hfalse => by cases hfalse) fun h => absurd h hadd
    | yes group priority => exact List.cons_ne_nil _ _

namespace Visiting

variable {state : TileSelectionState} {below : Forest (TileId × TileSelectionState)} {next : Int}
  {shown faded kickedTiles : List TileId} {queued requested kickedTasks : List TileLoadTask}

theorem kickDescendants (h : Visiting s recorded start g tile state below previous next shown faded queued requested) :
    Visiting s recorded start
      { g with traversalState := g.traversalState.forEachCurrentDescendant TileSelectionState.kick } tile state
      (kickAll below) previous next shown faded queued requested where
  standing := h.standing.forEachCurrentDescendant TileSelectionState.kick
  next := (forEachCurrentDescendant_frame _ _).2.2.trans h.next
  grown := by
    have hsame : Extends s g { g with
        traversalState := g.traversalState.forEachCurrentDescendant TileSelectionState.kick } [] [] [] [] :=
      .of_same rfl rfl rfl rfl rfl rfl rfl
    simpa only [List.append_nil] using h.grown.trans hsame

/-- Cutting the render list back to where it was before the children takes exactly their tiles off it. -/
theorem kickFromRenderList
    (h : Visiting s recorded start g tile state below previous next (additive s tile ++ kickedTiles) faded queued
      requested) :
    Visiting s recorded start
      (s.kickFromRenderList tile (start.updateResult.tilesToRenderThisFrame ++ additive s tile).length g) tile state
      below previous next [tile] faded queued requested where
  standing := h.standing
  next := h.next
  grown := by
    refine ⟨?_, h.grown.faded, h.grown.worker, h.grown.main, h.grown.loading, h.grown.already, h.grown.subset,
      h.grown.assertions⟩
    change (if (s.tile tile).refine = .add then g.updateResult.tilesToRenderThisFrame.take _ else
      g.updateResult.tilesToRenderThisFrame.take _ ++ [tile]) = _
    rw [h.grown.shown, ← List.append_assoc, List.take_left, additive]
    split
    · rfl
    · rw [List.append_nil]

/-- Restoring the checkpoint from before the children takes exactly their tasks out of the queues, and counts
the tasks that were in them as kicked. -/
theorem kickFromLoadQueues {checkpoint : TilesetViewGroup.LoadQueueCheckpoint}
    (h : Visiting s recorded start g tile state below previous next shown faded (queued ++ kickedTasks) requested)
    (hworker : checkpoint.workerThread =
      (start.workerThreadLoadQueue ++ queued.filter s.loadsInWorkerThread).length)
    (hmain : checkpoint.mainThread = (start.mainThreadLoadQueue ++ queued.filter s.loadsInMainThread).length) :
    Visiting s recorded start (Scene.kickFromLoadQueues checkpoint g) tile state below previous next shown faded queued
      requested where
  standing := h.standing
  next := h.next
  grown := by
    have hworker' : g.workerThreadLoadQueue.take checkpoint.workerThread =
        start.workerThreadLoadQueue ++ queued.filter s.loadsInWorkerThread := by
      rw [h.grown.worker, List.filter_append, ← List.append_assoc, hworker, List.take_left]
    have hmain' : g.mainThreadLoadQueue.take checkpoint.mainThread =
        start.mainThreadLoadQueue ++ queued.filter s.loadsInMainThread := by
      rw [h.grown.main, List.filter_append, ← List.append_assoc, hmain, List.take_left]
    have hloading := h.grown.loading
    have hworkerLength : (g.workerThreadLoadQueue.take checkpoint.workerThread).length ≤
        g.workerThreadLoadQueue.length := List.length_take_le' ..
    have hmainLength : (g.mainThreadLoadQueue.take checkpoint.mainThread).length ≤
        g.mainThreadLoadQueue.length := List.length_take_le' ..
    have hchecked : (decide (checkpoint.workerThread ≤ g.workerThreadLoadQueue.length) &&
        decide (checkpoint.mainThread ≤ g.mainThreadLoadQueue.length)) = true := by
      rw [Bool.and_eq_true, decide_eq_true_eq, decide_eq_true_eq]
      constructor
      · rwa [hworker', ← hworker] at hworkerLength
      · rwa [hmain', ← hmain] at hmainLength
    refine ⟨h.grown.shown, h.grown.faded, hworker', hmain', ?_, h.grown.already,
      (List.append_subset.mp h.grown.subset).1, fun hnodup hfree => ?_⟩
    · change (g.workerThreadLoadQueue.take checkpoint.workerThread).length +
        (g.mainThreadLoadQueue.take checkpoint.mainThread).length +
        (g.updateResult.tilesKicked + (g.workerThreadLoadQueue.length + g.mainThreadLoadQueue.length -
          ((g.workerThreadLoadQueue.take checkpoint.workerThread).length +
            (g.mainThreadLoadQueue.take checkpoint.mainThread).length))) = _
      omega
    · change (g.assertionsHold && _) = _
      rw [hchecked, Bool.and_true]
      exact h.grown.assertions hnodup hfree

end Visiting

theorem wasShown_kick (label : TileId × TileSelectionState) : s.wasShown (label.1, label.2.kick) = false := by
  obtain ⟨tile, state⟩ := label
  cases state <;> rfl

theorem shown_kickAll (below : Forest (TileId × TileSelectionState)) : s.shown (kickAll below) = [] := by
  rw [Scene.shown, Scene.shownOf, kickAll, Forest.preorder_map, List.map_eq_nil_iff, List.filter_eq_nil_iff]
  intro label hlabel
  obtain ⟨before, _, rfl⟩ := List.mem_map.mp hlabel
  rw [wasShown_kick]
  exact Bool.false_ne_true

theorem shown_cons (label : TileId × TileSelectionState) (below siblings : Forest (TileId × TileSelectionState)) :
    s.shown (.cons label below siblings) = s.shownOf [label] ++ (s.shown below ++ s.shown siblings) := by
  simp only [Scene.shown, Scene.shownOf, Forest.preorder_cons, ← List.map_append, ← List.filter_append,
    List.singleton_append]

theorem shown_rendered_kickAll (below : Forest (TileId × TileSelectionState)) :
    s.shown (.cons (tile, .rendered) (kickAll below) .nil) = [tile] := by
  rw [shown_cons, shown_kickAll]
  rfl

theorem shown_refined (below : Forest (TileId × TileSelectionState)) :
    s.shown (.cons (tile, .refined) below .nil) = additive s tile ++ s.shown below := by
  have hnil : s.shown .nil = [] := rfl
  rw [shown_cons, hnil, List.append_nil, Scene.shownOf, List.filter_singleton, Scene.wasShown, additive]
  by_cases hadd : (s.tile tile).refine = .add
  · simp [hadd]
  · simp [hadd]

/-- What kicking the descendants comes to: the tile is rendered in their stead, what they asked for is kept or
taken back, and then the tile itself is asked for unless it has been. -/
def Kicks (s : Scene) (recorded : Forest (TileId × TileSelectionState)) (start : TilesetViewGroup) (tile : TileId)
    (below : Forest (TileId × TileSelectionState)) (previous next : Int) (faded : List TileId) (notYet : Nat)
    (before kickedTasks requested : List TileLoadTask) (result : TraversalDetails × Bool × TilesetViewGroup) : Prop :=
  ∃ (restored : Bool) (after : List TileLoadTask),
    result.1 = ⟨(s.tile tile).isRenderable, Seen.state (seenIn recorded) tile = .rendered && (s.tile tile).isRenderable,
      if restored then (if (s.tile tile).isRenderable then 0 else 1) else notYet⟩ ∧
    QueuedOnce tile result.2.1 (before ++ after) ∧
    Visiting s recorded start result.2.2 tile .rendered (kickAll below) previous next [tile]
      (faded ++ s.fadedBelow (seenIn recorded) tile) (before ++ (if restored then [] else kickedTasks) ++ after)
      (requested ++ after)

theorem kickDescendantsAndRenderTile_kicks {queuedForLoad : Bool} {before kickedTasks requested : List TileLoadTask}
    {details : TraversalDetails} {below : Forest (TileId × TileSelectionState)} {kickedTiles faded : List TileId}
    {next : Int} {checkpoint : TilesetViewGroup.LoadQueueCheckpoint} {index : Nat}
    (hown : QueuedOnce tile queuedForLoad before)
    (hindex : index = (start.updateResult.tilesToRenderThisFrame ++ additive s tile).length)
    (hworker : checkpoint.workerThread =
      (start.workerThreadLoadQueue ++ before.filter s.loadsInWorkerThread).length)
    (hmain : checkpoint.mainThread = (start.mainThreadLoadQueue ++ before.filter s.loadsInMainThread).length)
    (h : Visiting s recorded start g tile .none below previous next (additive s tile ++ kickedTiles) faded
      (before ++ kickedTasks) requested) :
    Kicks s recorded start tile below previous next faded details.notYetRenderableCount before kickedTasks requested
      (s.kickDescendantsAndRenderTile tile details index checkpoint queuedForLoad g) := by
  subst hindex
  have hvisit := (h.kickDescendants.addPreviousDescendantsToTilesFadingOut.kickFromRenderList).setCurrentState .rendered
  rw [Scene.kickDescendantsAndRenderTile]
  simp only [hvisit.getPreviousState_eq]
  split
  · have hrestored := hvisit.kickFromLoadQueues hworker hmain
    cases hown with
    | no => exact ⟨true, [s.task tile .normal], rfl, .yes .normal (s.tilePriority tile),
        hrestored.addTileToLoadQueue .normal⟩
    | yes group priority =>
        refine ⟨true, [], rfl, .yes group priority, ?_⟩
        simpa only [List.append_nil, if_true] using hrestored
  · refine ⟨false, [], rfl, ?_, ?_⟩
    · rw [List.append_nil]
      exact hown
    · simpa only [List.append_nil, Bool.false_eq_true, if_false] using hvisit

/-- The request of a preloaded ancestor, the last that the visit of a tile can make. -/
theorem preloadAncestor_visiting {queuedForLoad : Bool} {own queued requested : List TileLoadTask}
    {state : TileSelectionState} {below : Forest (TileId × TileSelectionState)} {shown faded : List TileId} {next : Int}
    (hown : QueuedOnce tile queuedForLoad own)
    (h : Visiting s recorded start g tile state below previous next shown faded queued requested) :
    ∃ last, AtMostOne tile (own ++ last) ∧
      Visiting s recorded start
        (if s.options.preloadAncestors && !queuedForLoad then s.addTileToLoadQueue tile .preload g else g) tile state
        below previous next shown faded (queued ++ last) (requested ++ last) := by
  cases hown with
  | no =>
      cases s.options.preloadAncestors with
      | true => exact ⟨_, .one .preload (s.tilePriority tile), h.addTileToLoadQueue .preload⟩
      | false =>
          refine ⟨[], .none, ?_⟩
          rw [Bool.false_and, if_neg Bool.false_ne_true, List.append_nil, List.append_nil]
          exact h
  | yes group priority =>
      refine ⟨[], .one group priority, ?_⟩
      rw [Bool.not_true, Bool.and_false, if_neg Bool.false_ne_true, List.append_nil, List.append_nil]
      exact h

theorem willKick_cases {details : TraversalDetails} {seen : Seen} (h : s.willKick tile details (seen.state tile) = true) :
    ((details.allAreRenderable = false ∧ details.anyWereRenderedLastFrame = false) ∨
      s.kicksWhileFadingIn seen tile = true) ∧
    (s.options.loadingDescendantLimit < details.notYetRenderableCount ∨ (s.tile tile).isRenderable = true) := by
  rw [Scene.willKick, Bool.and_eq_true] at h
  constructor
  · rcases Bool.or_eq_true_iff.mp h.1 with hdescendant | hfading
    · rw [Bool.and_eq_true, Bool.not_eq_true', Bool.not_eq_true'] at hdescendant
      exact .inl hdescendant
    · exact .inr hfading
  · rcases Bool.or_eq_true_iff.mp h.2 with hcount | hrenderable
    · exact .inl (of_decide_eq_true hcount)
    · exact .inr hrenderable

/-- Descendants that are not ready stay only below a tile that could not be rendered in their stead. -/
theorem not_willKick_cases {details : TraversalDetails} {last : TileSelectionState}
    (h : s.willKick tile details last = false) :
    details.allAreRenderable = true ∨ details.anyWereRenderedLastFrame = true ∨
      (s.tile tile).isRenderable = false := by
  rw [Scene.willKick] at h
  cases hall : details.allAreRenderable with
  | true => exact .inl rfl
  | false =>
      cases hany : details.anyWereRenderedLastFrame with
      | true => exact .inr (.inl rfl)
      | false =>
          rw [hall, hany, Bool.and_eq_false_iff] at h
          rcases h with hwant | hrenderable
          · simp at hwant
          · rw [Bool.or_eq_false_iff] at hrenderable
            exact .inr (.inr hrenderable.2)

theorem refineTile_decides {queuedForLoad childrenMeetSse : Bool} {own : List TileLoadTask}
    {visitChildren : Bool → TilesetViewGroup → TraversalDetails × TilesetViewGroup}
    (hvisible : (s.cullResult tile).shouldVisit = true)
    (hrefine : Refines s (seenIn recorded) ancestorMeetsSse tile childrenMeetSse)
    (hmeets : childrenMeetSse ≠ ancestorMeetsSse → queuedForLoad = true) (hnonempty : children ≠ .nil)
    (hlevel : VisitsLevel s recorded children visitChildren)
    (hexpects : ∀ t : TreeTraversalState TileId TileSelectionState, t.previousTraversal = record 0 recorded →
      t.previousTraversalNextNodeIndex = first → Expects recorded t children inner)
    (hown : QueuedOnce tile queuedForLoad own)
    (h : Visiting s recorded start g tile .none .nil previous first [] [] own own) :
    Decides s recorded start ancestorMeetsSse tile children previous first inner
      (s.refineTile visitChildren tile childrenMeetSse queuedForLoad g) := by
  obtain ⟨before, hbefore, hadded, hloaded⟩ := loadAndRenderAdditiveRefinedTile_visiting hown h
  have hasked : ∀ after : List TileLoadTask,
      childrenMeetSse ≠ ancestorMeetsSse ∨ (s.tile tile).refine = .add → before ++ after ≠ [] := fun after hneed =>
    List.append_ne_nil_of_left_ne_nil (hadded (hneed.imp_left hmeets)) after
  rw [Scene.refineTile, h.getPreviousState_eq]
  generalize s.loadAndRenderAdditiveRefinedTile tile queuedForLoad g = loaded at hbefore hloaded ⊢
  obtain ⟨flag, g⟩ := loaded
  simp only at hbefore hloaded ⊢
  obtain ⟨outcome, hselects, hdetails, hvisited, hstop⟩ :=
    hlevel childrenMeetSse g inner hloaded.standing.traversal (hexpects _ hloaded.standing.traversal hloaded.next)
  rw [TraversalDetails.new_merge] at hdetails
  have hbelow := hloaded.visited hvisited hstop
  rw [Forest.nil_append, List.nil_append] at hbelow
  have hindex : g.updateResult.tilesToRenderThisFrame.length =
      (start.updateResult.tilesToRenderThisFrame ++ additive s tile).length := by rw [hloaded.grown.shown]
  have hworker : g.saveTileLoadQueueCheckpoint.workerThread =
      (start.workerThreadLoadQueue ++ before.filter s.loadsInWorkerThread).length := by
    rw [← hloaded.grown.worker]
    rfl
  have hmain : g.saveTileLoadQueueCheckpoint.mainThread =
      (start.mainThreadLoadQueue ++ before.filter s.loadsInMainThread).length := by
    rw [← hloaded.grown.main]
    rfl
  generalize g.updateResult.tilesToRenderThisFrame.length = index at hindex ⊢
  generalize g.saveTileLoadQueueCheckpoint = checkpoint at hworker hmain ⊢
  generalize visitChildren childrenMeetSse g = visitedChildren at hdetails hbelow ⊢
  obtain ⟨details, g⟩ := visitedChildren
  simp only at hdetails hbelow ⊢
  subst hdetails
  cases hkick : s.willKick tile outcome.details (Seen.state (seenIn recorded) tile) with
  | true =>
      have hkicks : Kicks s recorded start tile outcome.visited previous inner outcome.faded
          outcome.details.notYetRenderableCount before outcome.queued (before ++ outcome.requested)
          (s.kickDescendantsAndRenderTile tile outcome.details index checkpoint (flag || queuedForLoad) g) :=
        kickDescendantsAndRenderTile_kicks hbefore hindex hworker hmain hbelow
      rw [if_pos rfl]
      generalize s.kickDescendantsAndRenderTile tile outcome.details index checkpoint (flag || queuedForLoad) g =
        kicked at hkicks ⊢
      obtain ⟨details, flag', g⟩ := kicked
      obtain ⟨restored, after, hresult, hqueued, hvisit⟩ := hkicks
      simp only at hresult hqueued hvisit ⊢
      obtain ⟨last, hlast, hfinal⟩ := preloadAncestor_visiting hqueued hvisit
      rw [List.append_assoc] at hlast
      refine ⟨.rendered, kickAll outcome.visited, inner, outcome.faded ++ s.fadedBelow (seenIn recorded) tile,
        before ++ (if restored then [] else outcome.queued) ++ (after ++ last),
        before ++ outcome.requested ++ (after ++ last), .inl rfl, fun hrest => ?_, ?_⟩
      · obtain ⟨hreason, hwill⟩ := willKick_cases hkick
        exact .kicked hvisible hrefine hlast (hasked _) hnonempty hselects hreason hwill hresult hrest
      · rw [shown_rendered_kickAll]
        simpa only [List.append_assoc] using hfinal
  | false =>
      have hfaded : ∃ after, after = (if (s.tile tile).refine = .add then g else
            s.addCurrentTileToTilesFadingOutIfPreviouslyRendered tile g) ∧
          Visiting s recorded start after tile .none outcome.visited previous inner
            (additive s tile ++ s.shown outcome.visited)
            (outcome.faded ++ (if (s.tile tile).refine = .add then [] else s.fadedTile (seenIn recorded) tile))
            (before ++ outcome.queued) (before ++ outcome.requested) := by
        refine ⟨_, rfl, ?_⟩
        split
        · rw [List.append_nil]
          exact hbelow
        · exact hbelow.addCurrentTileToTilesFadingOut
      obtain ⟨g, hg, hvisit⟩ := hfaded
      rw [if_neg Bool.false_ne_true, ← hg]
      obtain ⟨last, hlast, hfinal⟩ := preloadAncestor_visiting hbefore (hvisit.setCurrentState .refined)
      refine ⟨.refined, outcome.visited, inner,
        outcome.faded ++ (if (s.tile tile).refine = .add then [] else s.fadedTile (seenIn recorded) tile),
        before ++ outcome.queued ++ last, before ++ outcome.requested ++ last, .inl rfl, fun hrest => ?_, ?_⟩
      · exact .refined hvisible hrefine hlast (hasked _) hnonempty hselects (not_willKick_cases hkick) hrest
      · rw [shown_refined]
        exact hfinal

theorem chooseAction_visiting {meetsSse : Bool} {shown faded : List TileId} {queued requested : List TileLoadTask}
    (h : Visiting s recorded start g tile .none .nil previous first shown faded queued requested) :
    Visiting s recorded start (s.chooseAction tile meetsSse ancestorMeetsSse g).2 tile .none .nil previous first shown
      faded queued requested := by
  have hcount : ∀ f : TilesetViewGroup → TilesetViewGroup,
      f = Scene.countTileOccluded ∨ f = Scene.countTileWaitingForOcclusionResults →
      Visiting s recorded start (f g) tile .none .nil previous first shown faded queued requested := by
    rintro f (rfl | rfl)
    · exact h.of_same rfl (.of_same rfl rfl rfl rfl rfl rfl rfl)
    · exact h.of_same rfl (.of_same rfl rfl rfl rfl rfl rfl rfl)
  rw [Scene.chooseAction]
  generalize (if (s.tile tile).unconditionallyRefine || (!meetsSse && !ancestorMeetsSse) then
    VisitTileAction.refine else VisitTileAction.render) = action
  split
  · split
    · exact hcount _ (.inl rfl)
    · split
      · exact hcount _ (.inr rfl)
      · exact h
    · exact h
  · exact h

/-- What the action says of the tile: it is refined only where it is not fine enough, and rendered where it is
or is occluded. -/
theorem chooseAction_action :
    (s.chooseAction tile (s.meetsSse tile (s.cullResult tile).culled) ancestorMeetsSse g).1 = .refine ∧
        s.isFineEnough ancestorMeetsSse tile = false ∨
      (s.chooseAction tile (s.meetsSse tile (s.cullResult tile).culled) ancestorMeetsSse g).1 = .render ∧
        Renders s ancestorMeetsSse tile := by
  rw [Renders, Scene.isFineEnough, Scene.chooseAction]
  generalize s.meetsSse tile (s.cullResult tile).culled = meetsSse
  cases hfine : (!(s.tile tile).unconditionallyRefine && (meetsSse || ancestorMeetsSse)) with
  | true =>
      have haction : ((s.tile tile).unconditionallyRefine || (!meetsSse && !ancestorMeetsSse)) = false := by
        revert hfine
        cases (s.tile tile).unconditionallyRefine <;> cases meetsSse <;> cases ancestorMeetsSse <;> decide
      simp [haction]
  | false =>
      have haction : ((s.tile tile).unconditionallyRefine || (!meetsSse && !ancestorMeetsSse)) = true := by
        revert hfine
        cases (s.tile tile).unconditionallyRefine <;> cases meetsSse <;> cases ancestorMeetsSse <;> decide
      simp only [haction, if_true]
      generalize hcheck : (s.options.enableOcclusionCulling && decide True && !(s.tile tile).unconditionallyRefine &&
        _) = shouldCheckOcclusion
      cases shouldCheckOcclusion with
      | false => exact .inl ⟨rfl, trivial⟩
      | true =>
          have hoccluded : s.options.enableOcclusionCulling = true ∧ (s.tile tile).unconditionallyRefine = false := by
            simp only [Bool.and_eq_true, Bool.not_eq_true'] at hcheck
            exact ⟨hcheck.1.1.1, hcheck.1.2⟩
          rw [if_pos rfl]
          split
          · exact .inr ⟨rfl, .inr hoccluded⟩
          · split
            · exact .inr ⟨rfl, .inr hoccluded⟩
            · exact .inl ⟨rfl, trivial⟩
          · exact .inl ⟨rfl, trivial⟩

/-- The trees that the scene's tiles are read from: below each node are the tile's children. -/
def HasTree (s : Scene) (level : Forest TileId) : Prop :=
  ∀ tile below, Forest.Node tile below level → (s.tile tile).children = below.roots

theorem HasTree.down {siblings : Forest TileId} (h : HasTree s (.cons tile children siblings)) : HasTree s children :=
  fun other below hnode => h other below (.down siblings hnode)

theorem HasTree.next {siblings : Forest TileId} (h : HasTree s (.cons tile children siblings)) : HasTree s siblings :=
  fun other below hnode => h other below (.next children hnode)

theorem children_isEmpty_iff (htree : (s.tile tile).children = children.roots) :
    (s.tile tile).children.isEmpty = true ↔ children = .nil := by
  rw [htree]
  cases children with
  | nil => exact ⟨fun _ => rfl, fun _ => rfl⟩
  | cons label below siblings => simp

theorem visitTile_decides {depth : Nat}
    {visitChildren : Bool → TilesetViewGroup → TraversalDetails × TilesetViewGroup}
    (htree : (s.tile tile).children = children.roots) (hvisible : (s.cullResult tile).shouldVisit = true)
    (hlevel : VisitsLevel s recorded children visitChildren)
    (hexpects : ∀ t : TreeTraversalState TileId TileSelectionState, t.previousTraversal = record 0 recorded →
      t.previousTraversalNextNodeIndex = first → Expects recorded t children inner)
    (h : Begun s recorded start g tile previous first) :
    Decides s recorded start ancestorMeetsSse tile children previous first inner
      (s.visitTile visitChildren depth (s.meetsSse tile (s.cullResult tile).culled) ancestorMeetsSse tile g) := by
  have hcounted : Begun s recorded start (Scene.countTileVisited depth g) tile previous first :=
    h.of_same rfl (.of_same rfl rfl rfl rfl rfl rfl rfl)
  rw [Scene.visitTile]
  dsimp only
  by_cases hleaf : (s.tile tile).children.isEmpty = true
  · rw [if_pos hleaf]
    obtain rfl := (children_isEmpty_iff htree).mp hleaf
    exact renderLeaf_decides hvisible hcounted
  · have hnonempty : children ≠ .nil := fun hnil => hleaf ((children_isEmpty_iff htree).mpr hnil)
    rw [if_neg hleaf, hcounted.getPreviousState_eq]
    generalize hmeets : s.meetsSse tile (s.cullResult tile).culled = meetsSse
    have hchosen : Visiting s recorded start
        (s.chooseAction tile meetsSse ancestorMeetsSse (Scene.countTileVisited depth g)).2 tile .none .nil previous first
        [] [] [] [] := chooseAction_visiting hcounted
    have haction : (s.chooseAction tile meetsSse ancestorMeetsSse (Scene.countTileVisited depth g)).1 = .refine ∧
          s.isFineEnough ancestorMeetsSse tile = false ∨
        (s.chooseAction tile meetsSse ancestorMeetsSse (Scene.countTileVisited depth g)).1 = .render ∧
          Renders s ancestorMeetsSse tile := by
      rw [← hmeets]
      exact chooseAction_action
    generalize s.chooseAction tile meetsSse ancestorMeetsSse (Scene.countTileVisited depth g) = chosen
      at hchosen haction ⊢
    obtain ⟨action, g⟩ := chosen
    rcases haction with ⟨rfl, hcoarse⟩ | ⟨rfl, hrender⟩
    · exact refineTile_decides hvisible (.coarse hcoarse) (absurd rfl) hnonempty hlevel hexpects .no hchosen
    · dsimp only
      cases hmust : s.mustContinueRefiningToDeeperTiles tile (Seen.state (seenIn recorded) tile) with
      | true =>
          rw [if_pos rfl]
          have hdeeper : Refines s (seenIn recorded) ancestorMeetsSse tile true := by
            rw [Scene.mustContinueRefiningToDeeperTiles, Bool.and_eq_true, Bool.not_eq_true'] at hmust
            exact .deeper hrender hmust.2 (of_decide_eq_true hmust.1)
          cases ancestorMeetsSse with
          | true => exact refineTile_decides hvisible hdeeper (absurd rfl) hnonempty hlevel hexpects .no hchosen
          | false =>
              exact refineTile_decides hvisible hdeeper (fun _ => rfl) hnonempty hlevel hexpects
                (.yes .urgent (s.tilePriority tile)) (hchosen.addTileToLoadQueue .urgent)
      | false =>
          rw [if_neg Bool.false_ne_true]
          have hstay : (s.tile tile).isRenderable = true ∨
              (Seen.state (seenIn recorded) tile).getOriginalResult ≠ .refined := by
            rw [Scene.mustContinueRefiningToDeeperTiles, Bool.and_eq_false_iff] at hmust
            rcases hmust with hstate | hrenderable
            · exact .inr (of_decide_eq_false hstate)
            · exact .inl (by simpa using hrenderable)
          cases ancestorMeetsSse with
          | true => exact renderInnerTile_decides hvisible hrender .none (fun h => by cases h) hstay hchosen
          | false =>
              exact renderInnerTile_decides hvisible hrender (.one .normal (s.tilePriority tile))
                (fun _ => List.cons_ne_nil _ _) hstay (hchosen.addTileToLoadQueue .normal)

/-- What the visit of the first tile of a level has come to: an outcome for it, and its siblings next. -/
def VisitsTile (s : Scene) (recorded : Forest (TileId × TileSelectionState)) (ancestorMeetsSse : Bool) (tile : TileId)
    (children siblings : Forest TileId) (start : TilesetViewGroup) (stop : Int)
    (result : TraversalDetails × TilesetViewGroup) : Prop :=
  ∃ own, SelectsTile s (seenIn recorded) ancestorMeetsSse tile children own ∧ result.1 = own.details ∧
    Visited s start result.2 own ∧ Expects recorded result.2.traversalState siblings stop

theorem visitTileIfNeeded_visitsTile {depth : Nat} {siblings : Forest TileId} {stop : Int}
    {visitChildren : Bool → TilesetViewGroup → TraversalDetails × TilesetViewGroup}
    (hnodup : (recorded.keys Prod.fst).Nodup) (htree : (s.tile tile).children = children.roots)
    (hlevel : VisitsLevel s recorded children visitChildren)
    (hrecorded : start.traversalState.previousTraversal = record 0 recorded)
    (hexpects : Expects recorded start.traversalState (.cons tile children siblings) stop) :
    VisitsTile s recorded ancestorMeetsSse tile children siblings start stop
      (s.visitTileIfNeeded visitChildren depth ancestorMeetsSse tile start) := by
  obtain ⟨hseen, inner, hinner, hrest⟩ := hexpects.beginNode hrecorded hnodup
  obtain ⟨previous, hstanding⟩ := Standing.beginNode start.traversalState hrecorded hseen
  have hbegun : Begun s recorded start
      { start with traversalState := start.traversalState.beginNode tile } tile previous
      (start.traversalState.beginNode tile).previousTraversalNextNodeIndex :=
    ⟨hstanding, rfl, .of_same rfl rfl rfl rfl rfl rfl rfl⟩
  have hchildren : ∀ t : TreeTraversalState TileId TileSelectionState, t.previousTraversal = record 0 recorded →
      t.previousTraversalNextNodeIndex = (start.traversalState.beginNode tile).previousTraversalNextNodeIndex →
      Expects recorded t children inner := fun t ht hnext =>
    hinner.congr (ht.trans hstanding.traversal.symm) hnext
  have hdecides : ∃ result, result = (if !(s.cullResult tile).shouldVisit then
        s.cullTile tile { start with traversalState := start.traversalState.beginNode tile }
      else
        s.visitTile visitChildren depth (s.meetsSse tile (s.cullResult tile).culled) ancestorMeetsSse tile
          (if (s.cullResult tile).culled then
            Scene.countCulledTileVisited { start with traversalState := start.traversalState.beginNode tile }
          else { start with traversalState := start.traversalState.beginNode tile })) ∧
      Decides s recorded start ancestorMeetsSse tile children previous
        (start.traversalState.beginNode tile).previousTraversalNextNodeIndex inner result := by
    refine ⟨_, rfl, ?_⟩
    cases hvisible : (s.cullResult tile).shouldVisit with
    | false => exact cullTile_decides hvisible hbegun
    | true =>
        apply visitTile_decides htree hvisible hlevel hchildren
        split
        · exact hbegun.of_same rfl (.of_same rfl rfl rfl rfl rfl rfl rfl)
        · exact hbegun
  obtain ⟨result, hresult, state, below, next, faded, queued, requested, hnext, hselects, hvisit⟩ := hdecides
  rw [Scene.visitTileIfNeeded]
  dsimp only
  rw [← hresult]
  obtain ⟨details, g⟩ := result
  obtain ⟨htraversed, hgrown⟩ := hvisit.finishNode hrecorded rfl
  refine ⟨⟨.cons (tile, state) below .nil, details, faded, queued, requested⟩, hselects, rfl,
    ⟨htraversed, hgrown⟩, ?_⟩
  apply hrest g.traversalState (hvisit.standing.traversal.trans hrecorded.symm)
    (hvisit.standing.current.indices.trans hstanding.current.indices.symm)
  rw [hvisit.next]
  exact hnext

end Tile

theorem shown_append (s : Scene) (first second : Forest (TileId × TileSelectionState)) :
    s.shown (first.append second) = s.shown first ++ s.shown second := by
  simp only [Scene.shown, Scene.shownOf, Forest.preorder_append, List.filter_append, List.map_append]

theorem Visited.trans {s : Scene} {g middle after : TilesetViewGroup} {first second : Outcome}
    (hfirst : Visited s g middle first) (hsecond : Visited s middle after second) :
    Visited s g after (first.append second) := by
  refine ⟨hfirst.traversed.trans hsecond.traversed, ?_⟩
  change Extends s g after (s.shown (first.visited.append second.visited)) _ _ _
  rw [shown_append]
  exact hfirst.grown.trans hsecond.grown

/-- The visit of a level refines the tree selection. The induction is on the level: the children of a tile are
visited by the same function one level down, and what it is to do there is what the visit of the tile needs. -/
theorem visitVisibleChildren_visits (s : Scene) {recorded : Forest (TileId × TileSelectionState)}
    (hnodup : (recorded.keys Prod.fst).Nodup) {level : Forest TileId} (htree : HasTree s level) (depth : Nat)
    (ancestorMeetsSse : Bool) (details : TraversalDetails) (g : TilesetViewGroup) (stop : Int)
    (hrecorded : g.traversalState.previousTraversal = record 0 recorded)
    (hexpects : Expects recorded g.traversalState level stop) :
    Visits s recorded ancestorMeetsSse level details g stop
      (s.visitVisibleChildren level depth ancestorMeetsSse details g) := by
  induction level generalizing depth ancestorMeetsSse details g stop with
  | nil =>
      refine ⟨.nil, .nil _, ?_, ⟨.refl _, .of_same rfl rfl rfl rfl rfl rfl rfl⟩, hexpects.stop_of_nil.symm⟩
      exact (TraversalDetails.merge_new details).symm
  | cons tile children siblings ihChildren ihSiblings =>
      have hchildren : VisitsLevel s recorded children fun ancestorMeetsSse g =>
          s.visitVisibleChildren children (depth + 1) ancestorMeetsSse .new g := by
        intro ancestorMeetsSse g stop hrecorded hexpects
        exact ihChildren htree.down (depth + 1) ancestorMeetsSse .new g stop hrecorded hexpects
      have htile : VisitsTile s recorded ancestorMeetsSse tile children siblings g stop
          (s.visitTileIfNeeded (fun ancestorMeetsSse g =>
            s.visitVisibleChildren children (depth + 1) ancestorMeetsSse .new g) depth ancestorMeetsSse tile g) :=
        visitTileIfNeeded_visitsTile hnodup (htree tile children (.here siblings)) hchildren hrecorded hexpects
      rw [Scene.visitVisibleChildren]
      generalize s.visitTileIfNeeded _ depth ancestorMeetsSse tile g = result at htile ⊢
      obtain ⟨childTraversal, middle⟩ := result
      obtain ⟨own, hown, hdetails, hvisited, hrest⟩ := htile
      obtain ⟨rest, hselects, hmerged, hlater, hstop⟩ := ihSiblings htree.next depth ancestorMeetsSse
        (details.merge childTraversal) middle stop (hvisited.traversed.previous.trans hrecorded) hrest
      refine ⟨own.append rest, hown hselects, ?_, hvisited.trans hlater, hstop⟩
      change _ = details.merge (own.details.merge rest.details)
      rw [← TraversalDetails.merge_assoc, ← hdetails]
      exact hmerged

end QtCesium.Selection
