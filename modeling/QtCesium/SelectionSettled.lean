import QtCesium.SelectionFrames

/-! The selection once nothing that it asks for is left to load: it is then the one that the screen-space error
alone decides, whatever the frames before have left. -/

namespace QtCesium.Selection

open TreeTraversalState

/-- The selection by visibility and screen-space error alone. -/
def Scene.ideal (s : Scene) : Forest TileId → Forest (TileId × TileSelectionState)
  | .nil => .nil
  | .cons tile children siblings =>
    if !(s.cullResult tile).shouldVisit then .cons (tile, .culled) .nil (ideal s siblings)
    else if children = .nil ∨ s.isFineEnough false tile then .cons (tile, .rendered) .nil (ideal s siblings)
    else .cons (tile, .refined) (ideal s children) (ideal s siblings)

/-- A tile that can be rendered, or that is there only to be refined. -/
def Ready (s : Scene) (tile : TileId) : Prop :=
  (s.tile tile).isRenderable = true ∨ (s.tile tile).unconditionallyRefine = true ∧ (s.tile tile).children ≠ []

variable {s : Scene} {seen : Seen} {ancestorMeetsSse : Bool} {level : Forest TileId} {outcome : Outcome}
  {tile : TileId}

theorem AtMostOne.ready {own : List TileLoadTask} (hown : AtMostOne tile own) (hasked : own ≠ [])
    (hready : ∀ task ∈ own, Ready s task.pTile) : Ready s tile := by
  cases hown with
  | none => exact absurd rfl hasked
  | one group priority => exact hready _ List.mem_cons_self

theorem Ready.isRenderable (h : Ready s tile) (hplain : (s.tile tile).unconditionallyRefine = false) :
    (s.tile tile).isRenderable = true := by
  rcases h with hrenderable | ⟨hrefine, _⟩
  · exact hrenderable
  · rw [hplain] at hrefine
    cases hrefine

theorem Ready.isRenderable_of_leaf (h : Ready s tile) (hleaf : (s.tile tile).children = []) :
    (s.tile tile).isRenderable = true := by
  rcases h with hrenderable | ⟨_, hchildren⟩
  · exact hrenderable
  · exact absurd hleaf hchildren

theorem isFineEnough_plain (h : s.isFineEnough ancestorMeetsSse tile = true) :
    (s.tile tile).unconditionallyRefine = false := by
  rw [Scene.isFineEnough, Bool.and_eq_true, Bool.not_eq_true'] at h
  exact h.1

/-- Where holes are forbidden, a tile that is there only to be refined is never culled in place of its children. -/
theorem cullResult_plain (hcull : (s.cullResult tile).shouldVisit = false) (hholes : s.options.forbidHoles = true)
    (hreplace : (s.tile tile).refine = .replace) : (s.tile tile).unconditionallyRefine = false := by
  by_contra hrefine
  rw [Bool.not_eq_false] at hrefine
  rw [Scene.cullResult] at hcull
  generalize s.fogCull tile _ = result at hcull
  cases hresult : result.shouldVisit <;> simp [hholes, hreplace, hrefine, hresult] at hcull

theorem Renders.isFineEnough (h : Renders s ancestorMeetsSse tile) (hocclusion : s.options.enableOcclusionCulling = false) :
    s.isFineEnough ancestorMeetsSse tile = true := by
  rcases h with hfine | ⟨hculling, _⟩
  · exact hfine
  · rw [hocclusion] at hculling
    cases hculling

/-- What a level that asks for ready tiles only comes to. -/
structure Settles (s : Scene) (level : Forest TileId) (outcome : Outcome) : Prop where
  visited : outcome.visited = s.ideal level
  renderable : outcome.details.allAreRenderable = true
  ready : ∀ tile ∈ s.shown outcome.visited, Ready s tile

theorem wasShown_refined (h : s.wasShown (tile, .refined) = true) : (s.tile tile).refine = .add := by
  simpa [Scene.wasShown] using h

theorem Settles.cons {children siblings : Forest TileId} {state : TileSelectionState}
    {under : Forest (TileId × TileSelectionState)} {details : TraversalDetails} {faded : List TileId}
    {queued own : List TileLoadTask} {rest : Outcome}
    (hideal : s.ideal (.cons tile children siblings) = .cons (tile, state) under (s.ideal siblings))
    (hdetails : details.allAreRenderable = true) (hself : s.wasShown (tile, state) = true → Ready s tile)
    (hunder : ∀ other ∈ s.shown under, Ready s other) (hrest : Settles s siblings rest) :
    Settles s (.cons tile children siblings)
      (Outcome.append ⟨.cons (tile, state) under .nil, details, faded, queued, own⟩ rest) where
  visited := by
    rw [hideal, ← hrest.visited]
    rfl
  renderable := Bool.and_eq_true_iff.mpr ⟨hdetails, hrest.renderable⟩
  ready other hother := by
    rcases mem_shown_cons.mp hother with hown | hbelow | hlater
    · obtain ⟨rfl, hshown⟩ := mem_shownOf_singleton.mp hown
      exact hself hshown
    · exact hunder other hbelow
    · exact hrest.ready other hlater

section Ideal

variable {children siblings : Forest TileId}

theorem ideal_culled (hvisit : (s.cullResult tile).shouldVisit = false) :
    s.ideal (.cons tile children siblings) = .cons (tile, .culled) .nil (s.ideal siblings) := by
  rw [Scene.ideal, hvisit]
  rfl

theorem ideal_rendered (hvisit : (s.cullResult tile).shouldVisit = true)
    (hfine : children = .nil ∨ s.isFineEnough false tile = true) :
    s.ideal (.cons tile children siblings) = .cons (tile, .rendered) .nil (s.ideal siblings) := by
  rw [Scene.ideal, hvisit, if_neg (by decide), if_pos hfine]

theorem ideal_refined (hvisit : (s.cullResult tile).shouldVisit = true) (hnonempty : children ≠ .nil)
    (hcoarse : s.isFineEnough false tile = false) :
    s.ideal (.cons tile children siblings) = .cons (tile, .refined) (s.ideal children) (s.ideal siblings) := by
  have hnot : ¬(children = .nil ∨ s.isFineEnough false tile = true) := by
    rintro (hnil | hfine)
    · exact hnonempty hnil
    · rw [hcoarse] at hfine
      cases hfine
  rw [Scene.ideal, hvisit, if_neg (by decide), if_neg hnot]

end Ideal

/-- What is asked for in a level before its other tiles. -/
theorem ready_own {own : Outcome} {rest : Outcome} (hready : ∀ task ∈ (own.append rest).requested, Ready s task.pTile) :
    (∀ task ∈ own.requested, Ready s task.pTile) ∧ ∀ task ∈ rest.requested, Ready s task.pTile :=
  List.forall_mem_append.mp hready

section Fading

variable {children siblings : Forest TileId}
  (hfading : ∀ other ∈ (Forest.cons tile children siblings).preorder, s.kicksWhileFadingIn seen other = false)

include hfading

theorem fading_down : ∀ other ∈ children.preorder, s.kicksWhileFadingIn seen other = false :=
  fun other h => hfading other (List.mem_cons_of_mem _ (List.mem_append_left _ h))

theorem fading_next : ∀ other ∈ siblings.preorder, s.kicksWhileFadingIn seen other = false :=
  fun other h => hfading other (List.mem_cons_of_mem _ (List.mem_append_right _ h))

end Fading

/-- A tile whose children are visited without need for it to be ready would have been asked for. -/
theorem Refines.coarse_of_ready {childrenMeetSse : Bool} {own : List TileLoadTask}
    (h : Refines s seen false tile childrenMeetSse) (hocclusion : s.options.enableOcclusionCulling = false)
    (hown : AtMostOne tile own) (hasked : childrenMeetSse ≠ false ∨ (s.tile tile).refine = .add → own ≠ [])
    (hready : ∀ task ∈ own, Ready s task.pTile) : childrenMeetSse = false ∧ s.isFineEnough false tile = false := by
  cases h with
  | coarse hcoarse => exact ⟨rfl, hcoarse⟩
  | deeper hrender hnot _ =>
      have hplain := isFineEnough_plain (hrender.isFineEnough hocclusion)
      have hrenderable := (hown.ready (hasked (.inl (by decide))) hready).isRenderable hplain
      rw [hnot] at hrenderable
      cases hrenderable

/-- The induction is on the outcome. A tile that has to keep its descendants although it is fine enough would have
been asked for, so that it is ready; and where all below it settles, nothing is left to kick. -/
theorem Selects.settles (h : Selects s seen ancestorMeetsSse level outcome) (hancestor : ancestorMeetsSse = false)
    (htree : HasTree s level) (hocclusion : s.options.enableOcclusionCulling = false)
    (hfading : ∀ tile ∈ level.preorder, s.kicksWhileFadingIn seen tile = false)
    (hready : ∀ task ∈ outcome.requested, Ready s task.pTile) : Settles s level outcome := by
  induction h with
  | nil => exact ⟨rfl, rfl, fun tile htile => absurd htile List.not_mem_nil⟩
  | culled hvisit hown hdetails _ ih =>
      obtain ⟨hself, hlater⟩ := ready_own hready
      have hrest := ih hancestor htree.next (fading_next hfading) hlater
      refine .cons (ideal_culled hvisit) ?_ (fun h => by simp [Scene.wasShown] at h) (fun other h => by cases h) hrest
      rcases hdetails with rfl | ⟨rfl, hholes, hreplace, hasked⟩
      · rfl
      · exact (hown.ready hasked hself).isRenderable (cullResult_plain hvisit hholes hreplace)
  | leaf hvisit hown hasked _ ih =>
      obtain ⟨hself, hlater⟩ := ready_own hready
      have hrest := ih hancestor htree.next (fading_next hfading) hlater
      have htile := hown.ready hasked hself
      exact .cons (ideal_rendered hvisit (.inl rfl)) (htile.isRenderable_of_leaf (htree _ _ (.here _))) (fun _ => htile)
        (fun other h => by cases h) hrest
  | inner hvisit hrender hown hasked _ _ ih =>
      obtain ⟨hself, hlater⟩ := ready_own hready
      have hrest := ih hancestor htree.next (fading_next hfading) hlater
      subst hancestor
      have hfine := hrender.isFineEnough hocclusion
      have htile := hown.ready (hasked rfl) hself
      exact .cons (ideal_rendered hvisit (.inr hfine)) (htile.isRenderable (isFineEnough_plain hfine)) (fun _ => htile)
        (fun other h => by cases h) hrest
  | refined hvisit hrefine hown hasked hnonempty _ _ _ ihBelow ihRest =>
      obtain ⟨hself, hlater⟩ := ready_own hready
      obtain ⟨hinner, hafter⟩ := List.forall_mem_append.mp hself
      obtain ⟨hbefore, hinner⟩ := List.forall_mem_append.mp hinner
      have htasks := List.forall_mem_append.mpr ⟨hbefore, hafter⟩
      subst hancestor
      obtain ⟨rfl, hcoarse⟩ := hrefine.coarse_of_ready hocclusion hown hasked htasks
      have hbelow := ihBelow rfl htree.down (fading_down hfading) hinner
      have hrest := ihRest rfl htree.next (fading_next hfading) hlater
      refine .cons ((ideal_refined hvisit hnonempty hcoarse).trans (by rw [hbelow.visited])) hbelow.renderable ?_
        hbelow.ready hrest
      exact fun hshown => hown.ready (hasked (.inr (wasShown_refined hshown))) htasks
  | kicked hvisit hrefine hown hasked hnonempty _ hreason _ _ _ ihBelow _ =>
      obtain ⟨hself, _⟩ := ready_own hready
      obtain ⟨hinner, hafter⟩ := List.forall_mem_append.mp hself
      obtain ⟨hbefore, hinner⟩ := List.forall_mem_append.mp hinner
      subst hancestor
      obtain ⟨rfl, hcoarse⟩ := hrefine.coarse_of_ready hocclusion hown hasked
        (List.forall_mem_append.mpr ⟨hbefore, hafter⟩)
      have hbelow := ihBelow rfl htree.down (fading_down hfading) hinner
      rcases hreason with ⟨hnot, _⟩ | hfade
      · rw [hbelow.renderable] at hnot
        cases hnot
      · rw [hfading _ List.mem_cons_self] at hfade
        cases hfade

/-! ### Frames -/

/-- A tile as `updateTileContent` leaves it: only render content waits for the main thread, and an overlay that has
no tile yet has one to load. -/
structure Tile.Updated (tile : Tile) : Prop where
  contentLoaded : tile.state = .contentLoaded → tile.isRenderContent = true
  overlays : tile.mappedRasterTiles.all RasterMappedTo3DTile.hasReadyTile = true ∨
    tile.anyRasterOverlaysNeedLoading = true

/-- A tile that neither loads nor is between states is ready. -/
theorem Tile.Updated.ready {task : TileLoadTask} (h : (s.tile task.pTile).Updated) (hloads : s.loads task = false)
    (htransition : s.inTransition task = false) : Ready s task.pTile := by
  rw [Scene.inTransition, hloads, Bool.not_false, Bool.true_and, Bool.or_eq_false_iff] at htransition
  obtain ⟨hloading, hunloading⟩ := htransition
  rw [Scene.loads, Bool.or_eq_false_iff, Scene.loadsInMainThread, Scene.loadsInWorkerThread] at hloads
  obtain ⟨hworker, hmain⟩ := hloads
  rw [hworker, Bool.not_false, Bool.true_and, Scene.needsMainThreadLoading] at hmain
  simp only [Scene.needsWorkerThreadLoading, Bool.or_eq_false_iff] at hworker
  obtain ⟨⟨⟨hunloaded, hfailed⟩, _⟩, hoverlays⟩ := hworker
  have hready := h.overlays.resolve_right (by rw [hoverlays]; exact Bool.false_ne_true)
  rw [Ready, Tile.isRenderable, hready]
  cases hstate : (s.tile task.pTile).state with
  | unloading => simp [hstate] at hunloading
  | failedTemporarily => simp [hstate] at hfailed
  | unloaded => simp [hstate] at hunloaded
  | contentLoading => simp [hstate] at hloading
  | contentLoaded => simp [hstate, h.contentLoaded hstate] at hmain
  | done =>
      by_cases hplain : (!(s.tile task.pTile).unconditionallyRefine || (s.tile task.pTile).children.isEmpty) = true
      · simp [hplain]
      · right
        simpa using hplain
  | failed => exact .inl rfl

/-- A frame that selects what visibility and screen-space error alone decide, all of it ready. -/
structure Settled (s : Scene) (level : Forest TileId) (g : TilesetViewGroup) : Prop where
  current : g.traversalState.currentTraversal = record 0 (s.withLodTransitions.ideal level)
  shown : g.updateResult.tilesToRenderThisFrame = s.shown (s.withLodTransitions.ideal level)
  ready : ∀ tile ∈ g.updateResult.tilesToRenderThisFrame, Ready s tile

/-- No tile holds back its descendants because of what other frames have shown: occlusion is not asked for, and no
tile is still fading in where that would count. -/
structure Plain (s : Scene) (level : Forest TileId) : Prop where
  occlusion : s.options.enableOcclusionCulling = false
  fading : s.options.enableLodTransitionPeriod = true → s.options.kickDescendantsWhileFadingIn = true →
    ∀ tile ∈ level.preorder, (s.tile tile).fadingIn = false

theorem Plain.kicksWhileFadingIn (h : Plain s level) (seen : Seen) :
    ∀ tile ∈ level.preorder, s.withLodTransitions.kicksWhileFadingIn seen tile = false := by
  intro tile htile
  rw [Scene.kicksWhileFadingIn]
  by_cases hperiod : s.options.enableLodTransitionPeriod = true
  · by_cases hkick : s.options.kickDescendantsWhileFadingIn = true
    · have hfading : (s.withLodTransitions.tile tile).fadingIn = false := h.fading hperiod hkick tile htile
      rw [hfading, Bool.and_false]
    · have hnot : s.withLodTransitions.options.kickDescendantsWhileFadingIn =
          false := Bool.eq_false_iff.mpr hkick
      rw [hnot, Bool.and_false]
      rfl
  · have hnot : s.withLodTransitions.options.enableLodTransitionPeriod = false :=
      Bool.eq_false_iff.mpr hperiod
    rw [hnot]
    rfl

theorem Selected.settled {earlier : Forest TileId} {f : Frame earlier} {g after : TilesetViewGroup}
    {recorded : Forest (TileId × TileSelectionState)} (h : Selected f.scene f.level g after recorded outcome)
    (hplain : Plain f.scene f.level) (hready : ∀ task ∈ outcome.requested, Ready f.scene task.pTile) :
    Settled f.scene f.level after := by
  have htree : HasTree f.scene.withLodTransitions f.level := f.hasTree
  obtain ⟨hvisited, _, hshown⟩ :=
    h.selects.settles rfl htree hplain.occlusion (hplain.kicksWhileFadingIn _) hready
  refine ⟨?_, ?_, fun tile htile => hshown tile ?_⟩
  · rw [h.current, hvisited]
  · rw [h.shown, hvisited]
  · rw [h.shown] at htile
    exact htile

variable {earlier : Forest TileId} {g : TilesetViewGroup}

/-- Once every tile is ready, one frame is enough to select what the error decides, from whatever the frames before
have left. -/
theorem Reached.frame_settled_of_ready (h : Reached earlier g) (f : Frame earlier) (hplain : Plain f.scene f.level)
    (hready : ∀ tile ∈ f.level.preorder, Ready f.scene tile) : Settled f.scene f.level (f.after g) := by
  obtain ⟨recorded, outcome, -, hselected, -⟩ := h.resting.selected f
  have hrequests := hselected.selects.requests f.nodup
  exact hselected.settled hplain fun task htask =>
    hready _ (hselected.selects.cut.subset (hrequests.visited task htask))

theorem plain_secondFrame : Plain secondFrame.scene secondFrame.level := ⟨rfl, fun hperiod => by cases hperiod⟩

theorem Reached.frame_settled_of_ready_second :
    Settled (twoChildren .done) secondFrame.level (secondFrame.after (firstFrame.after .new)) := by
  refine (Reached.new.frame firstFrame).frame_settled_of_ready secondFrame plain_secondFrame fun tile _ => ?_
  by_cases hroot : tile = 0 <;> simp [Ready, secondFrame, twoChildren, Tile.isRenderable, hroot]

end QtCesium.Selection
