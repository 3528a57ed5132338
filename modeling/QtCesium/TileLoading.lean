import QtCesium.TileEviction

/-! Loads and the creation of children leave everything intact: a load is in flight from `startLoading` on, and its
end gives the tile content that agrees with its state. -/

namespace QtCesium.TileCache.TilesetContentManager

variable {pointers : TilePath → Int} {others : Int} {loads : List Load}
  {manager earlier middle later : TilesetContentManager} {path other : TilePath}

section Starting

/-- A tile that needs loading has nothing to lose. -/
theorem Intact.unknown_of_needsLoading (h : Intact pointers others loads manager)
    (hneeds : (manager.tile path).needsLoading = true) :
    (manager.tile path).content = .unknown ∧ path ∉ loads.map Load.path := by
  rw [Tile.needsLoading, Bool.or_eq_true, decide_eq_true_iff, decide_eq_true_iff] at hneeds
  constructor
  · apply (h.sound.consistent path).unknown
    exact hneeds.imp_right .inr
  · rw [← h.sound.loading path]
    intro hloading
    rw [hloading] at hneeds
    simp at hneeds

theorem startLoading_replaces (path : TilePath) (manager : TilesetContentManager) :
    Sound.Replaces path (manager.addReference path) (manager.startLoading path) := by
  let counted : TilesetContentManager :=
    { manager.addReference path with referenceCount := (manager.addReference path).referenceCount + 1 }
  have hset : Sound.Replaces path counted.notifyTileStartLoading
      (counted.notifyTileStartLoading.setState path .contentLoading) := setState_replaces .contentLoading
  exact ⟨⟨hset.of_ne, hset.childCount, hset.id, hset.depth⟩, hset.dataUsed⟩

theorem startLoading_tile (path : TilePath) (manager : TilesetContentManager) :
    (manager.startLoading path).tile path =
      { (manager.addReference path).tile path with state := .contentLoading } := by
  simp only [startLoading, setState, modifyTile_tile_self]
  rfl

/-- The start of a load, which takes a pointer on the tile and a reference on the manager. -/
theorem Intact.startLoading (h : Intact pointers others loads manager) (hin : manager.isInTree path = true)
    (hneeds : (manager.tile path).needsLoading = true) {source : TileContent}
    (hsource : ∀ index parent, path = index :: parent → (manager.tile parent).content = source) :
    Intact (withPointer path pointers) (others + 1) (loads ++ [⟨path, source⟩]) (manager.startLoading path) := by
  obtain ⟨hunknown, hnotLoading⟩ := h.unknown_of_needsLoading hneeds
  have hadded := h.addReference hin
  have hsame := (h.addReference_adds hin).sameTiles
  have hreplaces := startLoading_replaces path manager
  have htile := startLoading_tile path manager
  have hcontents : ∀ other, ((manager.startLoading path).tile other).content = (manager.tile other).content := by
    intro other
    rw [← hsame.content]
    by_cases hother : other = path
    · rw [hother, htile]
    · rw [hreplaces.of_ne other hother]
  have hcounts : ∀ other, ((manager.startLoading path).tile other).referenceCount =
      ((manager.addReference path).tile other).referenceCount := by
    intro other
    by_cases hother : other = path
    · rw [hother, htile]
    · rw [hreplaces.of_ne other hother]
  refine ⟨⟨?_, ?_⟩, ?_, ?_, hadded.nonneg, ?_, ?_, hadded.assertions⟩
  · intro other
    have hown : ((manager.startLoading path).tile other).hasReferencingContent =
        ((manager.addReference path).tile other).hasReferencingContent := by
      rw [Tile.hasReferencingContent, Tile.hasReferencingContent, hcontents, hsame.content, hreplaces.id_eq]
    have hchildren : (manager.startLoading path).referencedChildren other =
        (manager.addReference path).referencedChildren other := by
      simp only [referencedChildren_eq, hreplaces.childCount_eq, hcounts]
    rw [hcounts, hown, hchildren]
    exact hadded.counts.tile other
  · rw [hcounts]
    show (manager.addReference path).referenceCount + 1 = _
    rw [hadded.counts.manager]
    ring
  · refine hadded.sound.replace hreplaces ((hsame.isInTree path).trans hin) ?_ ?_ ?_ ?_ ?_
    · rw [htile]
      refine ⟨fun _ => (hsame.content path).trans hunknown, by simp, ?_⟩
      exact (hadded.sound.consistent path).loadable
    · rw [List.map_append]
      refine List.nodup_append.mpr ⟨h.sound.nodup, List.nodup_singleton _, ?_⟩
      intro other hother last hlast heq
      have hlast : last = path := List.mem_singleton.mp hlast
      rw [heq, hlast] at hother
      exact hnotLoading hother
    · intro other
      rw [List.map_append, List.mem_append]
      by_cases hother : other = path
      · rw [hother, htile]
        simp
      · rw [hreplaces.of_ne other hother, hsame.state, h.sound.loading]
        simp [hother]
    · show (manager.addReference path).tileLoadsInProgress + 1 = _
      rw [hsame.tileLoadsInProgress, h.sound.inProgress, List.length_append]
      rfl
    · intro load hload index parent hpath hid hrender
      rw [hcontents]
      rcases List.mem_append.mp hload with hold | hnew
      · rw [hsame.id] at hid
        exact h.sound.source load hold index parent hpath hid hrender
      · rw [List.mem_singleton.mp hnew] at hpath ⊢
        exact hsource index parent hpath
  · refine hadded.listed.congr rfl (fun other _ hother => (hreplaces.isInTree other).trans hother) ?_
    intro other hrender _
    rwa [hcontents, ← hsame.content] at hrender
  · intro other hpositive
    rw [hreplaces.isInTree]
    exact hadded.inTree other hpositive
  · intro load hload
    rcases List.mem_append.mp hload with hold | hnew
    · exact hadded.held load hold
    · rw [List.mem_singleton.mp hnew]
      show 0 < withPointer path pointers path
      rw [withPointer_self]
      exact Int.lt_add_one_of_le (h.nonneg path)

end Starting

section Ending

/-- The loads in flight once the load of a tile has ended. -/
def otherLoads (path : TilePath) (loads : List Load) : List Load := loads.eraseP fun load => load.path = path

theorem map_otherLoads (path : TilePath) (loads : List Load) :
    (otherLoads path loads).map Load.path = (loads.map Load.path).erase path := by
  induction loads with
  | nil => rfl
  | cons load rest ih =>
      rw [otherLoads] at ih ⊢
      by_cases h : load.path = path
      · rw [List.eraseP_cons_of_pos (by simpa using h), List.map_cons, h, List.erase_cons_head]
      · rw [List.eraseP_cons_of_neg (by simpa using h), List.map_cons, List.map_cons, ih,
          List.erase_cons_tail (by simpa using h)]

theorem otherLoads_subset (path : TilePath) (loads : List Load) : ∀ load ∈ otherLoads path loads, load ∈ loads :=
  fun _ hload => List.eraseP_subset hload

/-- A tile with the content and the state that a load gives it, counted with what is loaded. -/
def settled (path : TilePath) (content : TileContent) (state : TileLoadState) (manager : TilesetContentManager) :
    TilesetContentManager :=
  ((manager.setContentKind path content).setState path state).notifyTileDoneLoading path

variable {content : TileContent} {state : TileLoadState}

theorem settled_tile (path : TilePath) (content : TileContent) (state : TileLoadState)
    (manager : TilesetContentManager) :
    (manager.settled path content state).tile path = { manager.tile path with content, state } := by
  simp [settled, notifyTileDoneLoading, setState, setContentKind]

theorem settled_replaces (hunknown : (manager.tile path).content = .unknown) :
    Sound.Replaces path manager (manager.settled path content state) where
  of_ne := by
    intro other hother
    simp [settled, notifyTileDoneLoading, setState, setContentKind, hother]
  childCount := by rw [settled_tile]
  id := by rw [settled_tile]
  depth := rfl
  dataUsed := by
    have hbytes : ((manager.setContentKind path content).setState path state).tile path =
        { manager.tile path with content, state } := by
      simp [setState, setContentKind]
    rw [settled_tile, hunknown]
    show manager.tilesDataUsed +
      (((manager.setContentKind path content).setState path state).tile path).content.computeByteSize = _
    rw [hbytes]
    show _ = manager.tilesDataUsed - 0 + content.computeByteSize
    rw [sub_zero]

/-- A load that ends leaves the tiles sound where the state agrees with the content. -/
theorem Sound.settled (h : Sound loads manager) (hin : manager.isInTree path = true)
    (hload : path ∈ loads.map Load.path) (hstate : state ≠ .contentLoading)
    (hconsistent : ((manager.settled path content state).tile path).Consistent) :
    Sound (otherLoads path loads) (manager.settled path content state) := by
  have hloading := (h.loading path).mpr hload
  have hunknown := (h.consistent path).unknown (.inr (.inl hloading))
  have hreplaces : Sound.Replaces path manager (manager.settled path content state) := settled_replaces hunknown
  refine h.replace hreplaces hin hconsistent ?_ ?_ ?_ ?_
  · rw [map_otherLoads]
    exact h.nodup.erase path
  · intro other
    rw [map_otherLoads]
    by_cases hother : other = path
    · rw [hother, settled_tile]
      exact ⟨fun heq => absurd heq hstate, fun hmem => absurd hmem h.nodup.not_mem_erase⟩
    · rw [hreplaces.of_ne other hother, h.loading, List.mem_erase_of_ne hother]
  · have hlength : (otherLoads path loads).length = loads.length - 1 := by
      have hmap := congrArg List.length (map_otherLoads path loads)
      rw [List.length_map, List.length_erase_of_mem hload, List.length_map] at hmap
      exact hmap
    have hpositive : 0 < loads.length := by
      rw [← List.length_map Load.path]
      exact List.length_pos_of_mem hload
    show manager.tileLoadsInProgress - 1 = _
    rw [h.inProgress, hlength]
    omega
  · intro load hother index parent hpath hid hrender
    have hearlier := h.source load (otherLoads_subset path loads load hother) index parent hpath hid hrender
    by_cases hparent : parent = path
    · rw [hparent, hunknown] at hearlier
      rw [← hearlier] at hrender
      cases hrender
    · rw [hreplaces.of_ne parent hparent]
      exact hearlier

end Ending

section Placing

variable {children : List NewTile}

theorem placeChildTiles_self (path : TilePath) (children : List NewTile) (manager : TilesetContentManager) :
    (manager.placeChildTiles path children).tile path =
      { manager.tile path with childCount := children.length } := by
  rw [placeChildTiles, modifyTile_tile_self]
  cases path with
  | nil => rfl
  | cons index parent =>
      have hne : parent ≠ index :: parent := (List.cons_ne_self index parent).symm
      simp [hne]

theorem placeChildTiles_child (path : TilePath) (children : List NewTile) (manager : TilesetContentManager)
    (index : Nat) :
    (manager.placeChildTiles path children).tile (index :: path) =
      (children[index]?.map NewTile.tile).getD (manager.tile (index :: path)) := by
  rw [placeChildTiles, modifyTile_tile_of_ne _ (List.cons_ne_self index path)]
  simp

theorem placeChildTiles_other (hpath : other ≠ path) (hchild : ∀ index, other ≠ index :: path) :
    (manager.placeChildTiles path children).tile other = manager.tile other := by
  rw [placeChildTiles, modifyTile_tile_of_ne _ hpath]
  cases other with
  | nil => rfl
  | cons index parent =>
      have hne : parent ≠ path := fun heq => hchild index (by rw [heq])
      simp [hne]

end Placing

section Commuting

/-- What is done to one tile does not depend on its reference count. -/
theorem SameTiles.modifyTile (h : SameTiles earlier later) {f : Tile → Tile}
    (hf : ∀ tile count, f { tile with referenceCount := count } =
      { f tile with referenceCount := (f { tile with referenceCount := count }).referenceCount }) :
    SameTiles (earlier.modifyTile path f) (later.modifyTile path f) where
  tile := by
    intro other
    by_cases hother : other = path
    · rw [hother, modifyTile_tile_self, modifyTile_tile_self, h.tile path]
      exact hf _ _
    · rw [modifyTile_tile_of_ne f hother, modifyTile_tile_of_ne f hother]
      exact h.tile other
  depth := h.depth
  tileLoadsInProgress := h.tileLoadsInProgress
  loadedTilesCount := h.loadedTilesCount
  tilesDataUsed := h.tilesDataUsed
  clearedUnloaded := h.clearedUnloaded

theorem SameTiles.setState (h : SameTiles earlier later) (state : TileLoadState) :
    SameTiles (earlier.setState path state) (later.setState path state) :=
  h.modifyTile fun _ _ => rfl

theorem SameTiles.placeChildTiles (h : SameTiles earlier later) (children : List NewTile) :
    SameTiles (earlier.placeChildTiles path children) (later.placeChildTiles path children) where
  tile := by
    intro other
    by_cases hpath : other = path
    · rw [hpath, placeChildTiles_self, placeChildTiles_self, h.tile path]
    · by_cases hchild : ∃ index, other = index :: path
      · obtain ⟨index, rfl⟩ := hchild
        rw [placeChildTiles_child, placeChildTiles_child]
        cases children[index]? with
        | none => exact h.tile (index :: path)
        | some new => rfl
      · rw [not_exists] at hchild
        rw [placeChildTiles_other hpath hchild, placeChildTiles_other hpath hchild]
        exact h.tile other
  depth := congrArg (max · (path.length + 1)) h.depth
  tileLoadsInProgress := h.tileLoadsInProgress
  loadedTilesCount := h.loadedTilesCount
  tilesDataUsed := h.tilesDataUsed
  clearedUnloaded := h.clearedUnloaded

theorem SameTiles.notifyTileDoneLoading (h : SameTiles earlier later) :
    SameTiles (earlier.notifyTileDoneLoading path) (later.notifyTileDoneLoading path) where
  tile := h.tile
  depth := h.depth
  tileLoadsInProgress := congrArg (· - 1) h.tileLoadsInProgress
  loadedTilesCount := congrArg (· + 1) h.loadedTilesCount
  tilesDataUsed := by
    show later.tilesDataUsed + (later.tile path).content.computeByteSize =
      earlier.tilesDataUsed + (earlier.tile path).content.computeByteSize
    rw [h.tilesDataUsed, h.content]
  clearedUnloaded := h.clearedUnloaded

end Commuting

section Creating

theorem Adds.trans {pointers' : TilePath → Int} (h : Adds pointers' others earlier middle)
    (h' : Adds pointers others middle later) (hle : ∀ path, pointers' path ≤ pointers path) :
    Adds pointers others earlier later where
  counts := h'.counts
  sameTiles := h.sameTiles.trans h'.sameTiles
  assertionsHold := h'.assertionsHold.trans h.assertionsHold
  sublist := h'.sublist.trans h.sublist
  removed := by
    intro path hmem hnot
    by_cases hmiddle : path ∈ middle.tilesEligibleForContentUnloading
    · exact h'.removed path hmiddle hnot
    · exact (h.removed path hmem hmiddle).trans_le (hle path)

/-- The references of several children on their parent. -/
theorem addReferences_adds {children : List TilePath} (hchildren : ∀ child ∈ children, ¬ child <:+ path)
    (hcounts : Counts (pointers + Pi.single path
      (-(children.countP fun child => 0 < (manager.tile child).referenceCount : Int))) others manager)
    (hnonneg : ∀ other, 0 ≤ (manager.tile other).referenceCount) (hin : manager.isInTree path = true) :
    Adds pointers others manager (children.foldl
      (fun manager child => if 0 < (manager.tile child).referenceCount then manager.addReference path else manager)
      manager) := by
  induction children generalizing manager with
  | nil =>
      rw [List.countP_nil, Nat.cast_zero, neg_zero, Pi.single_zero, add_zero] at hcounts
      exact ⟨hcounts, SameTiles.refl manager, rfl, List.Sublist.refl _, fun _ hmem hnot => absurd hmem hnot⟩
  | cons child rest ih =>
      obtain ⟨hchild, hrest⟩ := List.forall_mem_cons.mp hchildren
      rw [List.foldl_cons]
      by_cases hreferenced : 0 < (manager.tile child).referenceCount
      · rw [if_pos hreferenced]
        have hcount : ∀ other ∈ rest, ((manager.addReference path).tile other).referenceCount =
            (manager.tile other).referenceCount :=
          fun other hother => (addReference_referenceCount path manager other).2 (hrest other hother)
        have hsame : (rest.countP fun child => 0 < ((manager.addReference path).tile child).referenceCount) =
            rest.countP fun child => 0 < (manager.tile child).referenceCount := by
          apply List.countP_congr
          intro other hother
          rw [hcount other hother]
        have hfewer : ∀ other, (pointers + Pi.single path
            (-(rest.countP fun child => 0 < (manager.tile child).referenceCount : Int)) : TilePath → Int) other ≤
              pointers other := by
          intro other
          rw [Pi.add_apply, Pi.single_apply]
          split <;> omega
        have hfirst : Adds (pointers + Pi.single path
            (-(rest.countP fun child => 0 < (manager.tile child).referenceCount : Int))) others manager
              (manager.addReference path) := by
          apply addReference_adds _ hnonneg hin
          convert hcounts using 1
          funext other
          simp only [Pi.add_apply, Pi.single_apply, List.countP_cons, hreferenced]
          split
          · simp
            ring
          · simp
        refine hfirst.trans (ih hrest ?_ ?_ ?_) hfewer
        · rw [hsame]
          exact hfirst.counts
        · exact fun other => (hnonneg other).trans (addReference_referenceCount path manager other).1
        · exact (hfirst.sameTiles.isInTree path).trans hin
      · rw [if_neg hreferenced]
        apply ih hrest _ hnonneg hin
        rwa [List.countP_cons_of_neg (by simpa using hreferenced)] at hcounts

/-- The tree with the children of a tile that had none. -/
theorem placeChildTiles_isInTree (children : List NewTile) (hin : manager.isInTree path = true)
    (houtside : ∀ other, manager.isInTree other = false → (manager.tile other).childCount = 0)
    (hnone : (manager.tile path).childCount = 0) (other : TilePath) :
    (manager.placeChildTiles path children).isInTree other = true ↔
      manager.isInTree other = true ∨ ∃ index, index < children.length ∧ other = index :: path := by
  have hnew : ∀ index, manager.isInTree (index :: path) = false := by
    intro index
    rw [isInTree, hnone]
    simp
  induction other with
  | nil => simp [isInTree]
  | cons index parent ih =>
      rw [isInTree, Bool.and_eq_true, decide_eq_true_iff]
      refine (and_congr_right' ih).trans ?_
      by_cases hparent : parent = path
      · subst hparent
        rw [placeChildTiles_self, hnew]
        simp [hin]
      · have hother : ¬ ∃ index', index' < children.length ∧ index :: parent = index' :: path := by
          rintro ⟨_, -, heq⟩
          exact hparent (List.cons.inj heq).2
        rw [or_iff_left hother, isInTree, Bool.and_eq_true, decide_eq_true_iff]
        by_cases hchild : ∃ index', parent = index' :: path
        · obtain ⟨index', rfl⟩ := hchild
          have hold := houtside (index' :: path) (hnew index')
          rw [hnew, hold]
          have hnewTile : ((manager.placeChildTiles path children).tile (index' :: path)).childCount = 0 := by
            rw [placeChildTiles_child]
            cases children[index']? with
            | none => exact hold
            | some new => rfl
          simp [hnewTile]
        · rw [not_exists] at hchild
          rw [placeChildTiles_other hparent hchild, or_iff_left]
          rintro ⟨index', -, heq⟩
          exact hchild index' heq

/-- What is there of a tile once children have been placed: it has become a child, has the children, or is as it
was. -/
theorem placeChildTiles_cases (path : TilePath) (children : List NewTile) (manager : TilesetContentManager)
    (other : TilePath) :
    (∃ index new, new ∈ children ∧ index < children.length ∧ other = index :: path ∧
        (manager.placeChildTiles path children).tile other = new.tile) ∨
      other = path ∧ (manager.placeChildTiles path children).tile other =
          { manager.tile path with childCount := children.length } ∨
        other ≠ path ∧ (∀ index, index < children.length → other ≠ index :: path) ∧
          (manager.placeChildTiles path children).tile other = manager.tile other := by
  by_cases hpath : other = path
  · exact .inr (.inl ⟨hpath, by rw [hpath, placeChildTiles_self]⟩)
  · by_cases hchild : ∃ index, index < children.length ∧ other = index :: path
    · obtain ⟨index, hindex, rfl⟩ := hchild
      refine .inl ⟨index, children[index], List.getElem_mem hindex, hindex, rfl, ?_⟩
      rw [placeChildTiles_child, List.getElem?_eq_getElem hindex]
      rfl
    · have hnot : ∀ index, index < children.length → other ≠ index :: path :=
        fun index hindex heq => hchild ⟨index, hindex, heq⟩
      refine .inr (.inr ⟨hpath, hnot, ?_⟩)
      by_cases hbeyond : ∃ index, other = index :: path
      · obtain ⟨index, rfl⟩ := hbeyond
        have hlength : children.length ≤ index := not_lt.mp fun hindex => hnot index hindex rfl
        rw [placeChildTiles_child, List.getElem?_eq_none hlength]
        rfl
      · exact placeChildTiles_other hpath (not_exists.mp hbeyond)

theorem newTile_consistent (new : NewTile) : new.tile.Consistent where
  unknown := by
    intro hstate
    by_contra hcontent
    simp [NewTile.tile] at hstate hcontent
    simp [hcontent] at hstate
  known := by
    intro hstate hcontent
    simp [NewTile.tile] at hstate hcontent
    simp [hcontent] at hstate
  loadable := by
    intro hrender
    have hnot := new.content_given
    simp only [NewTile.tile] at hrender
    rw [hrender] at hnot
    cases hnot

theorem newTile_not_render (new : NewTile) : new.tile.content.isRenderContent = false := new.content_given

theorem newTile_not_loading (new : NewTile) : new.tile.state ≠ .contentLoading := by
  simp only [NewTile.tile]
  split <;> simp

variable {children : List NewTile}

/-- A child to be is not in the tree. -/
theorem not_inTree_of_childless (hnone : (manager.tile path).childCount = 0) (index : Nat) :
    manager.isInTree (index :: path) = false := by
  rw [isInTree, hnone]
  simp

/-- The creation of children keeps the tiles sound. -/
theorem Sound.placeChildTiles (h : Sound loads manager) (hloads : ∀ load ∈ loads, manager.isInTree load.path = true)
    (hin : manager.isInTree path = true) (hnone : (manager.tile path).childCount = 0) :
    Sound loads (manager.placeChildTiles path children) := by
  have hinTree := placeChildTiles_isInTree children hin (fun other hout => (h.outside other hout).1) hnone
  have hkeeps : ∀ other, manager.isInTree other = true →
      ((manager.placeChildTiles path children).tile other).content = (manager.tile other).content ∧
        ((manager.placeChildTiles path children).tile other).id = (manager.tile other).id := by
    intro other hother
    rcases placeChildTiles_cases path children manager other with ⟨index, new, -, -, rfl, -⟩ | ⟨rfl, htile⟩ |
        ⟨-, -, htile⟩
    · rw [not_inTree_of_childless hnone] at hother
      cases hother
    · rw [htile]
      exact ⟨rfl, rfl⟩
    · rw [htile]
      exact ⟨rfl, rfl⟩
  refine ⟨?_, ?_, ?_, h.nodup, ?_, h.inProgress, ?_, ?_⟩
  · intro other
    rcases placeChildTiles_cases path children manager other with ⟨index, new, -, -, -, htile⟩ | ⟨rfl, htile⟩ |
        ⟨-, -, htile⟩ <;> rw [htile]
    · exact newTile_consistent new
    · exact ⟨(h.consistent other).unknown, (h.consistent other).known, (h.consistent other).loadable⟩
    · exact h.consistent other
  · intro other hout
    rw [← Bool.not_eq_true, hinTree, not_or, Bool.not_eq_true] at hout
    rcases placeChildTiles_cases path children manager other with ⟨index, new, -, hindex, heq, -⟩ | ⟨rfl, -⟩ |
        ⟨-, -, htile⟩
    · exact absurd ⟨index, hindex, heq⟩ hout.2
    · rw [hin] at hout
      exact absurd hout.1 (by simp)
    · rw [htile]
      exact h.outside other hout.1
  · intro other hother
    show other.length ≤ max manager.depth (path.length + 1)
    rcases (hinTree other).mp hother with hold | ⟨index, -, rfl⟩
    · exact (h.deep other hold).trans (le_max_left _ _)
    · exact le_max_right _ _
  · intro other
    rcases placeChildTiles_cases path children manager other with ⟨index, new, -, -, rfl, htile⟩ | ⟨rfl, htile⟩ |
        ⟨-, -, htile⟩
    · rw [htile]
      refine ⟨fun hloading => absurd hloading (newTile_not_loading new), fun hmem => ?_⟩
      obtain ⟨load, hload, hpath⟩ := List.mem_map.mp hmem
      have hinLoad := hloads load hload
      rw [hpath, not_inTree_of_childless hnone] at hinLoad
      cases hinLoad
    · rw [htile]
      exact h.loading other
    · rw [htile]
      exact h.loading other
  · intro load hload index parent hpath hid hrender
    have hinLoad := hloads load hload
    have hinParent : manager.isInTree parent = true := by
      rw [hpath] at hinLoad
      exact isInTree_of_suffix (List.suffix_cons index parent) hinLoad
    rw [(hkeeps load.path hinLoad).2] at hid
    rw [(hkeeps parent hinParent).1]
    exact h.source load hload index parent hpath hid hrender
  · obtain ⟨tiles, hall, hsum⟩ := h.dataUsed
    refine ⟨tiles, ?_, ?_⟩
    · intro other hrender
      rcases placeChildTiles_cases path children manager other with ⟨index, new, -, -, -, htile⟩ | ⟨rfl, htile⟩ |
          ⟨-, -, htile⟩ <;> rw [htile] at hrender
      · rw [newTile_not_render] at hrender
        cases hrender
      · exact hall other hrender
      · exact hall other hrender
    · show manager.tilesDataUsed = _
      rw [hsum]
      apply Finset.sum_congr rfl
      intro other _
      rcases placeChildTiles_cases path children manager other with ⟨index, new, -, -, rfl, htile⟩ | ⟨rfl, htile⟩ |
          ⟨-, -, htile⟩ <;> rw [htile]
      have hout := h.not_render_of_outside (not_inTree_of_childless hnone index)
      rw [TileContent.computeByteSize_of_not_render hout,
        TileContent.computeByteSize_of_not_render (newTile_not_render new)]

/-- The children that hold references on themselves are references that their parent misses. -/
theorem Counts.placeChildTiles (h : Counts pointers others manager) (hpointers : ∀ index, pointers (index :: path) = 0)
    (hnone : (manager.tile path).childCount = 0) :
    Counts (pointers + Pi.single path (-((manager.placeChildTiles path children).referencedChildren path : Int))) others
      (manager.placeChildTiles path children) := by
  have hcount : ∀ index other, other ≠ path →
      ((manager.placeChildTiles path children).tile (index :: other)).referenceCount =
        (manager.tile (index :: other)).referenceCount := by
    intro index other hother
    rcases placeChildTiles_cases path children manager (index :: other) with ⟨_, _, -, -, heq, -⟩ | ⟨rfl, htile⟩ |
        ⟨-, -, htile⟩
    · exact absurd (List.cons.inj heq).2 hother
    · rw [htile]
    · rw [htile]
  constructor
  · intro other
    rw [Pi.add_apply, Pi.single_apply]
    rcases placeChildTiles_cases path children manager other with ⟨index, new, -, -, rfl, htile⟩ | ⟨rfl, htile⟩ |
        ⟨hne, -, htile⟩
    · have hchildren : (manager.placeChildTiles path children).referencedChildren (index :: path) = 0 := by
        rw [referencedChildren_eq, htile]
        rfl
      rw [hchildren, htile, if_neg (List.cons_ne_self index path), hpointers]
      show new.tile.referenceCount = _
      simp [NewTile.tile, Tile.hasReferencingContent]
    · have hold : manager.referencedChildren other = 0 := by
        rw [referencedChildren_eq, hnone]
        rfl
      have hexact := h.tile other
      have hown : ((manager.placeChildTiles other children).tile other).hasReferencingContent =
          (manager.tile other).hasReferencingContent := by
        rw [htile]
        rfl
      have hsame : ((manager.placeChildTiles other children).tile other).referenceCount =
          (manager.tile other).referenceCount := by
        rw [htile]
      rw [hsame, hown, if_pos rfl, hexact, hold]
      push_cast
      ring
    · have hchildren : (manager.placeChildTiles path children).referencedChildren other =
          manager.referencedChildren other := by
        simp only [referencedChildren_eq, htile, hcount _ other hne]
      rw [hchildren, htile, if_neg hne, add_zero]
      exact h.tile other
  · have hroot : ((manager.placeChildTiles path children).tile []).referenceCount =
        (manager.tile []).referenceCount := by
      rcases placeChildTiles_cases path children manager [] with ⟨_, _, -, -, heq, -⟩ | ⟨rfl, htile⟩ | ⟨-, -, htile⟩
      · cases heq
      · rw [htile]
      · rw [htile]
    rw [hroot]
    exact h.manager

/-- `createChildTiles` of a tile without children succeeds, and counts the references of the children on it. -/
theorem createChildTiles_adds (children : List NewTile) (h : Counts pointers others manager)
    (hpointers : ∀ index, pointers (index :: path) = 0)
    (hnonneg : ∀ other, 0 ≤ (manager.tile other).referenceCount)
    (houtside : ∀ other, manager.isInTree other = false → (manager.tile other).childCount = 0)
    (hin : manager.isInTree path = true) (hnone : (manager.tile path).childCount = 0) :
    ∃ later, manager.createChildTiles path children = some later ∧
      Adds pointers others (manager.placeChildTiles path children) later := by
  refine ⟨_, if_neg (not_not.mpr hnone), addReferences_adds ?_ (h.placeChildTiles hpointers hnone) ?_ ?_⟩
  · intro child hchild hsuffix
    obtain ⟨index, -, rfl⟩ := mem_getChildren.mp hchild
    exact (below_of_child_suffix hsuffix).2 rfl
  · intro other
    rcases placeChildTiles_cases path children manager other with ⟨_, new, -, -, -, htile⟩ | ⟨rfl, htile⟩ |
        ⟨-, -, htile⟩ <;> rw [htile]
    · show 0 ≤ if _ then (1 : Int) else 0
      split <;> omega
    · exact hnonneg other
    · exact hnonneg other
  · exact (placeChildTiles_isInTree children hin houtside hnone path).mpr (.inl hin)

/-- What is not in the tree has no pointers on it. -/
theorem Intact.pointers_of_outside (h : Intact pointers others loads manager) (hout : manager.isInTree path = false) :
    pointers path = 0 := by
  by_contra hne
  have hpositive := lt_of_le_of_ne (h.nonneg path) (Ne.symm hne)
  rw [h.inTree path hpositive] at hout
  cases hout

/-- `createChildTiles` leaves everything intact. -/
theorem Intact.createChildTiles (h : Intact pointers others loads manager) (hin : manager.isInTree path = true)
    (hcreated : manager.createChildTiles path children = some later) : Intact pointers others loads later := by
  have hnone : (manager.tile path).childCount = 0 := by
    by_contra hchildren
    rw [TilesetContentManager.createChildTiles, if_pos hchildren] at hcreated
    cases hcreated
  have houtside : ∀ other, manager.isInTree other = false → (manager.tile other).childCount = 0 :=
    fun other hout => (h.sound.outside other hout).1
  have hpointers : ∀ index, pointers (index :: path) = 0 :=
    fun index => h.pointers_of_outside (not_inTree_of_childless hnone index)
  obtain ⟨later', hlater, hadds⟩ := createChildTiles_adds children h.counts hpointers
    (h.counts.referenceCount_nonneg h.nonneg) houtside hin hnone
  rw [hcreated] at hlater
  cases hlater
  have hinTree := placeChildTiles_isInTree children hin houtside hnone
  have hsound : Sound loads (manager.placeChildTiles path children) :=
    h.sound.placeChildTiles (fun load hload => h.inTree load.path (h.held load hload)) hin hnone
  have hlisted : Listed pointers (manager.placeChildTiles path children) := by
    refine h.listed.congr rfl (fun other _ hother => (hinTree other).mpr (.inl hother)) ?_
    intro other hrender _
    rcases placeChildTiles_cases path children manager other with ⟨_, new, -, -, -, htile⟩ | ⟨rfl, htile⟩ |
        ⟨-, -, htile⟩ <;> rw [htile] at hrender
    · rw [newTile_not_render] at hrender
      cases hrender
    · exact hrender
    · exact hrender
  refine ⟨hadds.counts, hsound.of_sameTiles hadds.sameTiles,
    hlisted.of_adds hadds h.nonneg (fun _ => le_rfl) (fun _ _ => rfl), h.nonneg, ?_, h.held,
    hadds.assertionsHold.trans h.assertions⟩
  intro other hpositive
  rw [hadds.sameTiles.isInTree]
  exact (hinTree other).mpr (.inl (h.inTree other hpositive))

end Creating

end QtCesium.TileCache.TilesetContentManager
