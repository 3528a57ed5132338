import QtCesium.TileReferences
import Mathlib.Algebra.BigOperators.Group.Finset.Basic
import Mathlib.Algebra.BigOperators.Group.Finset.Piecewise

/-! What holds of the tiles between any two operations of the manager: a tile's state agrees with its content and
with the loads in flight, and the bytes in use are those of the render content. -/

namespace QtCesium.TileCache

/-- A load in flight. -/
structure Load where
  path : TilePath
  /-- The content that the tile's parent had when the load began, which the loader of an upsampled tile refers to. -/
  source : TileContent

/-- How the fields of a tile go together. -/
structure Tile.Consistent (tile : Tile) : Prop where
  unknown : tile.state = .unloaded ∨ tile.state = .contentLoading ∨ tile.state = .failedTemporarily →
    tile.content = .unknown
  known : tile.state = .contentLoaded ∨ tile.state = .done → tile.content ≠ .unknown
  loadable : tile.content.isRenderContent = true → tile.id.isLoadable = true

/-- One pointer more on a tile. -/
def withPointer (path : TilePath) (pointers : TilePath → Int) : TilePath → Int := pointers + Pi.single path 1

section Pointers

variable (path : TilePath) (pointers : TilePath → Int)

@[simp]
theorem withPointer_self : withPointer path pointers path = pointers path + 1 := by
  rw [withPointer, Pi.add_apply, Pi.single_eq_same]

@[simp]
theorem withPointer_of_ne {other : TilePath} (h : other ≠ path) : withPointer path pointers other = pointers other := by
  rw [withPointer, Pi.add_apply, Pi.single_eq_of_ne h, add_zero]

theorem le_withPointer (other : TilePath) : pointers other ≤ withPointer path pointers other := by
  by_cases h : other = path
  · subst h
    rw [withPointer_self]
    omega
  · rw [withPointer_of_ne _ _ h]

theorem withPointer_sub : withPointer path pointers + Pi.single path (-1) = pointers := by
  funext other
  by_cases h : other = path
  · subst h
    rw [Pi.add_apply, withPointer_self, Pi.single_eq_same]
    omega
  · rw [Pi.add_apply, withPointer_of_ne _ _ h, Pi.single_eq_of_ne h, add_zero]

end Pointers

theorem TileContent.computeByteSize_of_not_render {content : TileContent} (h : content.isRenderContent = false) :
    content.computeByteSize = 0 := by
  cases content with
  | render byteSize => cases h
  | _ => rfl

namespace TilesetContentManager

/-- The tiles agree with each other, with the loads in flight and with what the manager counts of them. -/
structure Sound (loads : List Load) (manager : TilesetContentManager) : Prop where
  consistent : ∀ path, (manager.tile path).Consistent
  /-- Tiles that have not been created, or have been destroyed, have no children and no content to unload. -/
  outside : ∀ path, manager.isInTree path = false →
    (manager.tile path).childCount = 0 ∧ (manager.tile path).hasReferencingContent = false
  deep : ∀ path, manager.isInTree path = true → path.length ≤ manager.depth
  nodup : (loads.map Load.path).Nodup
  loading : ∀ path, (manager.tile path).state = .contentLoading ↔ path ∈ loads.map Load.path
  inProgress : manager.tileLoadsInProgress = loads.length
  /-- The content that an upsampled tile is being made of is still there. -/
  source : ∀ load ∈ loads, ∀ index parent, load.path = index :: parent →
    (manager.tile load.path).id = .upsampledQuadtreeNode → load.source.isRenderContent = true →
      (manager.tile parent).content = load.source
  /-- The bytes are counted of any set of tiles that has all that have render content. -/
  dataUsed : ∃ tiles : Finset TilePath,
    (∀ path, (manager.tile path).content.isRenderContent = true → path ∈ tiles) ∧
      manager.tilesDataUsed = ∑ path ∈ tiles, (manager.tile path).content.computeByteSize

namespace Sound

variable {loads : List Load} {manager earlier later : TilesetContentManager} {path : TilePath}

theorem of_sameTiles (h : Sound loads earlier) (hsame : SameTiles earlier later) : Sound loads later where
  consistent := by
    intro path
    have htile := h.consistent path
    exact ⟨by rw [hsame.state, hsame.content]; exact htile.unknown,
      by rw [hsame.state, hsame.content]; exact htile.known, by rw [hsame.content, hsame.id]; exact htile.loadable⟩
  outside := by
    intro path hpath
    rw [hsame.isInTree] at hpath
    rw [hsame.childCount, hsame.hasReferencingContent]
    exact h.outside path hpath
  deep := by
    intro path hpath
    rw [hsame.isInTree] at hpath
    rw [hsame.depth]
    exact h.deep path hpath
  nodup := h.nodup
  loading := by
    intro path
    rw [hsame.state]
    exact h.loading path
  inProgress := hsame.tileLoadsInProgress.trans h.inProgress
  source := by
    intro load hload index parent hpath hid hrender
    rw [hsame.content]
    exact h.source load hload index parent hpath (by rwa [hsame.id] at hid) hrender
  dataUsed := by
    obtain ⟨tiles, hall, hsum⟩ := h.dataUsed
    refine ⟨tiles, fun path hrender => hall path (by rwa [hsame.content] at hrender), ?_⟩
    rw [hsame.tilesDataUsed, hsum]
    exact Finset.sum_congr rfl fun path _ => by rw [hsame.content]

/-- Render content holds a reference on its tile. -/
theorem referencing_of_render (h : Sound loads manager)
    (hrender : (manager.tile path).content.isRenderContent = true) :
    (manager.tile path).hasReferencingContent = true := by
  rw [Tile.hasReferencingContent, (h.consistent path).loadable hrender, Bool.and_true, decide_eq_true_iff]
  intro hunknown
  rw [hunknown] at hrender
  cases hrender

theorem not_render_of_outside (h : Sound loads manager) (hout : manager.isInTree path = false) :
    (manager.tile path).content.isRenderContent = false := by
  by_contra hrender
  rw [Bool.not_eq_false] at hrender
  have hreferencing := h.referencing_of_render hrender
  rw [(h.outside path hout).2] at hreferencing
  cases hreferencing

/-- The bytes of a set of tiles do not depend on those without render content. -/
theorem dataUsed_of_subset {tiles larger : Finset TilePath} (hsubset : tiles ⊆ larger)
    (hall : ∀ path, (manager.tile path).content.isRenderContent = true → path ∈ tiles) :
    ∑ path ∈ tiles, (manager.tile path).content.computeByteSize =
      ∑ path ∈ larger, (manager.tile path).content.computeByteSize := by
  apply Finset.sum_subset hsubset
  intro path _ hpath
  apply TileContent.computeByteSize_of_not_render
  rw [Bool.eq_false_iff]
  exact fun hrender => hpath (hall path hrender)

/-- A change of one tile in the tree that leaves its place there. -/
structure Changes (path : TilePath) (earlier later : TilesetContentManager) : Prop where
  of_ne : ∀ other, other ≠ path → later.tile other = earlier.tile other
  childCount : (later.tile path).childCount = (earlier.tile path).childCount
  id : (later.tile path).id = (earlier.tile path).id
  depth : later.depth = earlier.depth

/-- A change of one tile that is counted in the bytes. -/
structure Replaces (path : TilePath) (earlier later : TilesetContentManager) : Prop extends
    Changes path earlier later where
  dataUsed : later.tilesDataUsed = earlier.tilesDataUsed - (earlier.tile path).content.computeByteSize +
    (later.tile path).content.computeByteSize

namespace Changes

variable (h : Changes path earlier later)
include h

theorem childCount_eq (other : TilePath) : (later.tile other).childCount = (earlier.tile other).childCount := by
  by_cases hother : other = path
  · rw [hother]
    exact h.childCount
  · rw [h.of_ne other hother]

theorem id_eq (other : TilePath) : (later.tile other).id = (earlier.tile other).id := by
  by_cases hother : other = path
  · rw [hother]
    exact h.id
  · rw [h.of_ne other hother]

theorem isInTree (other : TilePath) : later.isInTree other = earlier.isInTree other :=
  isInTree_congr h.childCount_eq other

end Changes

theorem Replaces.sum_eq (h : Replaces path earlier later) (tiles : Finset TilePath) (hmem : path ∈ tiles) :
    ∑ other ∈ tiles, (later.tile other).content.computeByteSize =
      ∑ other ∈ tiles, (earlier.tile other).content.computeByteSize -
        (earlier.tile path).content.computeByteSize + (later.tile path).content.computeByteSize := by
  rw [← Finset.add_sum_erase tiles _ hmem, ← Finset.add_sum_erase tiles _ hmem]
  have hrest : ∑ other ∈ tiles.erase path, (later.tile other).content.computeByteSize =
      ∑ other ∈ tiles.erase path, (earlier.tile other).content.computeByteSize := by
    apply Finset.sum_congr rfl
    intro other hother
    rw [h.of_ne other (Finset.ne_of_mem_erase hother)]
  rw [hrest]
  ring

/-- A change of one tile keeps the others sound, also where a load begins or ends. -/
theorem replace {loads' : List Load} (h : Sound loads earlier) (hreplaces : Replaces path earlier later)
    (hin : earlier.isInTree path = true) (hconsistent : (later.tile path).Consistent)
    (hnodup : (loads'.map Load.path).Nodup)
    (hloading : ∀ other, (later.tile other).state = .contentLoading ↔ other ∈ loads'.map Load.path)
    (hprogress : later.tileLoadsInProgress = loads'.length)
    (hsource : ∀ load ∈ loads', ∀ index parent, load.path = index :: parent →
      (earlier.tile load.path).id = .upsampledQuadtreeNode → load.source.isRenderContent = true →
        (later.tile parent).content = load.source) : Sound loads' later where
  consistent := by
    intro other
    by_cases hother : other = path
    · rw [hother]
      exact hconsistent
    · rw [hreplaces.of_ne other hother]
      exact h.consistent other
  outside := by
    intro other hout
    rw [hreplaces.isInTree] at hout
    have hne : other ≠ path := by
      intro heq
      rw [heq, hin] at hout
      cases hout
    rw [hreplaces.of_ne other hne]
    exact h.outside other hout
  deep := by
    intro other hother
    rw [hreplaces.isInTree] at hother
    rw [hreplaces.depth]
    exact h.deep other hother
  nodup := hnodup
  loading := hloading
  inProgress := hprogress
  source := by
    intro load hload index parent hpath hid
    rw [hreplaces.id_eq] at hid
    exact hsource load hload index parent hpath hid
  dataUsed := by
    obtain ⟨tiles, hall, hsum⟩ := h.dataUsed
    refine ⟨insert path tiles, ?_, ?_⟩
    · intro other hrender
      by_cases hother : other = path
      · rw [hother]
        exact Finset.mem_insert_self path tiles
      · rw [hreplaces.of_ne other hother] at hrender
        exact Finset.mem_insert_of_mem (hall other hrender)
    · rw [hreplaces.dataUsed, hreplaces.sum_eq _ (Finset.mem_insert_self path tiles), hsum,
        dataUsed_of_subset (Finset.subset_insert path tiles) hall]

/-- A change of one tile while no load begins or ends. -/
theorem replace_same (h : Sound loads earlier) (hreplaces : Replaces path earlier later)
    (hin : earlier.isInTree path = true) (hconsistent : (later.tile path).Consistent)
    (hstate : (later.tile path).state = .contentLoading ↔ (earlier.tile path).state = .contentLoading)
    (hprogress : later.tileLoadsInProgress = earlier.tileLoadsInProgress)
    (hsource : (later.tile path).content = (earlier.tile path).content ∨
      ∀ load ∈ loads, ∀ index, load.path = index :: path → (earlier.tile load.path).id = .upsampledQuadtreeNode →
        load.source.isRenderContent = false) : Sound loads later := by
  refine h.replace hreplaces hin hconsistent h.nodup ?_ (hprogress.trans h.inProgress) ?_
  · intro other
    by_cases hother : other = path
    · rw [hother, hstate]
      exact h.loading path
    · rw [hreplaces.of_ne other hother]
      exact h.loading other
  · intro load hload index parent hpath hid hrender
    have hearlier := h.source load hload index parent hpath hid hrender
    by_cases hparent : parent = path
    · rw [hparent] at hpath hearlier ⊢
      rcases hsource with hcontent | hnone
      · rw [hcontent, hearlier]
      · rw [hnone load hload index hpath hid] at hrender
        cases hrender
    · rw [hreplaces.of_ne parent hparent]
      exact hearlier

end Sound

/-- The list of what may be unloaded: tiles that exist and on which no pointers are held, and of these all with
render content. -/
structure Listed (pointers : TilePath → Int) (manager : TilesetContentManager) : Prop where
  nodup : manager.tilesEligibleForContentUnloading.Nodup
  unheld : ∀ path ∈ manager.tilesEligibleForContentUnloading, manager.isInTree path = true ∧ pointers path = 0
  complete : ∀ path, (manager.tile path).content.isRenderContent = true → pointers path = 0 →
    path ∈ manager.tilesEligibleForContentUnloading

namespace Listed

variable {pointers pointers' : TilePath → Int} {others : Int} {manager earlier later : TilesetContentManager}
  {path : TilePath}

/-- The list stays right where only tiles that pointers are held on gain render content. -/
theorem congr (h : Listed pointers earlier)
    (hlist : later.tilesEligibleForContentUnloading = earlier.tilesEligibleForContentUnloading)
    (hin : ∀ path ∈ earlier.tilesEligibleForContentUnloading, earlier.isInTree path = true →
      later.isInTree path = true)
    (hrender : ∀ path, (later.tile path).content.isRenderContent = true → pointers path = 0 →
      (earlier.tile path).content.isRenderContent = true) : Listed pointers later where
  nodup := by
    rw [hlist]
    exact h.nodup
  unheld := by
    intro path hpath
    rw [hlist] at hpath
    obtain ⟨htree, hfree⟩ := h.unheld path hpath
    exact ⟨hin path hpath htree, hfree⟩
  complete := by
    intro path hcontent hfree
    rw [hlist]
    exact h.complete path (hrender path hcontent hfree) hfree

theorem of_adds (h : Listed pointers earlier) (hadds : Adds pointers' others earlier later)
    (hnonneg : ∀ path, 0 ≤ pointers path) (hle : ∀ path, pointers path ≤ pointers' path)
    (heq : ∀ path ∈ later.tilesEligibleForContentUnloading, pointers' path = pointers path) :
    Listed pointers' later where
  nodup := hadds.sublist.nodup h.nodup
  unheld := by
    intro path hpath
    obtain ⟨htree, hfree⟩ := h.unheld path (hadds.sublist.subset hpath)
    exact ⟨(hadds.sameTiles.isInTree path).trans htree, (heq path hpath).trans hfree⟩
  complete := by
    intro path hrender hfree
    rw [hadds.sameTiles.content] at hrender
    have hle := hle path
    have hearlier : pointers path = 0 := le_antisymm (hle.trans_eq hfree) (hnonneg path)
    by_contra hnot
    have hheld := hadds.removed path (h.complete path hrender hearlier) hnot
    rw [hfree] at hheld
    exact lt_irrefl 0 hheld

theorem of_releases (h : Listed pointers earlier) (hreleases : Releases pointers' earlier later)
    (hnonneg : ∀ path, 0 ≤ pointers' path) (hle : ∀ path, pointers' path ≤ pointers path)
    (heq : ∀ other, other ≠ path → pointers' other = pointers other)
    (hmem : pointers' path ≤ 0 → path ∈ later.tilesEligibleForContentUnloading) : Listed pointers' later where
  nodup := hreleases.nodup h.nodup
  unheld := by
    intro other hother
    by_cases hold : other ∈ earlier.tilesEligibleForContentUnloading
    · obtain ⟨htree, hfree⟩ := h.unheld other hold
      exact ⟨(hreleases.sameTiles.isInTree other).trans htree,
        le_antisymm ((hle other).trans_eq hfree) (hnonneg other)⟩
    · obtain ⟨hfree, htree⟩ := hreleases.added other hother hold
      exact ⟨(hreleases.sameTiles.isInTree other).trans htree, le_antisymm hfree (hnonneg other)⟩
  complete := by
    intro other hrender hfree
    by_cases hother : other = path
    · rw [hother] at hfree ⊢
      exact hmem hfree.le
    · rw [hreleases.sameTiles.content] at hrender
      exact hreleases.isPrefix.subset (h.complete other hrender ((heq other hother).symm.trans hfree))

end Listed

/-- What holds between any two operations, given the pointers that are held on tiles, what else holds the manager,
and the loads in flight. -/
structure Intact (pointers : TilePath → Int) (others : Int) (loads : List Load) (manager : TilesetContentManager) :
    Prop where
  counts : Counts pointers others manager
  sound : Sound loads manager
  listed : Listed pointers manager
  nonneg : ∀ path, 0 ≤ pointers path
  inTree : ∀ path, 0 < pointers path → manager.isInTree path = true
  /-- A load in flight holds a pointer on its tile. -/
  held : ∀ load ∈ loads, 0 < pointers load.path
  assertions : manager.assertionsHold = true

namespace Intact

variable {pointers : TilePath → Int} {others : Int} {loads : List Load} {manager : TilesetContentManager}
  {path : TilePath}

/-- A tile with a reference count above zero exists. -/
theorem inTree_of_referenced (h : Intact pointers others loads manager)
    (hreferenced : 0 < (manager.tile path).referenceCount) : manager.isInTree path = true := by
  by_contra hout
  rw [Bool.not_eq_true] at hout
  obtain ⟨hchildren, hcontent⟩ := h.sound.outside path hout
  have hcount := h.counts.tile path
  rw [hcontent, referencedChildren_eq, hchildren, List.range_zero, List.countP_nil] at hcount
  have hpointers := h.inTree path
  rw [hout] at hpointers
  have hzero : ¬ 0 < pointers path := fun hpositive => Bool.false_ne_true (hpointers hpositive)
  simp only [Bool.false_eq_true, if_false, Nat.cast_zero] at hcount
  omega

theorem addReference_adds (h : Intact pointers others loads manager) (hin : manager.isInTree path = true) :
    Adds (withPointer path pointers) others manager (manager.addReference path) := by
  have hcounts : Counts (withPointer path pointers + Pi.single path (-1)) others manager := by
    rw [withPointer_sub]
    exact h.counts
  exact TilesetContentManager.addReference_adds hcounts (h.counts.referenceCount_nonneg h.nonneg) hin

theorem addReference (h : Intact pointers others loads manager) (hin : manager.isInTree path = true) :
    Intact (withPointer path pointers) others loads (manager.addReference path) := by
  have hcounts : Counts (withPointer path pointers + Pi.single path (-1)) others manager := by
    rw [withPointer_sub]
    exact h.counts
  have hadds := h.addReference_adds hin
  have hheld : 0 < withPointer path pointers path := by
    rw [withPointer_self]
    exact Int.lt_add_one_of_le (h.nonneg path)
  have hnot := addReference_not_mem hcounts (h.counts.referenceCount_nonneg h.nonneg) hin h.listed.nodup hheld
  refine ⟨hadds.counts, h.sound.of_sameTiles hadds.sameTiles,
    h.listed.of_adds hadds h.nonneg (le_withPointer path pointers) ?_,
    fun other => (h.nonneg other).trans (le_withPointer path pointers other), ?_,
    fun load hload => (h.held load hload).trans_le (le_withPointer path pointers load.path),
    hadds.assertionsHold.trans h.assertions⟩
  · intro other hmem
    have hne : other ≠ path := fun heq => hnot (heq ▸ hmem)
    exact withPointer_of_ne path pointers hne
  · intro other hpositive
    rw [hadds.sameTiles.isInTree]
    by_cases hother : other = path
    · rw [hother]
      exact hin
    · rw [withPointer_of_ne _ _ hother] at hpositive
      exact h.inTree other hpositive

/-- A pointer that is held can be given up. -/
theorem releaseReference (h : Intact (withPointer path pointers) others loads manager)
    (hnonneg : ∀ path, 0 ≤ pointers path) (hheld : ∀ load ∈ loads, 0 < pointers load.path) :
    Intact pointers others loads (manager.releaseReference path) := by
  have hin : manager.isInTree path = true := by
    apply h.inTree
    rw [withPointer_self]
    exact Int.lt_add_one_of_le (hnonneg path)
  have hle := le_withPointer path pointers
  obtain ⟨hcounts, hreleases, hmem⟩ := releaseReference_spec h.counts hnonneg hin
  refine ⟨hcounts, h.sound.of_sameTiles hreleases.sameTiles,
    h.listed.of_releases hreleases hnonneg hle (fun other hother => (withPointer_of_ne path pointers hother).symm)
      hmem, hnonneg, ?_, hheld, hreleases.assertionsHold.trans h.assertions⟩
  intro other hpositive
  rw [hreleases.sameTiles.isInTree]
  exact h.inTree other (hpositive.trans_le (hle other))

end Intact

end TilesetContentManager

end QtCesium.TileCache
