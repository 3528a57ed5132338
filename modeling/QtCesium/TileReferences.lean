import QtCesium.TileCache
import Mathlib.Algebra.Group.Pi.Basic
import Mathlib.Tactic.Ring

/-! How references are counted: a tile's own count is that of the pointers on it, of its content and of its
children that are referenced, and `addReference` and `releaseReference` repair it along the way to the root. -/

/-- The number of indices with a property changes by what changes at the only index that does. -/
theorem List.countP_range_of_eq_off {before after : Nat → Bool} (index : Nat)
    (h : ∀ other, other ≠ index → after other = before other) (n : Nat) :
    ((List.range n).countP after : Int) =
      (List.range n).countP before +
        if index < n then (if after index then 1 else 0) - (if before index then 1 else 0) else 0 := by
  induction n with
  | zero => simp
  | succ n ih =>
      simp only [List.range_succ, List.countP_append, List.countP_singleton, Nat.cast_add, ih]
      by_cases hn : n = index
      · subst hn
        simp only [lt_irrefl, if_false, Nat.lt_succ_self, if_true]
        split <;> split <;> push_cast <;> omega
      · have hlt : index < n + 1 ↔ index < n := by omega
        rw [h n hn]
        simp only [hlt]
        omega

namespace QtCesium.TileCache.TilesetContentManager

variable {manager earlier middle later : TilesetContentManager} {path other : TilePath}

section Tiles

@[simp]
theorem modifyTile_tile_self (f : Tile → Tile) : (manager.modifyTile path f).tile path = f (manager.tile path) := by
  simp [modifyTile]

@[simp]
theorem modifyTile_tile_of_ne (f : Tile → Tile) (h : other ≠ path) :
    (manager.modifyTile path f).tile other = manager.tile other := by
  simp [modifyTile, h]

@[simp]
theorem assert_tile (condition : Bool) : (manager.assert condition).tile = manager.tile := rfl

theorem assert_true : manager.assert true = manager := by
  rw [assert, Bool.and_true]

theorem isInTree_congr (h : ∀ path, (later.tile path).childCount = (earlier.tile path).childCount) (path : TilePath) :
    later.isInTree path = earlier.isInTree path := by
  induction path with
  | nil => rfl
  | cons index parent ih => rw [isInTree, isInTree, h, ih]

theorem isInTree_of_suffix (hsuffix : other <:+ path) (h : manager.isInTree path = true) :
    manager.isInTree other = true := by
  induction path with
  | nil =>
      rw [List.suffix_nil.mp hsuffix]
      exact h
  | cons index parent ih =>
      rcases List.suffix_cons_iff.mp hsuffix with rfl | hparent
      · exact h
      · rw [isInTree, Bool.and_eq_true] at h
        exact ih hparent h.2

theorem referencedChildren_eq (manager : TilesetContentManager) (path : TilePath) :
    manager.referencedChildren path =
      (List.range (manager.tile path).childCount).countP
        fun index => 0 < (manager.tile (index :: path)).referenceCount := by
  rw [referencedChildren, getChildren, List.countP_map]
  rfl

theorem mem_getChildren : other ∈ manager.getChildren path ↔
    ∃ index, index < (manager.tile path).childCount ∧ index :: path = other := by
  simp [getChildren]

end Tiles

/-- The counting of references and the list of what may be unloaded aside, nothing has changed. -/
structure SameTiles (earlier later : TilesetContentManager) : Prop where
  tile : ∀ path, later.tile path = { earlier.tile path with referenceCount := (later.tile path).referenceCount }
  depth : later.depth = earlier.depth
  tileLoadsInProgress : later.tileLoadsInProgress = earlier.tileLoadsInProgress
  loadedTilesCount : later.loadedTilesCount = earlier.loadedTilesCount
  tilesDataUsed : later.tilesDataUsed = earlier.tilesDataUsed
  clearedUnloaded : later.clearedUnloaded = earlier.clearedUnloaded

namespace SameTiles

theorem refl (manager : TilesetContentManager) : SameTiles manager manager := ⟨fun _ => rfl, rfl, rfl, rfl, rfl, rfl⟩

theorem trans (h : SameTiles earlier middle) (h' : SameTiles middle later) : SameTiles earlier later where
  tile := by
    intro path
    rw [h'.tile path, h.tile path]
  depth := h'.depth.trans h.depth
  tileLoadsInProgress := h'.tileLoadsInProgress.trans h.tileLoadsInProgress
  loadedTilesCount := h'.loadedTilesCount.trans h.loadedTilesCount
  tilesDataUsed := h'.tilesDataUsed.trans h.tilesDataUsed
  clearedUnloaded := h'.clearedUnloaded.trans h.clearedUnloaded

variable (h : SameTiles earlier later)
include h

theorem childCount (path : TilePath) : (later.tile path).childCount = (earlier.tile path).childCount := by
  rw [h.tile path]

theorem id (path : TilePath) : (later.tile path).id = (earlier.tile path).id := by
  rw [h.tile path]

theorem state (path : TilePath) : (later.tile path).state = (earlier.tile path).state := by
  rw [h.tile path]

theorem content (path : TilePath) : (later.tile path).content = (earlier.tile path).content := by
  rw [h.tile path]

theorem hasReferencingContent (path : TilePath) :
    (later.tile path).hasReferencingContent = (earlier.tile path).hasReferencingContent := by
  rw [Tile.hasReferencingContent, Tile.hasReferencingContent, h.content, h.id]

theorem isInTree (path : TilePath) : later.isInTree path = earlier.isInTree path :=
  isInTree_congr h.childCount path

end SameTiles

/-- Reference counts are exact for the pointers that are held from outside on each tile, and for what else holds the
manager. -/
structure Counts (pointers : TilePath → Int) (others : Int) (manager : TilesetContentManager) : Prop where
  tile : ∀ path, (manager.tile path).referenceCount =
    pointers path + (if (manager.tile path).hasReferencingContent then 1 else 0) + manager.referencedChildren path
  manager : manager.referenceCount = others + if 0 < (manager.tile []).referenceCount then 1 else 0

section Change

/-- A tile after a change of its reference count. -/
def addToCount (path : TilePath) (change : Int) (manager : TilesetContentManager) : TilesetContentManager :=
  manager.modifyTile path fun tile => { tile with referenceCount := tile.referenceCount + change }

variable {change : Int}

theorem addToCount_sameTiles (manager : TilesetContentManager) (path : TilePath) (change : Int) :
    SameTiles manager (manager.addToCount path change) where
  tile := by
    intro other
    by_cases h : other = path
    · subst h
      simp [addToCount]
    · simp [addToCount, h]
  depth := rfl
  tileLoadsInProgress := rfl
  loadedTilesCount := rfl
  tilesDataUsed := rfl
  clearedUnloaded := rfl

theorem addToCount_referenceCount (manager : TilesetContentManager) (path : TilePath) (change : Int)
    (other : TilePath) :
    ((manager.addToCount path change).tile other).referenceCount =
      (manager.tile other).referenceCount + if other = path then change else 0 := by
  by_cases h : other = path
  · subst h
    simp [addToCount]
  · simp [addToCount, h]

/-- What a change of a child's count does to the number of referenced children of its parent. -/
theorem addToCount_referencedChildren (change : Int) {index : Nat} {parent : TilePath}
    (hindex : index < (manager.tile parent).childCount) (other : TilePath) :
    ((manager.addToCount (index :: parent) change).referencedChildren other : Int) =
      manager.referencedChildren other +
        if other = parent then
          (if 0 < (manager.tile (index :: parent)).referenceCount + change then 1 else 0) -
            (if 0 < (manager.tile (index :: parent)).referenceCount then 1 else 0)
        else 0 := by
  rw [referencedChildren_eq, referencedChildren_eq, (addToCount_sameTiles _ _ _).childCount]
  by_cases hother : other = parent
  · subst hother
    have hoff : ∀ sibling, sibling ≠ index →
        decide (0 < ((manager.addToCount (index :: other) change).tile (sibling :: other)).referenceCount) =
          decide (0 < (manager.tile (sibling :: other)).referenceCount) := by
      intro sibling hsibling
      simp [addToCount_referenceCount, hsibling]
    rw [List.countP_range_of_eq_off index hoff, if_pos hindex]
    simp [addToCount_referenceCount]
  · have hne : ∀ sibling, ¬ sibling :: other = index :: parent := by
      intro sibling h
      exact hother (List.cons.inj h).2
    simp [addToCount_referenceCount, hne, hother]

theorem addToCount_root_referencedChildren (other : TilePath) :
    (manager.addToCount [] change).referencedChildren other = manager.referencedChildren other := by
  simp [referencedChildren_eq, (addToCount_sameTiles _ _ _).childCount, addToCount_referenceCount]

end Change

namespace Counts

variable {pointers : TilePath → Int} {others : Int}

theorem isContentReferenced_of_tile
    (h : (manager.tile path).referenceCount =
      pointers path + (if (manager.tile path).hasReferencingContent then 1 else 0) + manager.referencedChildren path) :
    manager.isContentReferenced path = true ↔ 0 < pointers path := by
  rw [isContentReferenced, decide_eq_true_iff, h]
  omega

theorem isContentReferenced (h : Counts pointers others manager) (path : TilePath) :
    manager.isContentReferenced path = true ↔ 0 < pointers path :=
  isContentReferenced_of_tile (h.tile path)

/-- Where no pointer count is negative, no reference count is. -/
theorem referenceCount_nonneg (h : Counts pointers others manager) (hpointers : ∀ path, 0 ≤ pointers path)
    (path : TilePath) : 0 ≤ (manager.tile path).referenceCount := by
  have htile := h.tile path
  have hnonneg := hpointers path
  split at htile <;> omega

/-- Counts depend on the tiles and on the manager's own count only. -/
theorem congr (h : Counts pointers others earlier) (htile : later.tile = earlier.tile)
    (hcount : later.referenceCount = earlier.referenceCount) : Counts pointers others later where
  tile := by
    intro path
    have hchildren : later.referencedChildren path = earlier.referencedChildren path := by
      rw [referencedChildren_eq, referencedChildren_eq, htile]
    rw [htile, hchildren]
    exact h.tile path
  manager := by
    rw [htile, hcount]
    exact h.manager

/-- A change of the root tile's count, passed on to the manager. -/
theorem addToCount_root (change passed : Int) (h : Counts (pointers + Pi.single [] (-change)) others manager)
    (hpassed : passed = (if 0 < (manager.tile []).referenceCount + change then 1 else 0) -
      if 0 < (manager.tile []).referenceCount then 1 else 0) :
    Counts pointers others
      { manager.addToCount [] change with referenceCount := manager.referenceCount + passed } where
  tile := by
    intro path
    have htile := h.tile path
    have hchildren : (manager.addToCount [] change).referencedChildren path = manager.referencedChildren path :=
      addToCount_root_referencedChildren path
    have hcount := addToCount_referenceCount manager [] change path
    have hcontent := (addToCount_sameTiles manager [] change).hasReferencingContent
      path
    show ((manager.addToCount [] change).tile path).referenceCount = pointers path +
      (if ((manager.addToCount [] change).tile path).hasReferencingContent then 1 else 0) +
        ((manager.addToCount [] change).referencedChildren path : Int)
    rw [hcount, hcontent, hchildren, htile, Pi.add_apply, Pi.single_apply]
    split <;> omega
  manager := by
    have hcount := addToCount_referenceCount manager [] change []
    rw [if_pos rfl] at hcount
    show manager.referenceCount + passed =
      others + if 0 < ((manager.addToCount [] change).tile []).referenceCount then 1 else 0
    rw [hcount, h.manager, hpassed]
    ring

/-- A change of the count of a tile below the root is one that its parent misses where it makes the tile referenced
or leaves it unreferenced. -/
theorem addToCount (change missed : Int) {index : Nat} {parent : TilePath}
    (h : Counts (pointers + Pi.single (index :: parent) (-change)) others manager)
    (hindex : index < (manager.tile parent).childCount)
    (hmissed : missed = (if 0 < (manager.tile (index :: parent)).referenceCount + change then 1 else 0) -
      if 0 < (manager.tile (index :: parent)).referenceCount then 1 else 0) :
    Counts (pointers + Pi.single parent (-missed)) others (manager.addToCount (index :: parent) change) where
  tile := by
    intro path
    have htile := h.tile path
    have hchildren := addToCount_referencedChildren change hindex path
    have hcount := addToCount_referenceCount manager (index :: parent) change path
    have hcontent := (addToCount_sameTiles manager (index :: parent) change).hasReferencingContent path
    rw [hcount, hcontent, hchildren, htile, ← hmissed]
    simp only [Pi.add_apply, Pi.single_apply]
    split_ifs <;> ring
  manager := by
    have hcount := addToCount_referenceCount manager (index :: parent) change []
    rw [if_neg (List.cons_ne_nil index parent).symm, add_zero] at hcount
    rw [hcount]
    exact h.manager

end Counts

/-- What `addReference` does beyond counting: tiles leave the list of what may be unloaded only where pointers are
held on them. -/
structure Adds (pointers : TilePath → Int) (others : Int) (earlier later : TilesetContentManager) : Prop where
  counts : Counts pointers others later
  sameTiles : SameTiles earlier later
  assertionsHold : later.assertionsHold = earlier.assertionsHold
  sublist : later.tilesEligibleForContentUnloading.Sublist earlier.tilesEligibleForContentUnloading
  removed : ∀ path ∈ earlier.tilesEligibleForContentUnloading,
    path ∉ later.tilesEligibleForContentUnloading → 0 < pointers path

namespace Adds

variable {pointers : TilePath → Int} {others : Int}

/-- The last step of `addReference`. -/
theorem markTileIneligible (h : Adds pointers others earlier later) (path : TilePath) :
    Adds pointers others earlier
      (if later.isContentReferenced path then later.markTileIneligibleForContentUnloading path else later) := by
  by_cases href : later.isContentReferenced path = true
  · rw [if_pos href]
    refine ⟨h.counts.congr rfl rfl, h.sameTiles.trans ⟨fun _ => rfl, rfl, rfl, rfl, rfl, rfl⟩, h.assertionsHold,
      List.erase_sublist.trans h.sublist, ?_⟩
    intro other hmem herase
    by_cases hother : other = path
    · rw [hother]
      exact (h.counts.isContentReferenced path).mp href
    · apply h.removed other hmem
      intro hlater
      exact herase ((List.mem_erase_of_ne hother).mpr hlater)
  · rw [if_neg href]
    exact h

end Adds

/-- What `releaseReference` does beyond counting: tiles that no pointer is held on enter the list at its end. -/
structure Releases (pointers : TilePath → Int) (earlier later : TilesetContentManager) : Prop where
  sameTiles : SameTiles earlier later
  assertionsHold : later.assertionsHold = earlier.assertionsHold
  isPrefix : earlier.tilesEligibleForContentUnloading <+: later.tilesEligibleForContentUnloading
  nodup : earlier.tilesEligibleForContentUnloading.Nodup → later.tilesEligibleForContentUnloading.Nodup
  added : ∀ path ∈ later.tilesEligibleForContentUnloading, path ∉ earlier.tilesEligibleForContentUnloading →
    pointers path ≤ 0 ∧ earlier.isInTree path = true
  referenceCount_le : ∀ path, (later.tile path).referenceCount ≤ (earlier.tile path).referenceCount

namespace Releases

variable {pointers : TilePath → Int}

theorem of_sameTiles (h : SameTiles earlier later) (hassertions : later.assertionsHold = earlier.assertionsHold)
    (hlist : later.tilesEligibleForContentUnloading = earlier.tilesEligibleForContentUnloading)
    (hcount : ∀ path, (later.tile path).referenceCount ≤ (earlier.tile path).referenceCount) :
    Releases pointers earlier later where
  sameTiles := h
  assertionsHold := hassertions
  isPrefix := by rw [hlist]
  nodup := by rw [hlist]; exact fun hnodup => hnodup
  added := by
    intro path hmem hnot
    rw [hlist] at hmem
    exact absurd hmem hnot
  referenceCount_le := hcount

theorem trans (h : Releases pointers earlier middle) (h' : Releases pointers middle later) :
    Releases pointers earlier later where
  sameTiles := h.sameTiles.trans h'.sameTiles
  assertionsHold := h'.assertionsHold.trans h.assertionsHold
  isPrefix := h.isPrefix.trans h'.isPrefix
  nodup := fun hnodup => h'.nodup (h.nodup hnodup)
  added := by
    intro path hmem hnot
    by_cases hmiddle : path ∈ middle.tilesEligibleForContentUnloading
    · exact h.added path hmiddle hnot
    · rw [← h.sameTiles.isInTree path]
      exact h'.added path hmem hmiddle
  referenceCount_le := fun path => (h'.referenceCount_le path).trans (h.referenceCount_le path)

/-- The step of `releaseReference` that concerns the list. -/
theorem markTileEligible (hreferenced : manager.isContentReferenced path = true ↔ 0 < pointers path)
    (hin : manager.isInTree path = true) :
    Releases pointers manager (if manager.isContentReferenced path then manager
      else manager.markTileEligibleForContentUnloading path) := by
  split
  · exact of_sameTiles (SameTiles.refl manager) rfl rfl fun _ => le_rfl
  · rename_i hunreferenced
    rw [markTileEligibleForContentUnloading]
    split
    · exact of_sameTiles (SameTiles.refl manager) rfl rfl fun _ => le_rfl
    · rename_i hnew
      refine ⟨⟨fun _ => rfl, rfl, rfl, rfl, rfl, rfl⟩, rfl, List.prefix_append _ _, ?_, ?_, fun _ => le_rfl⟩
      · intro hnodup
        exact List.nodup_append.mpr ⟨hnodup, List.nodup_singleton path, fun other hother last hlast heq => by
          rw [List.mem_singleton.mp hlast] at heq
          exact hnew (heq ▸ hother)⟩
      · intro other hmem hnot
        rcases List.mem_append.mp hmem with hold | hlast
        · exact absurd hold hnot
        · rw [List.mem_singleton.mp hlast]
          rw [hreferenced] at hunreferenced
          exact ⟨not_lt.mp hunreferenced, hin⟩

end Releases

section Operations

variable {pointers : TilePath → Int} {others : Int}

/-- `addReference` counts first and takes the tile from the list last. -/
theorem addReference_eq (hcounts : Counts (pointers + Pi.single path (-1)) others manager)
    (hnonneg : ∀ path, 0 ≤ (manager.tile path).referenceCount) (hin : manager.isInTree path = true) :
    ∃ counted, Adds pointers others manager counted ∧ manager.addReference path =
      if counted.isContentReferenced path then counted.markTileIneligibleForContentUnloading path else counted := by
  induction path generalizing manager pointers with
  | nil =>
      have hold := hnonneg []
      have hnew := addToCount_referenceCount manager [] 1 []
      rw [if_pos rfl] at hnew
      rw [addReference]
      refine ⟨_, ?_, rfl⟩
      change Adds pointers others manager
        (if ((manager.addToCount [] 1).tile []).referenceCount = 1 then
          { manager.addToCount [] 1 with referenceCount := manager.referenceCount + 1 }
        else manager.addToCount [] 1)
      by_cases hfirst : ((manager.addToCount [] 1).tile []).referenceCount = 1
      · rw [if_pos hfirst]
        have hafter := Counts.addToCount_root 1 1 hcounts (by rw [if_pos (by omega), if_neg (by omega)]; rfl)
        exact ⟨hafter, (addToCount_sameTiles _ _ _).trans ⟨fun _ => rfl, rfl, rfl, rfl, rfl, rfl⟩, rfl, List.Sublist.refl _,
          fun _ hmem hnot => absurd hmem hnot⟩
      · rw [if_neg hfirst]
        have hafter := Counts.addToCount_root 1 0 hcounts (by rw [if_pos (by omega), if_pos (by omega)]; rfl)
        exact ⟨hafter.congr rfl (add_zero _).symm, addToCount_sameTiles _ _ _, rfl, List.Sublist.refl _,
          fun _ hmem hnot => absurd hmem hnot⟩
  | cons index parent ih =>
      rw [isInTree, Bool.and_eq_true, decide_eq_true_iff] at hin
      obtain ⟨hindex, hparent⟩ := hin
      have hold := hnonneg (index :: parent)
      have hnew := addToCount_referenceCount manager (index :: parent) 1
        (index :: parent)
      rw [if_pos rfl] at hnew
      rw [addReference]
      refine ⟨_, ?_, rfl⟩
      change Adds pointers others manager
        (if ((manager.addToCount (index :: parent) 1).tile (index :: parent)).referenceCount = 1 then
          addReference parent ((manager.addToCount (index :: parent) 1).assert
            (index < ((manager.addToCount (index :: parent) 1).tile parent).childCount))
        else manager.addToCount (index :: parent) 1)
      have hsame := addToCount_sameTiles manager (index :: parent) 1
      by_cases hfirst : ((manager.addToCount (index :: parent) 1).tile (index :: parent)).referenceCount = 1
      · -- the parent misses the reference that this tile now needs on it
        rw [if_pos hfirst, hsame.childCount, decide_eq_true hindex, assert_true]
        have hafter := Counts.addToCount 1 1 hcounts hindex (by rw [if_pos (by omega), if_neg (by omega)]; rfl)
        have hnonneg' : ∀ other, 0 ≤ ((manager.addToCount (index :: parent) 1).tile other).referenceCount := by
          intro other
          rw [addToCount_referenceCount]
          have hother := hnonneg other
          split <;> omega
        obtain ⟨counted, hcounted, heq⟩ := ih hafter hnonneg' ((hsame.isInTree parent).trans hparent)
        have hup := heq ▸ hcounted.markTileIneligible parent
        exact ⟨hup.counts, hsame.trans hup.sameTiles, hup.assertionsHold, hup.sublist, hup.removed⟩
      · rw [if_neg hfirst]
        have hafter := Counts.addToCount 1 0 hcounts hindex (by rw [if_pos (by omega), if_pos (by omega)]; rfl)
        rw [neg_zero, Pi.single_zero, add_zero] at hafter
        exact ⟨hafter, hsame, rfl, List.Sublist.refl _, fun _ hmem hnot => absurd hmem hnot⟩

theorem addReference_adds (hcounts : Counts (pointers + Pi.single path (-1)) others manager)
    (hnonneg : ∀ path, 0 ≤ (manager.tile path).referenceCount) (hin : manager.isInTree path = true) :
    Adds pointers others manager (manager.addReference path) := by
  obtain ⟨counted, hcounted, heq⟩ := addReference_eq hcounts hnonneg hin
  rw [heq]
  exact hcounted.markTileIneligible path

/-- A tile that a pointer is held on is not in the list after a reference has been added. -/
theorem addReference_not_mem (hcounts : Counts (pointers + Pi.single path (-1)) others manager)
    (hnonneg : ∀ path, 0 ≤ (manager.tile path).referenceCount) (hin : manager.isInTree path = true)
    (hnodup : manager.tilesEligibleForContentUnloading.Nodup) (hheld : 0 < pointers path) :
    path ∉ (manager.addReference path).tilesEligibleForContentUnloading := by
  obtain ⟨counted, hcounted, heq⟩ := addReference_eq hcounts hnonneg hin
  rw [heq, if_pos ((hcounted.counts.isContentReferenced path).mpr hheld)]
  exact (hcounted.sublist.nodup hnodup).not_mem_erase

theorem markTileIneligible_tile (condition : Bool) :
    (if condition then manager.markTileIneligibleForContentUnloading path else manager).tile = manager.tile := by
  split <;> rfl

theorem addReference_nil (manager : TilesetContentManager) :
    manager.addReference [] =
      let counted :=
        if ((manager.addToCount [] 1).tile []).referenceCount = 1 then
          { manager.addToCount [] 1 with referenceCount := manager.referenceCount + 1 }
        else manager.addToCount [] 1
      if counted.isContentReferenced [] then counted.markTileIneligibleForContentUnloading [] else counted := rfl

theorem addReference_cons (index : Nat) (parent : TilePath) (manager : TilesetContentManager) :
    manager.addReference (index :: parent) =
      let counted :=
        if ((manager.addToCount (index :: parent) 1).tile (index :: parent)).referenceCount = 1 then
          addReference parent ((manager.addToCount (index :: parent) 1).assert
            (index < ((manager.addToCount (index :: parent) 1).tile parent).childCount))
        else manager.addToCount (index :: parent) 1
      if counted.isContentReferenced (index :: parent) then
        counted.markTileIneligibleForContentUnloading (index :: parent)
      else counted := rfl

/-- `addReference` takes no reference from any tile, and gives none to tiles that are not on the way to the root. -/
theorem addReference_referenceCount (path : TilePath) (manager : TilesetContentManager) (other : TilePath) :
    (manager.tile other).referenceCount ≤ ((manager.addReference path).tile other).referenceCount ∧
      (¬ other <:+ path →
        ((manager.addReference path).tile other).referenceCount = (manager.tile other).referenceCount) := by
  induction path generalizing manager with
  | nil =>
      have hself := addToCount_referenceCount manager [] 1 other
      have htile : (manager.addReference []).tile = (manager.addToCount [] 1).tile := by
        rw [addReference_nil]
        dsimp only
        rw [markTileIneligible_tile]
        split <;> rfl
      rw [htile, hself]
      refine ⟨by split <;> omega, fun hsuffix => ?_⟩
      rw [if_neg fun heq => hsuffix (by rw [heq]), add_zero]
  | cons index parent ih =>
      have hself := addToCount_referenceCount manager (index :: parent) 1 other
      rw [addReference_cons]
      dsimp only
      rw [markTileIneligible_tile]
      split
      · obtain ⟨hle, heq⟩ := ih ((manager.addToCount (index :: parent) 1).assert
          (index < ((manager.addToCount (index :: parent) 1).tile parent).childCount))
        rw [assert_tile] at hle heq
        refine ⟨(by rw [hself]; split <;> omega : _ ≤ _).trans hle, fun hsuffix => ?_⟩
        rw [heq fun hparent => hsuffix (hparent.trans (List.suffix_cons index parent)), hself,
          if_neg fun hother => hsuffix (by rw [hother]), add_zero]
      · rw [hself]
        refine ⟨by split <;> omega, fun hsuffix => ?_⟩
        rw [if_neg fun hother => hsuffix (by rw [hother]), add_zero]

/-- The first part of `releaseReference`, which counts and lists the tile itself. -/
def releaseTile (path : TilePath) (manager : TilesetContentManager) : TilesetContentManager :=
  let released := manager.addToCount path (-1)
  if released.isContentReferenced path then released else released.markTileEligibleForContentUnloading path

theorem releaseTile_tile : (manager.releaseTile path).tile = (manager.addToCount path (-1)).tile := by
  simp only [releaseTile, markTileEligibleForContentUnloading]
  split_ifs <;> rfl

theorem releaseTile_referenceCount : (manager.releaseTile path).referenceCount = manager.referenceCount := by
  simp only [releaseTile, markTileEligibleForContentUnloading]
  split_ifs <;> rfl

/-- The references on a tile that counts the one to be released. -/
theorem referenceCount_of_extra (hcounts : Counts (pointers + Pi.single path 1) others manager) :
    (manager.tile path).referenceCount = pointers path + 1 +
      (if (manager.tile path).hasReferencingContent then 1 else 0) + manager.referencedChildren path := by
  have htile := hcounts.tile path
  rwa [Pi.add_apply, Pi.single_eq_same] at htile

theorem referenceCount_pos_of_extra (hcounts : Counts (pointers + Pi.single path 1) others manager)
    (hpointers : ∀ path, 0 ≤ pointers path) : 0 < (manager.tile path).referenceCount := by
  have hheld := hpointers path
  rw [referenceCount_of_extra hcounts]
  split <;> omega

theorem releaseTile_releases (hcounts : Counts (pointers + Pi.single path 1) others manager)
    (hin : manager.isInTree path = true) :
    Releases pointers manager (manager.releaseTile path) ∧
      (pointers path ≤ 0 → path ∈ (manager.releaseTile path).tilesEligibleForContentUnloading) := by
  have hsame := addToCount_sameTiles manager path (-1)
  have hreferenced : (manager.addToCount path (-1)).isContentReferenced path = true ↔ 0 < pointers path := by
    apply Counts.isContentReferenced_of_tile
    have hchildren : (manager.addToCount path (-1)).referencedChildren path = manager.referencedChildren path := by
      have hne : ∀ index, ¬ index :: path = path := fun index => List.cons_ne_self index path
      simp [referencedChildren_eq, hsame.childCount, addToCount_referenceCount, hne]
    rw [hchildren, hsame.hasReferencingContent, addToCount_referenceCount, if_pos rfl,
      referenceCount_of_extra hcounts]
    ring
  have hle : ∀ other,
      ((manager.addToCount path (-1)).tile other).referenceCount ≤ (manager.tile other).referenceCount := by
    intro other
    rw [addToCount_referenceCount]
    split <;> omega
  refine ⟨(Releases.of_sameTiles hsame rfl rfl hle).trans
    (Releases.markTileEligible hreferenced ((hsame.isInTree path).trans hin)), ?_⟩
  intro hfree
  rw [releaseTile, if_neg (fun h => not_lt.mpr hfree (hreferenced.mp h)), markTileEligibleForContentUnloading]
  split
  · assumption
  · exact List.mem_append_right _ (List.mem_singleton_self path)

theorem releaseReference_nil (manager : TilesetContentManager) :
    manager.releaseReference [] =
      let manager := manager.assert (0 < (manager.tile []).referenceCount)
      if ((manager.addToCount [] (-1)).tile []).referenceCount = 0 then
        { manager.releaseTile [] with referenceCount := (manager.releaseTile []).referenceCount - 1 }
      else manager.releaseTile [] := rfl

theorem releaseReference_cons (index : Nat) (parent : TilePath) (manager : TilesetContentManager) :
    manager.releaseReference (index :: parent) =
      let manager := manager.assert (0 < (manager.tile (index :: parent)).referenceCount)
      if ((manager.addToCount (index :: parent) (-1)).tile (index :: parent)).referenceCount = 0 then
        releaseReference parent ((manager.releaseTile (index :: parent)).assert
          (index < ((manager.releaseTile (index :: parent)).tile parent).childCount))
      else manager.releaseTile (index :: parent) := rfl

/-- `releaseReference` below the root: where the last reference goes, that on the parent is one too many. -/
theorem releaseReference_cons_cases {index : Nat} {parent : TilePath}
    (hcounts : Counts (pointers + Pi.single (index :: parent) 1) others manager)
    (hpointers : ∀ path, 0 ≤ pointers path) (hin : manager.isInTree (index :: parent) = true) :
    ((manager.tile (index :: parent)).hasReferencingContent = false ∧
        Counts (pointers + Pi.single parent 1) others (manager.releaseTile (index :: parent)) ∧
          manager.releaseReference (index :: parent) =
            (manager.releaseTile (index :: parent)).releaseReference parent) ∨
      Counts pointers others (manager.releaseTile (index :: parent)) ∧
        manager.releaseReference (index :: parent) = manager.releaseTile (index :: parent) := by
  obtain ⟨hreleases, -⟩ := releaseTile_releases hcounts hin
  have hpositive := referenceCount_pos_of_extra hcounts hpointers
  have hold := referenceCount_of_extra hcounts
  have hheld := hpointers (index :: parent)
  have hnew := addToCount_referenceCount manager (index :: parent) (-1) (index :: parent)
  rw [if_pos rfl] at hnew
  rw [isInTree, Bool.and_eq_true, decide_eq_true_iff] at hin
  rw [releaseReference_cons, decide_eq_true hpositive, assert_true]
  by_cases hlast : ((manager.addToCount (index :: parent) (-1)).tile (index :: parent)).referenceCount = 0
  · have hafter := (Counts.addToCount (-1) (-1) hcounts hin.1
      (by rw [if_neg (by omega), if_pos hpositive]; rfl)).congr releaseTile_tile releaseTile_referenceCount
    refine .inl ⟨?_, hafter, ?_⟩
    · rw [← Bool.not_eq_true]
      intro hcontent
      rw [if_pos hcontent] at hold
      omega
    · rw [if_pos hlast, hreleases.sameTiles.childCount, decide_eq_true hin.1, assert_true]
  · have hafter := (Counts.addToCount (-1) 0 hcounts hin.1
      (by rw [if_pos (by omega), if_pos hpositive]; rfl)).congr releaseTile_tile releaseTile_referenceCount
    rw [neg_zero, Pi.single_zero, add_zero] at hafter
    exact .inr ⟨hafter, if_neg hlast⟩

theorem releaseReference_spec (hcounts : Counts (pointers + Pi.single path 1) others manager)
    (hpointers : ∀ path, 0 ≤ pointers path) (hin : manager.isInTree path = true) :
    Counts pointers others (manager.releaseReference path) ∧
      Releases pointers manager (manager.releaseReference path) ∧
        (pointers path ≤ 0 → path ∈ (manager.releaseReference path).tilesEligibleForContentUnloading) := by
  induction path generalizing manager pointers with
  | nil =>
      obtain ⟨hreleases, hmem⟩ := releaseTile_releases hcounts hin
      have hpositive := referenceCount_pos_of_extra hcounts hpointers
      have hnew := addToCount_referenceCount manager [] (-1) []
      rw [if_pos rfl] at hnew
      rw [releaseReference_nil, decide_eq_true hpositive, assert_true]
      by_cases hlast : ((manager.addToCount [] (-1)).tile []).referenceCount = 0
      · have hafter := Counts.addToCount_root (-1) (-1) hcounts (by rw [if_neg (by omega), if_pos hpositive]; rfl)
        rw [if_pos hlast]
        refine ⟨hafter.congr releaseTile_tile (congrArg (· - 1) releaseTile_referenceCount), ?_, hmem⟩
        exact hreleases.trans
          (Releases.of_sameTiles ⟨fun _ => rfl, rfl, rfl, rfl, rfl, rfl⟩ rfl rfl fun _ => le_rfl)
      · have hafter := Counts.addToCount_root (-1) 0 hcounts (by rw [if_pos (by omega), if_pos hpositive]; rfl)
        rw [if_neg hlast]
        refine ⟨hafter.congr releaseTile_tile ?_, hreleases, hmem⟩
        rw [releaseTile_referenceCount]
        exact (add_zero _).symm
  | cons index parent ih =>
      obtain ⟨hreleases, hmem⟩ := releaseTile_releases hcounts hin
      have hparent : manager.isInTree parent = true := isInTree_of_suffix (List.suffix_cons index parent) hin
      rcases releaseReference_cons_cases hcounts hpointers hin with ⟨-, hafter, heq⟩ | ⟨hafter, heq⟩
      · obtain ⟨hup, hupReleases, -⟩ := ih hafter hpointers ((hreleases.sameTiles.isInTree parent).trans hparent)
        rw [heq]
        exact ⟨hup, hreleases.trans hupReleases, fun hfree => hupReleases.isPrefix.subset (hmem hfree)⟩
      · rw [heq]
        exact ⟨hafter, hreleases, hmem⟩

end Operations

end QtCesium.TileCache.TilesetContentManager
