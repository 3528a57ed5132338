import QtCesium.TileClearing

/-! `unloadCachedBytes` over the list of what may be unloaded: what one unloading leaves as it is, what the loop
leaves behind it, and that the tiles whose children are cleared afterwards are still there. -/

namespace QtCesium.TileCache.TilesetContentManager

variable {pointers : TilePath → Int} {others : Int} {loads : List Load}
  {manager earlier middle later : TilesetContentManager} {path other : TilePath}

/-- What unloading one tile leaves of the others, and of the list. -/
structure Frees (path : TilePath) (earlier later : TilesetContentManager) : Prop where
  of_ne : ∀ other, other ≠ path →
    later.tile other = { earlier.tile other with referenceCount := (later.tile other).referenceCount }
  childCount : (later.tile path).childCount = (earlier.tile path).childCount
  id : (later.tile path).id = (earlier.tile path).id
  referenceCount_le : ∀ other, (later.tile other).referenceCount ≤ (earlier.tile other).referenceCount
  isPrefix : earlier.tilesEligibleForContentUnloading <+: later.tilesEligibleForContentUnloading
  depth : later.depth = earlier.depth

namespace Frees

theorem refl (path : TilePath) (manager : TilesetContentManager) : Frees path manager manager :=
  ⟨fun _ _ => rfl, rfl, rfl, fun _ => le_rfl, List.prefix_rfl, rfl⟩

/-- A change of one tile, then the release of a reference. -/
theorem of_replaces (h : Sound.Replaces path earlier middle) (hreleases : Releases pointers middle later)
    (hcount : (middle.tile path).referenceCount = (earlier.tile path).referenceCount)
    (hlist : middle.tilesEligibleForContentUnloading = earlier.tilesEligibleForContentUnloading) :
    Frees path earlier later where
  of_ne := by
    intro other hother
    rw [hreleases.sameTiles.tile, h.of_ne other hother]
  childCount := (hreleases.sameTiles.childCount path).trans h.childCount
  id := (hreleases.sameTiles.id path).trans h.id
  referenceCount_le := by
    intro other
    apply (hreleases.referenceCount_le other).trans_eq
    by_cases hother : other = path
    · rw [hother]
      exact hcount
    · rw [h.of_ne other hother]
  isPrefix := hlist ▸ hreleases.isPrefix
  depth := hreleases.sameTiles.depth.trans h.depth

theorem of_replaced (h : Sound.Replaces path earlier later)
    (hcount : (later.tile path).referenceCount = (earlier.tile path).referenceCount)
    (hlist : later.tilesEligibleForContentUnloading = earlier.tilesEligibleForContentUnloading) :
    Frees path earlier later := by
  have hnone : Releases (fun _ => 0) later later :=
    Releases.of_sameTiles (SameTiles.refl later) rfl rfl fun _ => le_rfl
  exact of_replaces h hnone hcount hlist

variable (h : Frees path earlier later)
include h

theorem childCount_eq (other : TilePath) : (later.tile other).childCount = (earlier.tile other).childCount := by
  by_cases hother : other = path
  · rw [hother]
    exact h.childCount
  · rw [h.of_ne other hother]

theorem isInTree (other : TilePath) : later.isInTree other = earlier.isInTree other :=
  isInTree_congr h.childCount_eq other

theorem content (hother : other ≠ path) : (later.tile other).content = (earlier.tile other).content := by
  rw [h.of_ne other hother]

theorem state (hother : other ≠ path) : (later.tile other).state = (earlier.tile other).state := by
  rw [h.of_ne other hother]

theorem referencedChildren_le (other : TilePath) :
    later.referencedChildren other ≤ earlier.referencedChildren other := by
  rw [referencedChildren_eq, referencedChildren_eq, h.childCount_eq]
  apply List.countP_mono_left
  intro index _ hreferenced
  rw [decide_eq_true_iff] at hreferenced ⊢
  exact hreferenced.trans_le (h.referenceCount_le (index :: other))

end Frees

/-- What the result of an unloading says of the tile. -/
structure Answers (path : TilePath) (earlier : TilesetContentManager)
    (result : UnloadTileContentResult × TilesetContentManager) : Prop where
  frees : Frees path earlier result.2
  kept : result.1 = .keep →
    result.2.tilesEligibleForContentUnloading = earlier.tilesEligibleForContentUnloading ∧
      (result.2.tile path).content = (earlier.tile path).content ∧
        ((earlier.tile path).content.isRenderContent = true →
          (earlier.getChildren path).any earlier.isUpsampling = true)
  removed : result.1 ≠ .keep → (result.2.tile path).content = .unknown
  childless : result.1 = .removeAndClearChildren →
    0 < (earlier.tile path).referenceCount ∧ (result.2.tile path).referenceCount = 0

namespace Intact

theorem dropContent_frees (h : Intact pointers others loads manager) (hin : manager.isInTree path = true)
    (hloadable : (manager.tile path).id.isLoadable = true) (hknown : (manager.tile path).content ≠ .unknown) :
    Frees path manager (manager.dropContent path) ∧ ((manager.dropContent path).tile path).content = .unknown := by
  have hreplaces := dropped_replaces path manager
  have htile := dropped_tile path manager
  have hin' : (manager.dropped path).isInTree path = true := (hreplaces.isInTree path).trans hin
  obtain ⟨-, hreleases, -⟩ := releaseReference_spec (h.counts.dropped hloadable hknown) h.nonneg hin'
  rw [dropContent_eq]
  refine ⟨Frees.of_replaces hreplaces hreleases (by rw [htile]) rfl, ?_⟩
  rw [hreleases.sameTiles.content, htile]

/-- Unloaded external content leaves its tile unreferenced. -/
theorem unreferenced_of_external (h : Intact pointers others loads manager) (hin : manager.isInTree path = true)
    (hloadable : (manager.tile path).id.isLoadable = true) (hstate : (manager.tile path).state ≠ .contentLoading)
    (hexternal : (manager.tile path).content = .external) (hcount : (manager.tile path).referenceCount ≤ 1) :
    0 < (manager.tile path).referenceCount ∧ ((manager.dropContent path).tile path).referenceCount = 0 := by
  have hknown : (manager.tile path).content ≠ .unknown := by simp [hexternal]
  have hunused : Unused loads path manager := by
    apply h.unused_of_not_upsampling
    rw [hexternal]
    exact fun hrender => absurd hrender Bool.false_ne_true
  have hafter := h.dropContent hin hloadable hstate hknown hunused
  obtain ⟨hfrees, hunknown⟩ := h.dropContent_frees hin hloadable hknown
  have hown : (manager.tile path).hasReferencingContent = true := by
    simp [Tile.hasReferencingContent, hknown, hloadable]
  have hnone : ((manager.dropContent path).tile path).hasReferencingContent = false := by
    simp [Tile.hasReferencingContent, hunknown]
  have hbefore := h.counts.tile path
  have hlater := hafter.counts.tile path
  have hpointers := h.nonneg path
  have hchildren := hfrees.referencedChildren_le path
  rw [if_pos hown] at hbefore
  rw [hnone, if_neg Bool.false_ne_true] at hlater
  omega

/-- The result of `unloadTileContent` is right about the tile. -/
theorem unloadTileContent_answers (h : Intact pointers others loads manager) (hin : manager.isInTree path = true) :
    Answers path manager (manager.unloadTileContent path) := by
  have hconsistent := h.sound.consistent path
  have hcases := unloadTileContent_unloads hconsistent
  generalize manager.unloadTileContent path = result at hcases ⊢
  cases hcases with
  | keep hkeep =>
      refine ⟨Frees.refl path manager, fun _ => ⟨rfl, rfl, fun hrender => ?_⟩, by simp, by simp⟩
      rcases hkeep with hloadable | hloading | ⟨hexternal, -⟩
      · rw [hconsistent.loadable hrender] at hloadable
        cases hloadable
      · rw [hconsistent.unknown (.inr (.inl hloading))] at hrender
        cases hrender
      · rw [hexternal] at hrender
        cases hrender
  | unloaded hunloaded =>
      exact ⟨Frees.refl path manager, by simp, fun _ => hconsistent.unknown (.inl hunloaded), by simp⟩
  | drop hloadable hstate hknown _ hunused =>
      obtain ⟨hfrees, hunknown⟩ := h.dropContent_frees hin hloadable hknown
      exact ⟨hfrees, by simp, fun _ => hunknown, by simp⟩
  | dropExternal hloadable hstate hexternal hcount =>
      obtain ⟨hfrees, hunknown⟩ := h.dropContent_frees hin hloadable (by simp [hexternal])
      exact ⟨hfrees, by simp, fun _ => hunknown,
        fun _ => h.unreferenced_of_external hin hloadable hstate hexternal hcount⟩
  | wait hstate hused =>
      have hfrees : Frees path manager (manager.setState path .unloading) :=
        Frees.of_replaced (setState_replaces .unloading) (by simp [TilesetContentManager.setState]) rfl
      exact ⟨hfrees, fun _ => ⟨rfl, by simp [TilesetContentManager.setState], fun _ => hused⟩, by simp, by simp⟩
  | forget hstate hunknown =>
      have htile : ((manager.notifyTileUnloading path).setState path .unloaded).tile path =
          { manager.tile path with state := .unloaded } := modifyTile_tile_self _
      refine ⟨Frees.of_replaced (forgotten_replaces hunknown) (by rw [htile]) rfl, by simp, fun _ => ?_, by simp⟩
      show (((manager.notifyTileUnloading path).setState path .unloaded).tile path).content = .unknown
      rw [htile]
      exact hunknown

end Intact

section Weights

/-- How many passes of the loop a tile in the list accounts for: its own, and those of the tiles on the way to the
root that enter the list when the reference of its content is released. -/
def weight (manager : TilesetContentManager) (path : TilePath) : Nat :=
  1 + if (manager.tile path).hasReferencingContent then path.length else 0

def weights (manager : TilesetContentManager) (list : List TilePath) : Nat := (list.map manager.weight).sum

theorem weights_append (manager : TilesetContentManager) (list rest : List TilePath) :
    manager.weights (list ++ rest) = manager.weights list + manager.weights rest := by
  rw [weights, weights, weights, List.map_append, List.sum_append]

theorem weights_congr {list : List TilePath}
    (h : ∀ path ∈ list, (later.tile path).hasReferencingContent = (earlier.tile path).hasReferencingContent) :
    later.weights list = earlier.weights list := by
  rw [weights, weights]
  congr 1
  apply List.map_congr_left
  intro path hpath
  rw [weight, weight, h path hpath]

theorem releaseTile_list (path : TilePath) (manager : TilesetContentManager) :
    (manager.releaseTile path).tilesEligibleForContentUnloading = manager.tilesEligibleForContentUnloading ∨
      path ∉ manager.tilesEligibleForContentUnloading ∧
        (manager.releaseTile path).tilesEligibleForContentUnloading =
          manager.tilesEligibleForContentUnloading ++ [path] := by
  simp only [releaseTile, markTileEligibleForContentUnloading]
  split
  · exact .inl rfl
  · split
    · exact .inl rfl
    · rename_i hnew
      exact .inr ⟨hnew, rfl⟩

theorem weight_le (manager : TilesetContentManager) (path : TilePath) :
    1 ≤ manager.weight path ∧ manager.weight path ≤ path.length + 1 := by
  rw [weight]
  split <;> omega

/-- The tiles that the release of a reference enters in the list account for no more passes than there are tiles on
the way to the root: all but the last have no content that holds a reference. -/
theorem releaseReference_weights (hcounts : Counts (withPointer path pointers) others manager)
    (hpointers : ∀ path, 0 ≤ pointers path) (hin : manager.isInTree path = true) {extra : List TilePath}
    (hextra : (manager.releaseReference path).tilesEligibleForContentUnloading =
      manager.tilesEligibleForContentUnloading ++ extra) :
    manager.weights extra ≤
      if path ∈ manager.tilesEligibleForContentUnloading then path.length else path.length + 1 := by
  induction path generalizing manager extra with
  | nil =>
      have hlist : (manager.releaseReference []).tilesEligibleForContentUnloading =
          (manager.releaseTile []).tilesEligibleForContentUnloading := by
        have hpositive := referenceCount_pos_of_extra hcounts hpointers
        rw [releaseReference_nil, decide_eq_true hpositive, assert_true]
        dsimp only
        split <;> rfl
      have hweight := weight_le manager []
      rcases releaseTile_list [] manager with hsame | ⟨hnew, hadded⟩
      · rw [hlist, hsame, List.self_eq_append_right] at hextra
        rw [hextra]
        exact Nat.zero_le _
      · rw [hlist, hadded] at hextra
        rw [← List.append_cancel_left hextra, if_neg hnew]
        simpa [weights] using hweight.2
  | cons index parent ih =>
      obtain ⟨hreleases, -⟩ := releaseTile_releases hcounts hin
      have hweight := weight_le manager (index :: parent)
      have hparent : manager.isInTree parent = true := isInTree_of_suffix (List.suffix_cons index parent) hin
      rcases releaseReference_cons_cases hcounts hpointers hin with ⟨hcontent, hafter, heq⟩ | ⟨-, heq⟩
      · have hin' := (hreleases.sameTiles.isInTree parent).trans hparent
        obtain ⟨-, hup, -⟩ := releaseReference_spec hafter hpointers hin'
        obtain ⟨above, habove⟩ := hup.isPrefix
        have hweights : manager.weights above = (manager.releaseTile (index :: parent)).weights above :=
          (weights_congr fun path _ => hreleases.sameTiles.hasReferencingContent path).symm
        have hbound := ih hafter hin' habove.symm
        have habove_le : manager.weights above ≤ parent.length + 1 := by
          rw [hweights]
          split at hbound <;> omega
        have hself : manager.weight (index :: parent) = 1 := by
          rw [weight, hcontent]
          rfl
        rw [heq, ← habove] at hextra
        rcases releaseTile_list (index :: parent) manager with hsame | ⟨hnew, hadded⟩
        · rw [hsame] at hextra
          rw [← List.append_cancel_left hextra, List.length_cons]
          split <;> omega
        · rw [hadded, List.append_assoc] at hextra
          rw [← List.append_cancel_left hextra, weights_append, if_neg hnew, List.length_cons]
          simp only [weights, List.map_cons, List.map_nil, List.sum_cons, List.sum_nil] at habove_le ⊢
          omega
      · rw [heq] at hextra
        rcases releaseTile_list (index :: parent) manager with hsame | ⟨hnew, hadded⟩
        · rw [hsame, List.self_eq_append_right] at hextra
          rw [hextra]
          exact Nat.zero_le _
        · rw [hadded] at hextra
          rw [← List.append_cancel_left hextra, if_neg hnew]
          simpa [weights] using hweight.2

/-- What an unloading enters in the list accounts for fewer passes than the tile itself. -/
theorem Intact.unloadTileContent_weights (h : Intact pointers others loads manager)
    (hmem : path ∈ manager.tilesEligibleForContentUnloading) {extra : List TilePath}
    (hextra : (manager.unloadTileContent path).2.tilesEligibleForContentUnloading =
      manager.tilesEligibleForContentUnloading ++ extra) :
    (manager.unloadTileContent path).2.weights extra + 1 ≤ manager.weight path := by
  have hin := (h.listed.unheld path hmem).1
  have hcases := unloadTileContent_unloads (h.sound.consistent path)
  generalize manager.unloadTileContent path = result at hcases hextra ⊢
  have hnone : result.2.tilesEligibleForContentUnloading = manager.tilesEligibleForContentUnloading →
      result.2.weights extra + 1 ≤ manager.weight path := by
    intro hsame
    rw [hsame, List.self_eq_append_right] at hextra
    rw [hextra]
    exact (weight_le manager path).1
  have hdrop : (manager.tile path).id.isLoadable = true → (manager.tile path).content ≠ .unknown →
      result.2 = manager.dropContent path → result.2.weights extra + 1 ≤ manager.weight path := by
    intro hloadable hknown hresult
    have hcounts := h.counts.dropped hloadable hknown
    have hin' : (manager.dropped path).isInTree path = true :=
      ((dropped_replaces path manager).isInTree path).trans hin
    obtain ⟨-, hreleases, -⟩ := releaseReference_spec hcounts h.nonneg hin'
    rw [hresult, dropContent_eq] at hextra ⊢
    have hlisted : path ∈ (manager.dropped path).tilesEligibleForContentUnloading := hmem
    have hbound := releaseReference_weights hcounts h.nonneg hin' hextra
    rw [if_pos hlisted] at hbound
    have hown : (manager.tile path).hasReferencingContent = true := by
      simp [Tile.hasReferencingContent, hknown, hloadable]
    rw [weights_congr fun other _ => hreleases.sameTiles.hasReferencingContent other, weight, hown]
    simp only [if_true]
    omega
  cases hcases with
  | keep _ => exact hnone rfl
  | unloaded _ => exact hnone rfl
  | drop hloadable _ hknown _ _ => exact hdrop hloadable hknown rfl
  | dropExternal hloadable _ hexternal _ => exact hdrop hloadable (by simp [hexternal]) rfl
  | wait _ _ => exact hnone rfl
  | forget _ _ => exact hnone rfl

theorem Frees.weights (h : Frees path earlier later) {list : List TilePath} (hnot : path ∉ list) :
    later.weights list = earlier.weights list := by
  apply weights_congr
  intro other hother
  rw [h.of_ne other fun heq => hnot (heq ▸ hother)]
  rfl

end Weights

section Loop

variable {cleared : List TilePath} {size : Nat}

/-- The element of a list after one that occurs once. -/
theorem next_of_split {before rest : List TilePath}
    (hlist : manager.tilesEligibleForContentUnloading = before ++ path :: rest) (hnew : path ∉ before) :
    manager.next path = rest.head? := by
  have hdrop : (before ++ path :: rest).dropWhile (· ≠ path) = path :: rest := by
    rw [List.dropWhile_append_of_pos]
    · simp
    · intro other hother
      simp only [decide_eq_true_eq]
      exact fun heq => hnew (heq ▸ hother)
  rw [next, hlist, hdrop, List.tail_cons]

/-- A tile whose content is needed by the load of one that is upsampled from it. -/
def Upsampled (loads : List Load) (path : TilePath) (manager : TilesetContentManager) : Prop :=
  ∃ load ∈ loads, ∃ index, load.path = index :: path ∧ (manager.tile load.path).id = .upsampledQuadtreeNode

/-- Between two passes of the loop: what is in the list before the next tile has no content to unload or has to wait,
what comes from there on accounts for a number of passes, and the tiles whose children are to be cleared stay there until the children of those before them are cleared. -/
structure Sweep (pointers : TilePath → Int) (others : Int) (loads : List Load) (cursor : Option TilePath)
    (cleared : List TilePath) (size : Nat) (manager : TilesetContentManager) : Prop where
  intact : Intact pointers others loads manager
  split : ∃ before rest, manager.tilesEligibleForContentUnloading = before ++ rest ∧ rest.head? = cursor ∧
    manager.weights rest ≤ size ∧
      ∀ path ∈ before, (manager.tile path).content.isRenderContent = true → Upsampled loads path manager
  childless : ∀ path ∈ cleared, manager.isInTree path = true ∧ (manager.tile path).referenceCount = 0
  ordered : cleared.Pairwise fun path other => ¬ Below path other

/-- A tile that has no render content can leave the list. -/
theorem Intact.markTileIneligible (h : Intact pointers others loads manager)
    (hcontent : (manager.tile path).content.isRenderContent = false) :
    Intact pointers others loads (manager.markTileIneligibleForContentUnloading path) := by
  have hsame : SameTiles manager (manager.markTileIneligibleForContentUnloading path) :=
    ⟨fun _ => rfl, rfl, rfl, rfl, rfl, rfl⟩
  refine ⟨h.counts.congr rfl rfl, h.sound.of_sameTiles hsame, ⟨List.erase_sublist.nodup h.listed.nodup, ?_, ?_⟩,
    h.nonneg, fun other hpositive => (hsame.isInTree other).trans (h.inTree other hpositive), h.held, h.assertions⟩
  · intro other hmem
    obtain ⟨hin, hfree⟩ := h.listed.unheld other (List.mem_of_mem_erase hmem)
    exact ⟨(hsame.isInTree other).trans hin, hfree⟩
  · intro other hrender hfree
    have hne : other ≠ path := by
      rintro rfl
      exact Bool.false_ne_true (hcontent.symm.trans hrender)
    exact (List.mem_erase_of_ne hne).mpr (h.listed.complete other hrender hfree)

/-- A tile without pointers on it is not being loaded. -/
theorem Intact.not_loading (h : Intact pointers others loads manager) (hfree : pointers path = 0) :
    (manager.tile path).state ≠ .contentLoading := by
  intro hloading
  obtain ⟨load, hload, rfl⟩ := List.mem_map.mp ((h.sound.loading path).mp hloading)
  have hheld := h.held load hload
  omega

theorem Intact.upsampled_of_any (h : Intact pointers others loads manager)
    (hany : (manager.getChildren path).any manager.isUpsampling = true) : Upsampled loads path manager := by
  obtain ⟨child, hchild, hupsampling⟩ := List.any_eq_true.mp hany
  obtain ⟨index, -, rfl⟩ := mem_getChildren.mp hchild
  rw [isUpsampling, Bool.and_eq_true, decide_eq_true_iff, decide_eq_true_iff] at hupsampling
  obtain ⟨load, hload, hpath⟩ := List.mem_map.mp ((h.sound.loading _).mp hupsampling.1)
  exact ⟨load, hload, index, hpath, by rw [hpath]; exact hupsampling.2⟩

theorem Frees.id_eq (h : Frees path earlier later) (other : TilePath) :
    (later.tile other).id = (earlier.tile other).id := by
  by_cases hother : other = path
  · rw [hother]
    exact h.id
  · rw [h.of_ne other hother]

/-- The list after one pass, split at the tile that is next. -/
theorem list_after_pass {before rest : List TilePath} {result : UnloadTileContentResult × TilesetContentManager}
    (hanswers : Answers path manager result)
    (hlist : manager.tilesEligibleForContentUnloading = before ++ path :: rest) (hnew : path ∉ before) :
    ∃ extra, result.2.tilesEligibleForContentUnloading = before ++ path :: rest ++ extra ∧
      (if result.1 = .keep then result.2 else
        result.2.markTileIneligibleForContentUnloading path).tilesEligibleForContentUnloading =
          if result.1 = .keep then before ++ path :: rest else before ++ rest ++ extra := by
  obtain ⟨extra, hextra⟩ := hanswers.frees.isPrefix
  rw [hlist] at hextra
  refine ⟨extra, hextra.symm, ?_⟩
  by_cases hkeep : result.1 = .keep
  · rw [if_pos hkeep, if_pos hkeep, (hanswers.kept hkeep).1, hlist]
  · rw [if_neg hkeep, if_neg hkeep, markTileIneligibleForContentUnloading, ← hextra, List.append_assoc,
      List.erase_append_right _ hnew, List.cons_append, List.erase_cons_head, List.append_assoc]

theorem Frees.upsampled (h : Frees path earlier later) (hupsampled : Upsampled loads other earlier) :
    Upsampled loads other later := by
  obtain ⟨load, hload, index, hpath, hid⟩ := hupsampled
  exact ⟨load, hload, index, hpath, (h.id_eq load.path).trans hid⟩

/-- What enters the list while a tile is unloaded has no content to unload. -/
theorem Intact.not_render_of_new (h : Intact pointers others loads earlier) (h' : Intact pointers others loads later)
    (hfrees : Frees path earlier later) (hcontent : (later.tile path).content = .unknown)
    (hmem : other ∈ later.tilesEligibleForContentUnloading)
    (hnew : other ∉ earlier.tilesEligibleForContentUnloading) :
    (later.tile other).content.isRenderContent = false := by
  by_contra hrender
  rw [Bool.not_eq_false] at hrender
  have hne : other ≠ path := by
    rintro rfl
    rw [hcontent] at hrender
    cases hrender
  rw [hfrees.content hne] at hrender
  exact hnew (h.listed.complete other hrender (h'.listed.unheld other hmem).2)

theorem unloadNext_list {cleared : List TilePath} : (manager.unloadNext path cleared).2.1 =
    if (manager.unloadTileContent path).1 = .removeAndClearChildren then cleared ++ [path] else cleared := rfl

theorem unloadNext_manager {cleared : List TilePath} : (manager.unloadNext path cleared).2.2 =
    if (manager.unloadTileContent path).1 = .keep then (manager.unloadTileContent path).2
    else (manager.unloadTileContent path).2.markTileIneligibleForContentUnloading path := rfl

theorem unloadNext_tile {cleared : List TilePath} :
    (manager.unloadNext path cleared).2.2.tile = (manager.unloadTileContent path).2.tile := by
  rw [unloadNext_manager]
  split <;> rfl

namespace Sweep

theorem mem (h : Sweep pointers others loads (some path) cleared size manager) :
    path ∈ manager.tilesEligibleForContentUnloading := by
  obtain ⟨before, rest, hlist, hcursor, -, -⟩ := h.split
  rw [hlist]
  exact List.mem_append_right before (List.mem_of_head? hcursor)

theorem inTree (h : Sweep pointers others loads (some path) cleared size manager) : manager.isInTree path = true :=
  (h.intact.listed.unheld path h.mem).1

theorem answers (h : Sweep pointers others loads (some path) cleared size manager) :
    Answers path manager (manager.unloadTileContent path) :=
  h.intact.unloadTileContent_answers h.inTree

theorem intact_next (h : Sweep pointers others loads (some path) cleared size manager) :
    Intact pointers others loads (manager.unloadNext path cleared).2.2 := by
  have hintact := h.intact.unloadTileContent h.inTree
  rw [unloadNext_manager]
  split
  · exact hintact
  · rename_i hremoved
    apply hintact.markTileIneligible
    rw [h.answers.removed hremoved]
    rfl

theorem split_next (h : Sweep pointers others loads (some path) cleared size manager) :
    ∃ before rest,
      (manager.unloadNext path cleared).2.2.tilesEligibleForContentUnloading = before ++ rest ∧
        rest.head? = (manager.unloadNext path cleared).1 ∧
          (manager.unloadNext path cleared).2.2.weights rest + 1 ≤ size ∧
          ∀ other ∈ before, ((manager.unloadNext path cleared).2.2.tile other).content.isRenderContent = true →
            Upsampled loads other (manager.unloadNext path cleared).2.2 := by
  obtain ⟨before, rest, hlist, hcursor, hsize, hbefore⟩ := h.split
  obtain ⟨rest, rfl⟩ := List.head?_eq_some_iff.mp hcursor
  have hanswers := h.answers
  have hfrees := hanswers.frees
  have hnodup := h.intact.listed.nodup
  rw [hlist] at hnodup
  have hnew : path ∉ before := by
    intro hmem
    exact (List.nodup_append.mp hnodup).2.2 path hmem path List.mem_cons_self rfl
  obtain ⟨extra, hextra, hafter⟩ := list_after_pass hanswers hlist hnew
  have hkeeps : ∀ other ∈ before,
      ((manager.unloadTileContent path).2.tile other).content.isRenderContent = true →
        Upsampled loads other (manager.unloadTileContent path).2 := by
    intro other hother hrender
    have hne : other ≠ path := fun heq => hnew (heq ▸ hother)
    rw [hfrees.content hne] at hrender
    exact hfrees.upsampled (hbefore other hother hrender)
  have hnext : (manager.unloadNext path cleared).1 = rest.head? := next_of_split hlist hnew
  have hupsampled : ∀ other, Upsampled loads other (manager.unloadNext path cleared).2.2 ↔
      Upsampled loads other (manager.unloadTileContent path).2 := by
    intro other
    rw [Upsampled, Upsampled, unloadNext_tile]
  have hnotRest : path ∉ rest := by
    have htail := (List.nodup_append.mp hnodup).2.1
    exact (List.nodup_cons.mp htail).1
  have hsizes : manager.weight path + manager.weights rest ≤ size := hsize
  have hrest : (manager.unloadTileContent path).2.weights rest = manager.weights rest := hfrees.weights hnotRest
  have hweights : ∀ list, (manager.unloadNext path cleared).2.2.weights list =
      (manager.unloadTileContent path).2.weights list := by
    intro list
    exact weights_congr fun other _ => by rw [unloadNext_tile]
  have hself := (weight_le manager path).1
  simp only [hupsampled, unloadNext_tile, hnext, hweights]
  rw [unloadNext_manager, hafter]
  by_cases hkeep : (manager.unloadTileContent path).1 = .keep
  · rw [if_pos hkeep]
    obtain ⟨-, hcontent, hrendered⟩ := hanswers.kept hkeep
    refine ⟨before ++ [path], rest, by simp, rfl, by omega, ?_⟩
    intro other hother hrender
    rcases List.mem_append.mp hother with hold | hlast
    · exact hkeeps other hold hrender
    · rw [List.mem_singleton.mp hlast] at hrender ⊢
      rw [hcontent] at hrender
      exact hfrees.upsampled (h.intact.upsampled_of_any (hrendered hrender))
  · rw [if_neg hkeep]
    cases rest with
    | nil =>
        -- what has entered the list is not visited any more
        refine ⟨before ++ extra, [], by simp, rfl, by simp [weights]; omega, ?_⟩
        intro other hother hrender
        rcases List.mem_append.mp hother with hold | hadded
        · exact hkeeps other hold hrender
        · have hmem : other ∈ (manager.unloadTileContent path).2.tilesEligibleForContentUnloading := by
            rw [hextra]
            exact List.mem_append_right _ hadded
          have hintact := h.intact.unloadTileContent h.inTree
          have hlater := hintact.listed.nodup
          rw [hextra] at hlater
          have hnot : other ∉ manager.tilesEligibleForContentUnloading := by
            rw [hlist]
            exact fun hold => (List.nodup_append.mp hlater).2.2 other hold other hadded rfl
          have hnone := h.intact.not_render_of_new hintact hfrees (hanswers.removed hkeep) hmem hnot
          rw [hrender] at hnone
          cases hnone
    | cons first rest =>
        have hadded := h.intact.unloadTileContent_weights h.mem (hextra.trans (by rw [hlist]))
        refine ⟨before, first :: rest ++ extra, by simp, rfl, ?_, hkeeps⟩
        rw [weights_append, hrest]
        omega

theorem next (h : Sweep pointers others loads (some path) cleared (size + 1) manager) :
    Sweep pointers others loads (manager.unloadNext path cleared).1 (manager.unloadNext path cleared).2.1 size
      (manager.unloadNext path cleared).2.2 where
  intact := h.intact_next
  split := by
    obtain ⟨before, rest, hlist, hcursor, hsize, hbefore⟩ := h.split_next
    exact ⟨before, rest, hlist, hcursor, Nat.le_of_succ_le_succ hsize, hbefore⟩
  childless := by
    have hfrees := h.answers.frees
    have hstay : ∀ other ∈ cleared, (manager.unloadNext path cleared).2.2.isInTree other = true ∧
        ((manager.unloadNext path cleared).2.2.tile other).referenceCount = 0 := by
      intro other hother
      obtain ⟨hin, hzero⟩ := h.childless other hother
      have hle := hfrees.referenceCount_le other
      have hnonneg := h.intact_next.counts.referenceCount_nonneg h.intact.nonneg other
      rw [unloadNext_tile] at hnonneg ⊢
      refine ⟨?_, by omega⟩
      rw [← hin, ← hfrees.isInTree]
      exact isInTree_congr (fun _ => by rw [unloadNext_tile]) other
    rw [unloadNext_list]
    split
    · rename_i hclears
      intro other hother
      rcases List.mem_append.mp hother with hold | hlast
      · exact hstay other hold
      · rw [List.mem_singleton.mp hlast]
        rw [unloadNext_tile]
        refine ⟨?_, (h.answers.childless hclears).2⟩
        rw [← h.inTree, ← hfrees.isInTree]
        exact isInTree_congr (fun _ => by rw [unloadNext_tile]) path
    · exact hstay
  ordered := by
    rw [unloadNext_list]
    split
    · rename_i hclears
      refine List.pairwise_append.mpr ⟨h.ordered, List.pairwise_singleton _ _, ?_⟩
      intro other hother last hlast hbelow
      rw [List.mem_singleton.mp hlast] at hbelow
      have hreferenced := h.intact.referenced_of_suffix hbelow.1 (h.answers.childless hclears).1
      rw [(h.childless other hother).2] at hreferenced
      exact lt_irrefl 0 hreferenced
    · exact h.ordered

end Sweep

/-- Tiles that pointers are held on stay as they are, but for what refers to them. -/
def KeepsHeld (pointers : TilePath → Int) (earlier later : TilesetContentManager) : Prop :=
  ∀ path, 0 < pointers path →
    later.tile path = { earlier.tile path with referenceCount := (later.tile path).referenceCount }

theorem KeepsHeld.refl (pointers : TilePath → Int) (manager : TilesetContentManager) :
    KeepsHeld pointers manager manager := fun _ _ => rfl

theorem KeepsHeld.trans (h : KeepsHeld pointers earlier middle) (h' : KeepsHeld pointers middle later) :
    KeepsHeld pointers earlier later := by
  intro path hheld
  rw [h' path hheld, h path hheld]

namespace Sweep

theorem keepsHeld (h : Sweep pointers others loads (some path) cleared size manager) :
    KeepsHeld pointers manager (manager.unloadNext path cleared).2.2 := by
  intro other hheld
  have hne : other ≠ path := by
    rintro rfl
    rw [(h.intact.listed.unheld other h.mem).2] at hheld
    exact lt_irrefl 0 hheld
  rw [unloadNext_tile]
  exact h.answers.frees.of_ne other hne

theorem size_pos (h : Sweep pointers others loads (some path) cleared size manager) :
    ∃ less, size = less + 1 := by
  obtain ⟨before, rest, -, hcursor, hsize, -⟩ := h.split
  obtain ⟨rest, rfl⟩ := List.head?_eq_some_iff.mp hcursor
  have hsizes : manager.weight path + manager.weights rest ≤ size := hsize
  have hself := (weight_le manager path).1
  exact ⟨size - 1, by omega⟩

theorem loop (maximumCachedBytes : Int) (budget : Nat) {cursor : Option TilePath}
    (h : Sweep pointers others loads cursor cleared size manager) :
    ∃ cursor' size', Sweep pointers others loads cursor' (unloadLoop maximumCachedBytes budget cursor cleared manager).1
        size' (unloadLoop maximumCachedBytes budget cursor cleared manager).2 ∧
      KeepsHeld pointers manager (unloadLoop maximumCachedBytes budget cursor cleared manager).2 ∧
        (size ≤ budget → (unloadLoop maximumCachedBytes budget cursor cleared manager).2.tilesDataUsed ≤
          maximumCachedBytes ∨ cursor' = none) := by
  induction budget generalizing cursor cleared size manager with
  | zero =>
      refine ⟨cursor, size, h, KeepsHeld.refl pointers manager, fun hsize => ?_⟩
      cases cursor with
      | none => exact .inr rfl
      | some path =>
          obtain ⟨less, rfl⟩ := h.size_pos
          omega
  | succ budget ih =>
      cases cursor with
      | none => exact ⟨none, size, h, KeepsHeld.refl pointers manager, fun _ => .inr rfl⟩
      | some path =>
          rw [unloadLoop]
          by_cases hused : maximumCachedBytes < manager.tilesDataUsed
          · rw [if_pos hused]
            obtain ⟨less, rfl⟩ := h.size_pos
            obtain ⟨cursor', size', hsweep, hkeeps, hdone⟩ := ih h.next
            exact ⟨cursor', size', hsweep, h.keepsHeld.trans hkeeps, fun hsize => hdone (by omega)⟩
          · rw [if_neg hused]
            exact ⟨some path, size, h, KeepsHeld.refl pointers manager, fun _ => .inl (not_lt.mp hused)⟩

end Sweep

/-- What clearing children leaves of the content of tiles. -/
structure KeepsContent (earlier later : TilesetContentManager) : Prop where
  content : ∀ path, (later.tile path).content = (earlier.tile path).content
  id : ∀ path, (later.tile path).id = (earlier.tile path).id
  tilesDataUsed : later.tilesDataUsed = earlier.tilesDataUsed

/-- The children of tiles that nothing refers to are cleared in an order in which each tile is still there. -/
theorem Intact.clearAll (h : Intact pointers others loads manager)
    (hchildless : ∀ path ∈ cleared, manager.isInTree path = true ∧ (manager.tile path).referenceCount = 0)
    (hordered : cleared.Pairwise fun path other => ¬ Below path other) :
    ∃ later, cleared.foldl (fun manager path =>
        (manager.assert (manager.isInTree path && (manager.tile path).referenceCount = 0)).clearChildrenRecursively
          (manager.depth + 1) path) manager = later ∧
      Intact pointers others loads later ∧ KeepsHeld pointers manager later ∧ KeepsContent manager later := by
  induction cleared generalizing manager with
  | nil => exact ⟨manager, rfl, h, KeepsHeld.refl pointers manager, ⟨fun _ => rfl, fun _ => rfl, rfl⟩⟩
  | cons path rest ih =>
      obtain ⟨hafter, hrest⟩ := List.pairwise_cons.mp hordered
      obtain ⟨hin, hzero⟩ := hchildless path List.mem_cons_self
      have hclears := clearChildrenRecursively_clears (h.clearable hzero)
      have hintact := h.of_clears hzero hclears
      have hassert : manager.assert (manager.isInTree path && decide ((manager.tile path).referenceCount = 0)) =
          manager := by
        rw [hin, hzero]
        exact assert_true
      rw [List.foldl_cons, hassert]
      have hchildless' : ∀ other ∈ rest,
          (manager.clearChildrenRecursively (manager.depth + 1) path).isInTree other = true ∧
            ((manager.clearChildrenRecursively (manager.depth + 1) path).tile other).referenceCount = 0 := by
        intro other hother
        obtain ⟨hin', hzero'⟩ := hchildless other (List.mem_cons_of_mem path hother)
        refine ⟨(hclears.isInTree_iff other).mpr ⟨hin', hafter other hother⟩, ?_⟩
        rw [hclears.eq_but_childCount]
        exact hzero'
      obtain ⟨later, heq, hlater, hheld, hcontent⟩ := ih hintact hchildless' hrest
      refine ⟨later, heq, hlater, KeepsHeld.trans ?_ hheld, ?_⟩
      · intro other hpositive
        have hnot : ¬ path <:+ other := by
          intro hsuffix
          have hcount := h.counts.tile other
          have hreferenced := h.referenced_of_suffix hsuffix (by split at hcount <;> omega)
          omega
        rw [hclears.other other hnot]
      · refine ⟨fun other => (hcontent.content other).trans ?_, fun other => (hcontent.id other).trans ?_,
          hcontent.tilesDataUsed.trans hclears.tilesDataUsed⟩
        · rw [hclears.eq_but_childCount]
        · rw [hclears.eq_but_childCount]

/-- `unloadCachedBytes` leaves everything intact and tiles in use as they are; a budget that is enough brings the bytes
below the limit, or leaves only what is in use. -/
theorem Intact.unloadCachedBytes (h : Intact pointers others loads manager) (maximumCachedBytes : Int) (budget : Nat) :
    ∃ later, manager.unloadCachedBytes maximumCachedBytes budget = later ∧ Intact pointers others loads later ∧
      KeepsHeld pointers manager later ∧
        (manager.weights manager.tilesEligibleForContentUnloading ≤ budget →
          later.tilesDataUsed ≤ maximumCachedBytes ∨
            ∀ path, (later.tile path).content.isRenderContent = true →
              0 < pointers path ∨ Upsampled loads path later) := by
  have hsweep : Sweep pointers others loads manager.tilesEligibleForContentUnloading.head? []
      (manager.weights manager.tilesEligibleForContentUnloading) manager := by
    refine ⟨h, ⟨[], _, rfl, rfl, le_rfl, ?_⟩, ?_, List.Pairwise.nil⟩
    · intro other hother
      cases hother
    · intro other hother
      cases hother
  obtain ⟨cursor, size, hswept, hkeeps, hdone⟩ := hsweep.loop maximumCachedBytes budget
  rw [TilesetContentManager.unloadCachedBytes]
  generalize unloadLoop maximumCachedBytes budget _ _ manager = result at hswept hkeeps hdone ⊢
  obtain ⟨later, heq, hintact, hheld, hcontent⟩ := hswept.intact.clearAll hswept.childless hswept.ordered
  refine ⟨later, heq, hintact, hkeeps.trans hheld, fun hbudget => ?_⟩
  rw [hcontent.tilesDataUsed]
  refine (hdone hbudget).imp_right fun hend path hrender => ?_
  rw [hcontent.content] at hrender
  by_cases hfree : pointers path = 0
  · obtain ⟨before, rest, hlist, hcursor, -, hbefore⟩ := hswept.split
    rw [hend, List.head?_eq_none_iff] at hcursor
    have hmem := hswept.intact.listed.complete path hrender hfree
    rw [hlist, hcursor, List.append_nil] at hmem
    obtain ⟨load, hload, index, hpath, hid⟩ := hbefore path hmem hrender
    exact .inr ⟨load, hload, index, hpath, (hcontent.id load.path).trans hid⟩
  · exact .inl (lt_of_le_of_ne (h.nonneg path) (Ne.symm hfree))

end Loop

end QtCesium.TileCache.TilesetContentManager
