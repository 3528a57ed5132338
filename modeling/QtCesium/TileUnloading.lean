import QtCesium.TileInvariant

/-! What `unloadTileContent` can do to a tile, and that it leaves everything intact. -/

namespace QtCesium.TileCache.TilesetContentManager

variable {pointers pointers' : TilePath → Int} {others : Int} {loads : List Load}
  {manager earlier later : TilesetContentManager} {path : TilePath}

/-- `unloadTileContent`, by what it finds. -/
inductive Unloads (path : TilePath) (manager : TilesetContentManager) :
    UnloadTileContentResult × TilesetContentManager → Prop where
  | keep (h : (manager.tile path).id.isLoadable = false ∨ (manager.tile path).state = .contentLoading ∨
      (manager.tile path).content = .external ∧ 1 < (manager.tile path).referenceCount) :
      Unloads path manager (.keep, manager)
  | unloaded (h : (manager.tile path).state = .unloaded) : Unloads path manager (.remove, manager)
  | drop (hloadable : (manager.tile path).id.isLoadable = true) (hstate : (manager.tile path).state ≠ .contentLoading)
      (hknown : (manager.tile path).content ≠ .unknown) (hexternal : (manager.tile path).content ≠ .external)
      (hunused : (manager.tile path).content.isRenderContent = true →
        (manager.getChildren path).any manager.isUpsampling = false) :
      Unloads path manager (.remove, manager.dropContent path)
  | dropExternal (hloadable : (manager.tile path).id.isLoadable = true)
      (hstate : (manager.tile path).state ≠ .contentLoading) (hexternal : (manager.tile path).content = .external)
      (hcount : (manager.tile path).referenceCount ≤ 1) :
      Unloads path manager (.removeAndClearChildren, manager.dropContent path)
  | wait (hstate : (manager.tile path).state ≠ .contentLoading)
      (hused : (manager.getChildren path).any manager.isUpsampling = true) :
      Unloads path manager (.keep, manager.setState path .unloading)
  | forget (hstate : (manager.tile path).state ≠ .contentLoading) (hunknown : (manager.tile path).content = .unknown) :
      Unloads path manager (.remove, (manager.notifyTileUnloading path).setState path .unloaded)

/-- The assertion of `unloadTileContent` holds of consistent tiles, and this is all it can do. -/
theorem unloadTileContent_unloads (h : (manager.tile path).Consistent) :
    Unloads path manager (manager.unloadTileContent path) := by
  unfold unloadTileContent
  by_cases hloadable : (manager.tile path).id.isLoadable = true
  case neg =>
    rw [Bool.not_eq_true] at hloadable
    simp only [hloadable, Bool.not_false, if_true]
    exact .keep (.inl hloadable)
  simp only [hloadable, Bool.not_true, Bool.false_eq_true, if_false]
  by_cases hunloaded : (manager.tile path).state = .unloaded
  · rw [if_pos hunloaded]
    exact .unloaded hunloaded
  rw [if_neg hunloaded]
  by_cases hloading : (manager.tile path).state = .contentLoading
  · rw [if_pos hloading]
    exact .keep (.inr (.inl hloading))
  rw [if_neg hloading]
  by_cases hempty : (manager.tile path).content = .empty
  · rw [if_pos hempty]
    refine .drop hloadable hloading ?_ ?_ ?_ <;> simp [hempty, TileContent.isRenderContent]
  rw [if_neg hempty]
  by_cases hexternal : (manager.tile path).content = .external
  · rw [if_pos hexternal]
    split
    · rename_i hcount
      exact .keep (.inr (.inr ⟨hexternal, hcount⟩))
    · rename_i hcount
      exact .dropExternal hloadable hloading hexternal (not_lt.mp hcount)
  rw [if_neg hexternal]
  have hassert : ((decide ((manager.tile path).state ≠ .contentLoaded) &&
      decide ((manager.tile path).state ≠ .done)) || (manager.tile path).content.isRenderContent) = true := by
    have hknown := h.known
    cases hcontent : (manager.tile path).content with
    | unknown =>
        rw [hcontent] at hknown
        simp only [Bool.or_eq_true, Bool.and_eq_true, decide_eq_true_iff]
        exact .inl ⟨fun hloaded => hknown (.inl hloaded) rfl, fun hdone => hknown (.inr hdone) rfl⟩
    | empty => exact absurd hcontent hempty
    | external => exact absurd hcontent hexternal
    | render byteSize => simp [TileContent.isRenderContent]
  rw [hassert, assert_true]
  by_cases hused : (manager.getChildren path).any manager.isUpsampling = true
  · rw [if_pos hused]
    exact .wait hloading hused
  rw [if_neg hused]
  rw [Bool.not_eq_true] at hused
  by_cases hunknown : (manager.tile path).content = .unknown
  · rw [if_pos hunknown]
    exact .forget hloading hunknown
  · rw [if_neg hunknown]
    exact .drop hloadable hloading hunknown hexternal fun _ => hused

section Replacing

theorem setState_replaces (state : TileLoadState) : Sound.Replaces path manager (manager.setState path state) where
  of_ne := fun other hother => modifyTile_tile_of_ne _ hother
  childCount := by simp [setState]
  id := by simp [setState]
  depth := rfl
  dataUsed := by
    have hcontent : ((manager.setState path state).tile path).content = (manager.tile path).content := by
      simp [setState]
    rw [hcontent, sub_add_cancel]
    rfl

theorem forgotten_replaces (hunknown : (manager.tile path).content = .unknown) :
    Sound.Replaces path manager ((manager.notifyTileUnloading path).setState path .unloaded) where
  of_ne := fun other hother => modifyTile_tile_of_ne _ hother
  childCount := by simp [setState, notifyTileUnloading]
  id := by simp [setState, notifyTileUnloading]
  depth := rfl
  dataUsed := by
    have hcontent : (((manager.notifyTileUnloading path).setState path .unloaded).tile path).content = .unknown := by
      simpa [setState, notifyTileUnloading] using hunknown
    rw [hcontent]
    exact (add_zero _).symm

/-- A tile without its content, whose reference is still to be released. -/
def dropped (path : TilePath) (manager : TilesetContentManager) : TilesetContentManager :=
  ((manager.notifyTileUnloading path).setContentKind path .unknown).setState path .unloaded

theorem dropContent_eq : manager.dropContent path = (manager.dropped path).releaseReference path := rfl

theorem dropped_tile (path : TilePath) (manager : TilesetContentManager) : (manager.dropped path).tile path =
    { manager.tile path with content := .unknown, state := .unloaded } := by
  simp [dropped, setState, setContentKind, notifyTileUnloading]

theorem dropped_replaces (path : TilePath) (manager : TilesetContentManager) :
    Sound.Replaces path manager (manager.dropped path) where
  of_ne := by
    intro other hother
    simp [dropped, setState, setContentKind, notifyTileUnloading, hother]
  childCount := by rw [dropped_tile]
  id := by rw [dropped_tile]
  depth := rfl
  dataUsed := by
    rw [dropped_tile]
    exact (add_zero _).symm

/-- Reference counts stay exact where a change of content is made up for by a change of the pointers. -/
theorem Counts.replace (h : Counts pointers others earlier) (hreplaces : Sound.Changes path earlier later)
    (hcount : (later.tile path).referenceCount = (earlier.tile path).referenceCount)
    (hmanager : later.referenceCount = earlier.referenceCount)
    (hpointers : ∀ other, pointers' other + (if (later.tile other).hasReferencingContent then 1 else 0) =
      pointers other + if (earlier.tile other).hasReferencingContent then 1 else 0) :
    Counts pointers' others later := by
  have hcounts : ∀ other, (later.tile other).referenceCount = (earlier.tile other).referenceCount := by
    intro other
    by_cases hother : other = path
    · rw [hother]
      exact hcount
    · rw [hreplaces.of_ne other hother]
  constructor
  · intro other
    have hchildren : later.referencedChildren other = earlier.referencedChildren other := by
      simp only [referencedChildren_eq, hreplaces.childCount_eq, hcounts]
    rw [hcounts, hpointers, hchildren]
    exact h.tile other
  · rw [hcounts, hmanager]
    exact h.manager

theorem Counts.dropped (h : Counts pointers others manager) (hloadable : (manager.tile path).id.isLoadable = true)
    (hknown : (manager.tile path).content ≠ .unknown) :
    Counts (withPointer path pointers) others (manager.dropped path) := by
  have hreplaces := dropped_replaces path manager
  have htile := dropped_tile path manager
  apply h.replace hreplaces.toChanges (by rw [htile]) rfl
  intro other
  by_cases hother : other = path
  · subst hother
    rw [htile, withPointer_self]
    simp [Tile.hasReferencingContent, hknown, hloadable]
  · rw [hreplaces.of_ne other hother, withPointer_of_ne _ _ hother]

end Replacing

namespace Intact

/-- A change of one tile's state leaves everything intact where the state agrees with the content and no load begins
or ends. -/
theorem replace_state (h : Intact pointers others loads earlier) (hreplaces : Sound.Replaces path earlier later)
    (hin : earlier.isInTree path = true) {state : TileLoadState}
    (htile : later.tile path = { earlier.tile path with state }) (hconsistent : (later.tile path).Consistent)
    (hloading : state = .contentLoading ↔ (earlier.tile path).state = .contentLoading)
    (hprogress : later.tileLoadsInProgress = earlier.tileLoadsInProgress)
    (hmanager : later.referenceCount = earlier.referenceCount)
    (hlist : later.tilesEligibleForContentUnloading = earlier.tilesEligibleForContentUnloading)
    (hassertions : later.assertionsHold = earlier.assertionsHold) : Intact pointers others loads later := by
  have hcontents : ∀ other, (later.tile other).content = (earlier.tile other).content := by
    intro other
    by_cases hother : other = path
    · rw [hother, htile]
    · rw [hreplaces.of_ne other hother]
  refine ⟨h.counts.replace hreplaces.toChanges (by rw [htile]) hmanager ?_,
    h.sound.replace_same hreplaces hin hconsistent (by rw [htile]; exact hloading) hprogress (.inl (hcontents path)),
    h.listed.congr hlist (fun other _ hother => (hreplaces.isInTree other).trans hother) ?_, h.nonneg, ?_, h.held,
    hassertions.trans h.assertions⟩
  · intro other
    rw [Tile.hasReferencingContent, Tile.hasReferencingContent, hcontents, hreplaces.id_eq]
  · intro other hrender _
    rwa [hcontents] at hrender
  · intro other hpositive
    rw [hreplaces.isInTree]
    exact h.inTree other hpositive

theorem setState (h : Intact pointers others loads manager) (hin : manager.isInTree path = true)
    {state : TileLoadState} (hloading : state = .contentLoading ↔ (manager.tile path).state = .contentLoading)
    (hconsistent : ((manager.setState path state).tile path).Consistent) :
    Intact pointers others loads (manager.setState path state) :=
  h.replace_state (setState_replaces state) hin (modifyTile_tile_self _) hconsistent hloading rfl rfl rfl rfl

/-- No load in flight makes its content out of the tile's own. -/
def Unused (loads : List Load) (path : TilePath) (manager : TilesetContentManager) : Prop :=
  ∀ load ∈ loads, ∀ index, load.path = index :: path → (manager.tile load.path).id = .upsampledQuadtreeNode →
    load.source.isRenderContent = false

/-- Where no child of a tile is being upsampled, no load refers to the tile's content. -/
theorem unused_of_not_upsampling (h : Intact pointers others loads manager)
    (hunused : (manager.tile path).content.isRenderContent = true →
      (manager.getChildren path).any manager.isUpsampling = false) : Unused loads path manager := by
  intro load hload index hpath hid
  by_contra hrender
  rw [Bool.not_eq_false] at hrender
  have hsource := h.sound.source load hload index path hpath hid hrender
  have hnone := hunused (by rw [hsource]; exact hrender)
  have hin := h.inTree load.path (h.held load hload)
  have hloading := (h.sound.loading load.path).mpr (List.mem_map_of_mem hload)
  rw [hpath, isInTree, Bool.and_eq_true, decide_eq_true_iff] at hin
  rw [hpath] at hid hloading
  have hchild := List.any_eq_false.mp hnone (index :: path) (mem_getChildren.mpr ⟨index, hin.1, rfl⟩)
  apply hchild
  rw [isUpsampling, hid, hloading]
  rfl

/-- The end of an unloading leaves everything intact. -/
theorem dropContent (h : Intact pointers others loads manager) (hin : manager.isInTree path = true)
    (hloadable : (manager.tile path).id.isLoadable = true) (hstate : (manager.tile path).state ≠ .contentLoading)
    (hknown : (manager.tile path).content ≠ .unknown) (hunused : Unused loads path manager) :
    Intact pointers others loads (manager.dropContent path) := by
  have hreplaces := dropped_replaces path manager
  have htile := dropped_tile path manager
  have hcounts := h.counts.dropped hloadable hknown
  have hsound : Sound loads (manager.dropped path) := by
    apply h.sound.replace_same hreplaces hin _ _ rfl (.inr hunused)
    · rw [htile]
      exact ⟨fun _ => rfl, by simp, by simp [TileContent.isRenderContent]⟩
    · rw [htile]
      simp [hstate]
  have hlisted : Listed pointers (manager.dropped path) := by
    have hlist : (manager.dropped path).tilesEligibleForContentUnloading =
        manager.tilesEligibleForContentUnloading := rfl
    apply h.listed.congr hlist (fun other _ hother => (hreplaces.isInTree other).trans hother)
    intro other hrender _
    by_cases hother : other = path
    · rw [hother, htile] at hrender
      cases hrender
    · rwa [hreplaces.of_ne other hother] at hrender
  have hin' : (manager.dropped path).isInTree path = true := (hreplaces.isInTree path).trans hin
  obtain ⟨hreleased, hreleases, hmem⟩ := releaseReference_spec hcounts h.nonneg hin'
  rw [dropContent_eq]
  refine ⟨hreleased, hsound.of_sameTiles hreleases.sameTiles,
    hlisted.of_releases hreleases h.nonneg (fun _ => le_rfl) (fun _ _ => rfl) hmem, h.nonneg, ?_, h.held,
    hreleases.assertionsHold.trans h.assertions⟩
  intro other hpositive
  rw [hreleases.sameTiles.isInTree, hreplaces.isInTree]
  exact h.inTree other hpositive

/-- `unloadTileContent` leaves everything intact. -/
theorem unloadTileContent (h : Intact pointers others loads manager) (hin : manager.isInTree path = true) :
    Intact pointers others loads (manager.unloadTileContent path).2 := by
  have hconsistent := h.sound.consistent path
  have hcases := unloadTileContent_unloads hconsistent
  generalize manager.unloadTileContent path = result at hcases ⊢
  cases hcases with
  | keep _ => exact h
  | unloaded _ => exact h
  | drop hloadable hstate hknown _ hunused =>
      exact h.dropContent hin hloadable hstate hknown (h.unused_of_not_upsampling hunused)
  | dropExternal hloadable hstate hexternal _ =>
      refine h.dropContent hin hloadable hstate (by simp [hexternal]) (h.unused_of_not_upsampling ?_)
      rw [hexternal]
      exact fun hrender => absurd hrender Bool.false_ne_true
  | wait hstate _ =>
      refine h.setState hin (by simp [hstate]) ?_
      rw [TilesetContentManager.setState, modifyTile_tile_self]
      exact ⟨by simp, by simp, hconsistent.loadable⟩
  | forget hstate hunknown =>
      have htile : ((manager.notifyTileUnloading path).setState path .unloaded).tile path =
          { manager.tile path with state := .unloaded } := modifyTile_tile_self _
      refine h.replace_state (forgotten_replaces hunknown) hin htile ?_ (by simp [hstate]) rfl rfl rfl rfl
      rw [htile]
      exact ⟨fun _ => hunknown, by simp, hconsistent.loadable⟩

end Intact

end QtCesium.TileCache.TilesetContentManager
