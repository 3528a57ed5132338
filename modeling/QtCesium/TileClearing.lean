import QtCesium.TileUnloading

/-! `clearChildrenRecursively` destroys what is below a tile, and only that. -/

namespace QtCesium.TileCache.TilesetContentManager

variable {pointers : TilePath → Int} {others : Int} {loads : List Load}
  {manager earlier middle later : TilesetContentManager} {path other : TilePath}

/-- Below a tile, at any depth. -/
def Below (path other : TilePath) : Prop := path <:+ other ∧ other ≠ path

theorem below_cons {index : Nat} {parent : TilePath} : Below path (index :: parent) ↔ path <:+ parent := by
  constructor
  · rintro ⟨hsuffix, hne⟩
    rcases List.suffix_cons_iff.mp hsuffix with heq | hparent
    · exact absurd heq.symm hne
    · exact hparent
  · intro hsuffix
    refine ⟨hsuffix.trans (List.suffix_cons index parent), ?_⟩
    intro heq
    have hlength := hsuffix.length_le
    rw [← heq, List.length_cons] at hlength
    omega

/-- The child on the way to what is below a tile. -/
theorem Below.exists_child (h : Below path other) : ∃ index, index :: path <:+ other := by
  obtain ⟨before, rfl⟩ := h.1
  have hbefore : before ≠ [] := by
    rintro rfl
    exact h.2 rfl
  obtain ⟨rest, index, rfl⟩ := List.eq_nil_or_concat before |>.resolve_left hbefore
  exact ⟨index, rest, by simp⟩

theorem below_of_child_suffix {index : Nat} (h : index :: path <:+ other) : Below path other := by
  refine ⟨(List.suffix_cons index path).trans h, ?_⟩
  intro heq
  have hlength := h.length_le
  rw [heq, List.length_cons] at hlength
  omega

/-- Some tiles are without children, and what is below them has left the list. -/
structure Clears (cleared removed : TilePath → Prop) (earlier later : TilesetContentManager) : Prop where
  childless : ∀ path, cleared path → later.tile path = { earlier.tile path with childCount := 0 }
  other : ∀ path, ¬ cleared path → later.tile path = earlier.tile path
  mem_iff : ∀ path, path ∈ later.tilesEligibleForContentUnloading ↔
    path ∈ earlier.tilesEligibleForContentUnloading ∧ ¬ removed path
  sublist : later.tilesEligibleForContentUnloading.Sublist earlier.tilesEligibleForContentUnloading
  depth : later.depth = earlier.depth
  tileLoadsInProgress : later.tileLoadsInProgress = earlier.tileLoadsInProgress
  tilesDataUsed : later.tilesDataUsed = earlier.tilesDataUsed
  referenceCount : later.referenceCount = earlier.referenceCount
  assertionsHold : later.assertionsHold = earlier.assertionsHold

namespace Clears

variable {cleared removed cleared' removed' : TilePath → Prop}

theorem eq_but_childCount (h : Clears cleared removed earlier later) (path : TilePath) :
    later.tile path = { earlier.tile path with childCount := (later.tile path).childCount } := by
  by_cases hpath : cleared path
  · rw [h.childless path hpath]
  · rw [h.other path hpath]

theorem trans (h : Clears cleared removed earlier middle) (h' : Clears cleared' removed' middle later) :
    Clears (fun path => cleared path ∨ cleared' path) (fun path => removed path ∨ removed' path) earlier later where
  childless := by
    intro path hpath
    by_cases hsecond : cleared' path
    · rw [h'.childless path hsecond, h.eq_but_childCount]
    · rw [h'.other path hsecond, h.childless path (hpath.resolve_right hsecond)]
  other := by
    intro path hpath
    rw [not_or] at hpath
    rw [h'.other path hpath.2, h.other path hpath.1]
  mem_iff := by
    intro path
    rw [h'.mem_iff, h.mem_iff, not_or, and_assoc]
  sublist := h'.sublist.trans h.sublist
  depth := h'.depth.trans h.depth
  tileLoadsInProgress := h'.tileLoadsInProgress.trans h.tileLoadsInProgress
  tilesDataUsed := h'.tilesDataUsed.trans h.tilesDataUsed
  referenceCount := h'.referenceCount.trans h.referenceCount
  assertionsHold := h'.assertionsHold.trans h.assertionsHold

/-- Tiles without children may be counted in, and among what has left the list only what was in it matters. -/
theorem widen (h : Clears cleared removed earlier later) (hcleared : ∀ path, cleared path → cleared' path)
    (hchildless : ∀ path, cleared' path → ¬ cleared path → (earlier.tile path).childCount = 0)
    (hremoved : ∀ path ∈ earlier.tilesEligibleForContentUnloading, removed path ↔ removed' path) :
    Clears cleared' removed' earlier later where
  childless := by
    intro path hpath
    by_cases hfirst : cleared path
    · exact h.childless path hfirst
    · rw [h.other path hfirst, ← hchildless path hpath hfirst]
  other := fun path hpath => h.other path fun hfirst => hpath (hcleared path hfirst)
  mem_iff := by
    intro path
    rw [h.mem_iff]
    exact and_congr_right fun hmem => not_congr (hremoved path hmem)
  sublist := h.sublist
  depth := h.depth
  tileLoadsInProgress := h.tileLoadsInProgress
  tilesDataUsed := h.tilesDataUsed
  referenceCount := h.referenceCount
  assertionsHold := h.assertionsHold

/-- What is in the tree once a tile and all that is below it have no children. -/
theorem isInTree_iff (h : Clears (path <:+ ·) removed earlier later) (other : TilePath) :
    later.isInTree other = true ↔ earlier.isInTree other = true ∧ ¬ Below path other := by
  induction other with
  | nil =>
      have hroot : ¬ Below path [] := fun hbelow => hbelow.2 (List.suffix_nil.mp hbelow.1).symm
      simp [isInTree, hroot]
  | cons index parent ih =>
      rw [below_cons, isInTree, isInTree, Bool.and_eq_true, Bool.and_eq_true, decide_eq_true_iff,
        decide_eq_true_iff]
      by_cases hparent : path <:+ parent
      · rw [h.childless parent hparent]
        simp [hparent]
      · have hbelow : ¬ Below path parent := fun hbelow => hparent hbelow.1
        rw [h.other parent hparent, ih]
        simp [hparent, hbelow]

end Clears

/-- What is below a tile is in use by nobody, and no deeper than a number of levels. -/
structure Clearable (levels : Nat) (path : TilePath) (manager : TilesetContentManager) : Prop where
  outside : ∀ other, manager.isInTree other = false → (manager.tile other).childCount = 0
  nodup : manager.tilesEligibleForContentUnloading.Nodup
  listed : ∀ other ∈ manager.tilesEligibleForContentUnloading, manager.isInTree other = true
  idle : ∀ other, Below path other → manager.isInTree other = true →
    (manager.tile other).referenceCount = 0 ∧ (manager.tile other).hasReferencingContent = false
  deep : ∀ other, Below path other → manager.isInTree other = true → other.length ≤ path.length + levels

namespace Clearable

variable {levels : Nat}

/-- What is below one tile can be cleared after what is below another one. -/
theorem of_clears (h : Clearable levels path earlier) {removed : TilePath → Prop} {child : TilePath}
    (hclears : Clears (child <:+ ·) removed earlier later) (hremoved : ∀ other, Below child other → removed other) :
    Clearable levels path later where
  outside := by
    intro other hout
    by_cases hcleared : child <:+ other
    · rw [hclears.childless other hcleared]
    · rw [hclears.other other hcleared]
      apply h.outside
      by_contra hin
      rw [Bool.not_eq_false] at hin
      rw [(hclears.isInTree_iff other).mpr ⟨hin, fun hbelow => hcleared hbelow.1⟩] at hout
      cases hout
  nodup := hclears.sublist.nodup h.nodup
  listed := by
    intro other hmem
    obtain ⟨hold, hkept⟩ := (hclears.mem_iff other).mp hmem
    exact (hclears.isInTree_iff other).mpr ⟨h.listed other hold, fun hbelow => hkept (hremoved other hbelow)⟩
  idle := by
    intro other hbelow hin
    rw [hclears.eq_but_childCount]
    exact h.idle other hbelow ((hclears.isInTree_iff other).mp hin).1
  deep := fun other hbelow hin => h.deep other hbelow ((hclears.isInTree_iff other).mp hin).1

theorem of_sublist (h : Clearable levels path earlier) (htile : later.tile = earlier.tile)
    (hlist : later.tilesEligibleForContentUnloading.Sublist earlier.tilesEligibleForContentUnloading) :
    Clearable levels path later := by
  have hin : ∀ other, later.isInTree other = earlier.isInTree other :=
    isInTree_congr fun other => by rw [htile]
  refine ⟨?_, hlist.nodup h.nodup, ?_, ?_, ?_⟩
  · intro other hout
    rw [htile]
    exact h.outside other ((hin other).symm.trans hout)
  · intro other hmem
    exact (hin other).trans (h.listed other (hlist.subset hmem))
  · intro other hbelow hother
    rw [htile]
    exact h.idle other hbelow ((hin other).symm.trans hother)
  · intro other hbelow hother
    exact h.deep other hbelow ((hin other).symm.trans hother)

theorem child {index : Nat} (h : Clearable (levels + 1) path manager) :
    Clearable levels (index :: path) manager where
  outside := h.outside
  nodup := h.nodup
  listed := h.listed
  idle := fun other hbelow => h.idle other (below_of_child_suffix hbelow.1)
  deep := by
    intro other hbelow hin
    have hlevels := h.deep other (below_of_child_suffix hbelow.1) hin
    rw [List.length_cons]
    omega

end Clearable

section Recursion

variable {levels : Nat}

theorem Clears.refl (manager : TilesetContentManager) : Clears (fun _ => False) (fun _ => False) manager manager where
  childless := fun _ hpath => hpath.elim
  other := fun _ _ => rfl
  mem_iff := fun _ => ⟨fun hmem => ⟨hmem, fun hremoved => hremoved⟩, fun hmem => hmem.1⟩
  sublist := List.Sublist.refl _
  depth := rfl
  tileLoadsInProgress := rfl
  tilesDataUsed := rfl
  referenceCount := rfl
  assertionsHold := rfl

/-- Nothing has to be cleared at a tile that nothing is below. -/
theorem Clearable.clears_self (h : Clearable 0 path manager) :
    Clears (path <:+ ·) (Below path) manager manager := by
  have hnone : ∀ other, Below path other → manager.isInTree other = false := by
    intro other hbelow
    by_contra hin
    rw [Bool.not_eq_false] at hin
    have hdeep := h.deep other hbelow hin
    have hlength := hbelow.1.eq_of_length_le (by omega)
    exact hbelow.2 hlength.symm
  refine (Clears.refl manager).widen (fun _ hpath => hpath.elim) ?_ ?_
  · intro other hother _
    by_cases heq : other = path
    · subst heq
      by_contra hchildren
      have hout := hnone (0 :: other) (below_cons.mpr (List.suffix_refl other))
      rw [isInTree, Bool.and_eq_false_iff, decide_eq_false_iff_not] at hout
      rcases hout with hcount | hout
      · exact hcount (Nat.pos_of_ne_zero hchildren)
      · exact hchildren (h.outside other hout)
    · exact h.outside other (hnone other ⟨hother, heq⟩)
  · intro other hmem
    have hin := h.listed other hmem
    refine ⟨fun hremoved => hremoved.elim, fun hbelow => ?_⟩
    rw [hnone other hbelow] at hin
    cases hin

theorem forgetChild_clears {child : TilePath}
    (hidle : (manager.tile child).referenceCount = 0 ∧ (manager.tile child).hasReferencingContent = false)
    (hnodup : manager.tilesEligibleForContentUnloading.Nodup) :
    Clears (fun _ => False) (· = child) manager (manager.forgetChild child) where
  childless := fun _ hpath => hpath.elim
  other := fun _ _ => rfl
  mem_iff := by
    intro other
    have hmem := hnodup.mem_erase_iff (a := other) (b := child)
    rw [and_comm]
    exact hmem
  sublist := List.erase_sublist
  depth := rfl
  tileLoadsInProgress := rfl
  tilesDataUsed := rfl
  referenceCount := rfl
  assertionsHold := by
    show (manager.assertionsHold && (decide ((manager.tile child).referenceCount = 0) &&
      !(manager.tile child).hasReferencingContent)) = manager.assertionsHold
    rw [hidle.1, hidle.2]
    exact Bool.and_true _

/-- A child is forgotten and what is below it cleared. -/
theorem clearChild_clears {child : TilePath}
    (hclears : ∀ manager, Clearable levels child manager →
      Clears (child <:+ ·) (Below child) manager (manager.clearChildrenRecursively levels child))
    (h : Clearable levels child manager)
    (hidle : (manager.tile child).referenceCount = 0 ∧ (manager.tile child).hasReferencingContent = false) :
    Clears (child <:+ ·) (child <:+ ·) manager
      ((manager.forgetChild child).clearChildrenRecursively levels child) := by
  have hforget := forgetChild_clears hidle h.nodup
  have hclearable : Clearable levels child (manager.forgetChild child) := h.of_sublist rfl List.erase_sublist
  have hboth := hforget.trans (hclears _ hclearable)
  refine hboth.widen (fun other hother => hother.resolve_left fun hfalse => hfalse) ?_ ?_
  · intro other hother hnot
    exact absurd (.inr hother) hnot
  · intro other _
    constructor
    · rintro (rfl | hbelow)
      · exact List.suffix_refl _
      · exact hbelow.1
    · intro hsuffix
      by_cases heq : other = child
      · exact .inl heq
      · exact .inr ⟨hsuffix, heq⟩

/-- The loop of `clearChildrenRecursively` over some of the children. -/
theorem clearLoop_clears
    (hclears : ∀ child manager, Clearable levels child manager →
      Clears (child <:+ ·) (Below child) manager (manager.clearChildrenRecursively levels child))
    {indices : List Nat} (h : Clearable (levels + 1) path manager) (hnodup : indices.Nodup)
    (hin : ∀ index ∈ indices, manager.isInTree (index :: path) = true) :
    Clears (fun other => ∃ index ∈ indices, index :: path <:+ other)
      (fun other => ∃ index ∈ indices, index :: path <:+ other) manager
      ((indices.map (· :: path)).foldl
        (fun manager child => clearChildrenRecursively levels child (manager.forgetChild child)) manager) := by
  induction indices generalizing manager with
  | nil =>
      refine (Clears.refl manager).widen (fun _ hother => hother.elim) ?_ ?_
      · rintro other ⟨index, hindex, -⟩
        cases hindex
      · intro other _
        simp
  | cons index rest ih =>
      obtain ⟨hnew, hrest⟩ := List.nodup_cons.mp hnodup
      have hbelow : Below path (index :: path) := below_cons.mpr (List.suffix_refl path)
      have hfirst := clearChild_clears (hclears (index :: path)) h.child
        (h.idle (index :: path) hbelow (hin index List.mem_cons_self))
      have hafter := h.of_clears hfirst fun other hother => hother.1
      have hin' : ∀ other ∈ rest, ((manager.forgetChild (index :: path)).clearChildrenRecursively levels
          (index :: path)).isInTree (other :: path) = true := by
        intro other hother
        refine (hfirst.isInTree_iff _).mpr ⟨hin other (List.mem_cons_of_mem index hother), ?_⟩
        rintro ⟨hsuffix, hne⟩
        exact hne (hsuffix.eq_of_length rfl).symm
      have hboth := hfirst.trans (ih hafter hrest hin')
      have hiff : ∀ other, (index :: path <:+ other ∨ ∃ later ∈ rest, later :: path <:+ other) ↔
          ∃ any ∈ index :: rest, any :: path <:+ other := by
        intro other
        simp
      exact hboth.widen (fun other hother => (hiff other).mp hother)
        (fun other hother hnot => absurd ((hiff other).mpr hother) hnot) (fun other _ => hiff other)

theorem clearChildren_clears (hchildless : manager.referencedChildren path = 0) :
    Clears (· = path) (fun _ => False) manager (manager.clearChildren path) := by
  have hassert : manager.assert (decide (manager.referencedChildren path = 0)) = manager := by
    rw [decide_eq_true hchildless, assert_true]
  rw [clearChildren, hassert]
  exact {
    childless := by
      rintro _ rfl
      exact modifyTile_tile_self _
    other := fun other hother => modifyTile_tile_of_ne _ hother
    mem_iff := fun _ => ⟨fun hmem => ⟨hmem, fun hremoved => hremoved⟩, fun hmem => hmem.1⟩
    sublist := List.Sublist.refl _
    depth := rfl
    tileLoadsInProgress := rfl
    tilesDataUsed := rfl
    referenceCount := rfl
    assertionsHold := rfl }

/-- A child on the way to a tile that is in the tree. -/
theorem child_lt_of_inTree {index : Nat} (hsuffix : index :: path <:+ other) (hin : manager.isInTree other = true) :
    index < (manager.tile path).childCount := by
  have hchild := isInTree_of_suffix hsuffix hin
  rw [isInTree, Bool.and_eq_true, decide_eq_true_iff] at hchild
  exact hchild.1

/-- `clearChildrenRecursively` clears exactly what is below a tile. -/
theorem clearChildrenRecursively_clears (h : Clearable levels path manager) :
    Clears (path <:+ ·) (Below path) manager (manager.clearChildrenRecursively levels path) := by
  induction levels generalizing path manager with
  | zero => exact h.clears_self
  | succ levels ih =>
      have hchildren : ∀ index ∈ List.range (manager.tile path).childCount,
          manager.isInTree (index :: path) = true := by
        intro index hindex
        rw [List.mem_range] at hindex
        rw [isInTree, Bool.and_eq_true, decide_eq_true_iff]
        refine ⟨hindex, ?_⟩
        by_contra hout
        rw [Bool.not_eq_true] at hout
        have hnone := h.outside path hout
        omega
      have hloop := clearLoop_clears (fun child manager hchild => ih hchild) h List.nodup_range hchildren
      rw [clearChildrenRecursively, getChildren]
      generalize ((List.range (manager.tile path).childCount).map (· :: path)).foldl _ manager = looped at hloop ⊢
      have hself : ¬ ∃ index ∈ List.range (manager.tile path).childCount, index :: path <:+ path := by
        rintro ⟨index, -, hsuffix⟩
        exact (below_of_child_suffix hsuffix).2 rfl
      have hchildless : looped.referencedChildren path = 0 := by
        rw [referencedChildren_eq, hloop.other path hself]
        apply List.countP_eq_zero.mpr
        intro index hindex
        have hidle := h.idle (index :: path) (below_cons.mpr (List.suffix_refl path)) (hchildren index hindex)
        rw [hloop.eq_but_childCount, decide_eq_true_iff, hidle.1]
        exact lt_irrefl 0
      refine (hloop.trans (clearChildren_clears hchildless)).widen ?_ ?_ ?_
      · rintro other (⟨index, -, hsuffix⟩ | rfl)
        · exact (below_of_child_suffix hsuffix).1
        · exact List.suffix_refl _
      · intro other hother hnot
        rw [not_or] at hnot
        obtain ⟨index, hsuffix⟩ := Below.exists_child ⟨hother, hnot.2⟩
        apply h.outside
        by_contra hin
        rw [Bool.not_eq_false] at hin
        exact hnot.1 ⟨index, List.mem_range.mpr (child_lt_of_inTree hsuffix hin), hsuffix⟩
      · intro other hmem
        constructor
        · rintro (⟨index, -, hsuffix⟩ | hfalse)
          · exact below_of_child_suffix hsuffix
          · exact hfalse.elim
        · intro hbelow
          obtain ⟨index, hsuffix⟩ := hbelow.exists_child
          exact .inl ⟨index, List.mem_range.mpr (child_lt_of_inTree hsuffix (h.listed other hmem)), hsuffix⟩

end Recursion

namespace Intact

/-- A referenced tile keeps all tiles on the way to the root referenced. -/
theorem referenced_of_suffix (h : Intact pointers others loads manager) (hsuffix : path <:+ other)
    (hreferenced : 0 < (manager.tile other).referenceCount) : 0 < (manager.tile path).referenceCount := by
  induction other with
  | nil =>
      rw [List.suffix_nil.mp hsuffix]
      exact hreferenced
  | cons index parent ih =>
      rcases List.suffix_cons_iff.mp hsuffix with rfl | hparent
      · exact hreferenced
      · apply ih hparent
        have hin := h.inTree_of_referenced hreferenced
        rw [isInTree, Bool.and_eq_true, decide_eq_true_iff] at hin
        have hchildren : 0 < manager.referencedChildren parent := by
          rw [referencedChildren_eq, List.countP_pos_iff]
          exact ⟨index, List.mem_range.mpr hin.1, decide_eq_true hreferenced⟩
        have hcount := h.counts.tile parent
        have hpointers := h.nonneg parent
        rw [hcount]
        split <;> omega

/-- A tile that nothing refers to can be cleared. -/
theorem clearable (h : Intact pointers others loads manager)
    (hunreferenced : (manager.tile path).referenceCount = 0) : Clearable (manager.depth + 1) path manager where
  outside := fun other hout => (h.sound.outside other hout).1
  nodup := h.listed.nodup
  listed := fun other hmem => (h.listed.unheld other hmem).1
  idle := by
    intro other hbelow hin
    have hnonneg := h.counts.referenceCount_nonneg h.nonneg other
    have hzero : (manager.tile other).referenceCount = 0 := by
      by_contra hne
      have hpositive := h.referenced_of_suffix hbelow.1 (lt_of_le_of_ne hnonneg (Ne.symm hne))
      omega
    have hcount := h.counts.tile other
    have hpointers := h.nonneg other
    refine ⟨hzero, ?_⟩
    rw [← Bool.not_eq_true]
    intro hcontent
    rw [hzero, if_pos hcontent] at hcount
    omega
  deep := by
    intro other _ hin
    have hdeep := h.sound.deep other hin
    omega

/-- What is cleared below a tile that nothing refers to was in use by nobody. -/
theorem of_clears (h : Intact pointers others loads earlier)
    (hunreferenced : (earlier.tile path).referenceCount = 0)
    (hclears : Clears (path <:+ ·) (Below path) earlier later) : Intact pointers others loads later := by
  have hunused : ∀ other, path <:+ other → ¬ 0 < (earlier.tile other).referenceCount := by
    intro other hsuffix hreferenced
    have hpath := h.referenced_of_suffix hsuffix hreferenced
    omega
  have hcount : ∀ other, (later.tile other).referenceCount = (earlier.tile other).referenceCount := by
    intro other
    rw [hclears.eq_but_childCount]
  have hcontent : ∀ other, (later.tile other).content = (earlier.tile other).content := by
    intro other
    rw [hclears.eq_but_childCount]
  have hstate : ∀ other, (later.tile other).state = (earlier.tile other).state := by
    intro other
    rw [hclears.eq_but_childCount]
  have hid : ∀ other, (later.tile other).id = (earlier.tile other).id := by
    intro other
    rw [hclears.eq_but_childCount]
  have hreferencing : ∀ other,
      (later.tile other).hasReferencingContent = (earlier.tile other).hasReferencingContent := by
    intro other
    rw [Tile.hasReferencingContent, Tile.hasReferencingContent, hcontent, hid]
  have hstays : ∀ other, 0 < (earlier.tile other).referenceCount → later.isInTree other = true := by
    intro other hreferenced
    exact (hclears.isInTree_iff other).mpr ⟨h.inTree_of_referenced hreferenced,
      fun hbelow => hunused other hbelow.1 hreferenced⟩
  have hpositive : ∀ other, 0 < pointers other → 0 < (earlier.tile other).referenceCount := by
    intro other hpointers
    rw [h.counts.tile other]
    split <;> omega
  refine ⟨⟨?_, ?_⟩, ⟨?_, ?_, ?_, h.sound.nodup, ?_, ?_, ?_, ?_⟩, ⟨?_, ?_, ?_⟩, h.nonneg, ?_, h.held, ?_⟩
  · intro other
    have hchildren : later.referencedChildren other = earlier.referencedChildren other := by
      by_cases hsuffix : path <:+ other
      · have hnone := hunused other hsuffix
        have hexact := h.counts.tile other
        have hpointers := h.nonneg other
        have hzero : earlier.referencedChildren other = 0 := by
          split at hexact <;> omega
        rw [hzero, referencedChildren_eq, hclears.childless other hsuffix]
        rfl
      · simp only [referencedChildren_eq, hclears.other other hsuffix, hcount]
    rw [hcount, hreferencing, hchildren]
    exact h.counts.tile other
  · rw [hcount, hclears.referenceCount]
    exact h.counts.manager
  · intro other
    have htile := h.sound.consistent other
    exact ⟨by rw [hstate, hcontent]; exact htile.unknown, by rw [hstate, hcontent]; exact htile.known,
      by rw [hcontent, hid]; exact htile.loadable⟩
  · intro other hout
    have hcleared := (h.clearable hunreferenced).of_clears hclears fun _ hbelow => hbelow
    refine ⟨hcleared.outside other hout, ?_⟩
    rw [hreferencing, ← Bool.not_eq_true]
    intro hown
    have hexact := h.counts.tile other
    have hpointers := h.nonneg other
    rw [if_pos hown] at hexact
    rw [hstays other (by omega)] at hout
    cases hout
  · intro other hin
    rw [hclears.depth]
    exact h.sound.deep other ((hclears.isInTree_iff other).mp hin).1
  · intro other
    rw [hstate]
    exact h.sound.loading other
  · exact hclears.tileLoadsInProgress.trans h.sound.inProgress
  · intro load hload index parent hpath hupsampled hrender
    rw [hcontent]
    exact h.sound.source load hload index parent hpath (by rwa [hid] at hupsampled) hrender
  · obtain ⟨tiles, hall, hsum⟩ := h.sound.dataUsed
    refine ⟨tiles, fun other hrender => hall other (by rwa [hcontent] at hrender), ?_⟩
    rw [hclears.tilesDataUsed, hsum]
    exact Finset.sum_congr rfl fun other _ => by rw [hcontent]
  · exact hclears.sublist.nodup h.listed.nodup
  · intro other hmem
    obtain ⟨hold, hkept⟩ := (hclears.mem_iff other).mp hmem
    obtain ⟨hin, hfree⟩ := h.listed.unheld other hold
    exact ⟨(hclears.isInTree_iff other).mpr ⟨hin, hkept⟩, hfree⟩
  · intro other hrender hfree
    rw [hcontent] at hrender
    refine (hclears.mem_iff other).mpr ⟨h.listed.complete other hrender hfree, fun hbelow => ?_⟩
    have hexact := h.counts.tile other
    rw [if_pos (h.sound.referencing_of_render hrender)] at hexact
    have hpointers := h.nonneg other
    exact hunused other hbelow.1 (by omega)
  · intro other hpointers
    exact hstays other (hpositive other hpointers)
  · exact hclears.assertionsHold.trans h.assertions

end Intact

end QtCesium.TileCache.TilesetContentManager
