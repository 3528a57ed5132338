import QtCesium.SelectionVisit

/-! What the outcomes of the tree selection have in common: which tiles are on the screen together, when a tile is
given up for its descendants, which tiles fade out, and which are asked for. -/

namespace QtCesium.Selection

open TreeTraversalState

/-- A state of a tile that is neither drawn nor gives way to its children. -/
def Still (label : TileId × TileSelectionState) : Prop := label.2 ≠ .rendered ∧ label.2 ≠ .refined

/-- Along a level, each tile is culled, or rendered with nothing drawn below it, or refined with its whole level
of children in turn. -/
inductive Cut : Forest TileId → Forest (TileId × TileSelectionState) → Prop where
  | nil : Cut .nil .nil
  | culled (tile : TileId) {children siblings : Forest TileId} {rest : Forest (TileId × TileSelectionState)}
      (hrest : Cut siblings rest) : Cut (.cons tile children siblings) (.cons (tile, .culled) .nil rest)
  | rendered (tile : TileId) {children siblings : Forest TileId} {below rest : Forest (TileId × TileSelectionState)}
      (hprunes : below = .nil ∨ Forest.Prunes (nodes below) children) (hstill : ∀ label ∈ below.preorder, Still label)
      (hrest : Cut siblings rest) : Cut (.cons tile children siblings) (.cons (tile, .rendered) below rest)
  | refined (tile : TileId) {children siblings : Forest TileId} {below rest : Forest (TileId × TileSelectionState)}
      (hnonempty : children ≠ .nil) (hbelow : Cut children below) (hrest : Cut siblings rest) :
      Cut (.cons tile children siblings) (.cons (tile, .refined) below rest)

theorem kick_still (label : TileId × TileSelectionState) : Still (label.1, label.2.kick) := by
  obtain ⟨tile, state⟩ := label
  cases state <;> exact ⟨TileSelectionState.noConfusion, TileSelectionState.noConfusion⟩

theorem kickAll_still (below : Forest (TileId × TileSelectionState)) :
    ∀ label ∈ (kickAll below).preorder, Still label := by
  intro label hlabel
  rw [kickAll, Forest.preorder_map] at hlabel
  obtain ⟨before, _, rfl⟩ := List.mem_map.mp hlabel
  exact kick_still before

theorem Cut.prunes {level : Forest TileId} {visited : Forest (TileId × TileSelectionState)} (h : Cut level visited) :
    Forest.Prunes (nodes visited) level := by
  induction h with
  | nil => exact .nil
  | culled tile _ ih => exact .skip tile _ ih
  | rendered tile hprunes _ _ ih =>
      rcases hprunes with rfl | hprunes
      · exact .skip tile _ ih
      · exact .keep tile hprunes ih
  | refined tile _ _ _ ihBelow ihRest => exact .keep tile ihBelow ihRest

variable {s : Scene} {seen : Seen} {ancestorMeetsSse : Bool} {level : Forest TileId} {outcome : Outcome}

theorem Selects.cut (h : Selects s seen ancestorMeetsSse level outcome) : Cut level outcome.visited := by
  induction h with
  | nil ancestorMeetsSse => exact .nil
  | culled _ _ _ _ ih => exact .culled _ ih
  | leaf _ _ _ _ ih => exact .rendered _ (.inl rfl) (fun label hlabel => absurd hlabel List.not_mem_nil) ih
  | inner _ _ _ _ _ _ ih => exact .rendered _ (.inl rfl) (fun label hlabel => absurd hlabel List.not_mem_nil) ih
  | refined _ _ _ _ hnonempty _ _ _ ihBelow ihRest => exact .refined _ hnonempty ihBelow ihRest
  | @kicked _ _ _ _ _ _ below _ _ _ _ _ _ _ _ _ _ _ _ _ _ ihBelow ihRest =>
      refine .rendered _ (.inr ?_) (kickAll_still below.visited) ihRest
      have hnodes : nodes (kickAll below.visited) = nodes below.visited := nodes_map _ _
      rw [hnodes]
      exact ihBelow.prunes

/-! ### Paths -/

/-- The state that a tile was left with, if it was visited. -/
def stateIn (visited : Forest (TileId × TileSelectionState)) (tile : TileId) : Option TileSelectionState :=
  (seenIn visited tile).map Prod.fst

theorem stateIn_cons (label : TileId × TileSelectionState) (below rest : Forest (TileId × TileSelectionState))
    (tile : TileId) :
    stateIn (.cons label below rest) tile =
      if label.1 = tile then some label.2 else (stateIn below tile).or (stateIn rest tile) := by
  rw [stateIn, seenIn, Forest.find]
  split
  · rfl
  · rw [stateIn, stateIn, seenIn, seenIn]
    cases below.find Prod.fst tile <;> rfl

theorem stateIn_eq_none {visited : Forest (TileId × TileSelectionState)} {tile : TileId}
    (h : tile ∉ (nodes visited).preorder) : stateIn visited tile = none := by
  rw [preorder_nodes] at h
  rw [stateIn, seenIn, Forest.find_eq_none _ h]
  rfl

theorem mem_of_stateIn {visited : Forest (TileId × TileSelectionState)} {tile : TileId} {state : TileSelectionState}
    (h : stateIn visited tile = some state) : (tile, state) ∈ visited.preorder := by
  induction visited with
  | nil => cases h
  | cons label below rest ihBelow ihRest =>
      rw [stateIn_cons] at h
      split at h
      · next heq =>
          cases h
          subst heq
          exact List.mem_cons_self
      · rcases Option.or_eq_some_iff.mp h with hbelow | ⟨_, hrest⟩
        · exact List.mem_cons_of_mem _ (List.mem_append_left _ (ihBelow hbelow))
        · exact List.mem_cons_of_mem _ (List.mem_append_right _ (ihRest hrest))

/-- A path of refined tiles down to one that is rendered or culled, below which nothing is rendered or refined. -/
def CutPath (state : TileId → Option TileSelectionState) (path : List TileId) : Prop :=
  ∃ above tile below, path = above ++ tile :: below ∧ (∀ ancestor ∈ above, state ancestor = some .refined) ∧
    (state tile = some .rendered ∨ state tile = some .culled) ∧
    ∀ descendant ∈ below, state descendant ≠ some .rendered ∧ state descendant ≠ some .refined

theorem CutPath.congr {state later : TileId → Option TileSelectionState} {path : List TileId}
    (h : CutPath state path) (hsame : ∀ tile ∈ path, later tile = state tile) : CutPath later path := by
  obtain ⟨above, tile, below, rfl, habove, htile, hbelow⟩ := h
  refine ⟨above, tile, below, rfl, fun ancestor hmem => ?_, ?_, fun descendant hmem => ?_⟩
  · rw [hsame ancestor (List.mem_append_left _ hmem)]
    exact habove ancestor hmem
  · rw [hsame tile (List.mem_append_right _ List.mem_cons_self)]
    exact htile
  · rw [hsame descendant (List.mem_append_right _ (List.mem_cons_of_mem _ hmem))]
    exact hbelow descendant hmem

section Level

variable {tile : TileId} {state : TileSelectionState} {children siblings : Forest TileId}
  {below rest : Forest (TileId × TileSelectionState)}

theorem stateIn_head : stateIn (.cons (tile, state) below rest) tile = some state := by
  rw [stateIn_cons, if_pos rfl]

/-- Among distinct tiles, what is below a tile is found there. -/
theorem stateIn_down (hnodup : (Forest.cons tile children siblings).preorder.Nodup)
    (hrest : (nodes rest).preorder ⊆ siblings.preorder) {other : TileId} (hother : other ∈ children.preorder) :
    stateIn (.cons (tile, state) below rest) other = stateIn below other := by
  rw [Forest.preorder_cons, List.nodup_cons, List.nodup_append] at hnodup
  obtain ⟨htile, _, _, hdisjoint⟩ := hnodup
  have hne : tile ≠ other := fun heq => htile (heq ▸ List.mem_append_left _ hother)
  have habsent : stateIn rest other = none :=
    stateIn_eq_none fun hmem => hdisjoint other hother other (hrest hmem) rfl
  rw [stateIn_cons, if_neg hne, habsent, Option.or_none]

/-- Among distinct tiles, what is after a tile is found there. -/
theorem stateIn_next (hnodup : (Forest.cons tile children siblings).preorder.Nodup)
    (hbelow : (nodes below).preorder ⊆ children.preorder) {other : TileId} (hother : other ∈ siblings.preorder) :
    stateIn (.cons (tile, state) below rest) other = stateIn rest other := by
  rw [Forest.preorder_cons, List.nodup_cons, List.nodup_append] at hnodup
  obtain ⟨htile, _, _, hdisjoint⟩ := hnodup
  have hne : tile ≠ other := fun heq => htile (heq ▸ List.mem_append_right _ hother)
  have habsent : stateIn below other = none :=
    stateIn_eq_none fun hmem => hdisjoint other (hbelow hmem) other hother rfl
  rw [stateIn_cons, if_neg hne, habsent, Option.none_or]

theorem Cut.subset (h : Cut level below) : (nodes below).preorder ⊆ level.preorder := h.prunes.sublist.subset

end Level

theorem Cut.path {level : Forest TileId} {visited : Forest (TileId × TileSelectionState)} (h : Cut level visited)
    (hnodup : level.preorder.Nodup) {path : List TileId} (hpath : Forest.LeafPath path level) :
    CutPath (stateIn visited) path := by
  induction h generalizing path with
  | nil => exact absurd hpath Forest.not_leafPath_nil
  | @culled tile children siblings rest hrest ih =>
      have hdown : ∀ other ∈ children.preorder,
          stateIn (.cons (tile, .culled) .nil rest) other = none := by
        intro other hother
        rw [stateIn_down hnodup hrest.subset hother]
        rfl
      cases hpath with
      | leaf => exact ⟨[], tile, [], rfl, by simp, .inr stateIn_head, by simp⟩
      | @down _ path _ _ hpath =>
          refine ⟨[], tile, path, rfl, by simp, .inr stateIn_head, fun other hother => ?_⟩
          rw [hdown other (hpath.subset hother)]
          exact ⟨nofun, nofun⟩
      | next _ _ hpath =>
          have hsiblings : siblings.preorder.Nodup :=
            (List.nodup_append.mp (List.nodup_cons.mp hnodup).2).2.1
          exact (ih hsiblings hpath).congr fun other hother =>
            stateIn_next hnodup (List.nil_subset _) (hpath.subset hother)
  | @rendered tile children siblings below rest hprunes hstill hrest ih =>
      have hbelow : (nodes below).preorder ⊆ children.preorder := by
        rcases hprunes with rfl | hprunes
        · exact List.nil_subset _
        · exact hprunes.sublist.subset
      cases hpath with
      | leaf => exact ⟨[], tile, [], rfl, by simp, .inl stateIn_head, by simp⟩
      | @down _ path _ _ hpath =>
          refine ⟨[], tile, path, rfl, by simp, .inl stateIn_head, fun other hother => ?_⟩
          rw [stateIn_down hnodup hrest.subset (hpath.subset hother)]
          constructor
          · intro hstate
            exact (hstill _ (mem_of_stateIn hstate)).1 rfl
          · intro hstate
            exact (hstill _ (mem_of_stateIn hstate)).2 rfl
      | next _ _ hpath =>
          have hsiblings : siblings.preorder.Nodup :=
            (List.nodup_append.mp (List.nodup_cons.mp hnodup).2).2.1
          exact (ih hsiblings hpath).congr fun other hother => stateIn_next hnodup hbelow (hpath.subset hother)
  | @refined tile children siblings below rest hnonempty hbelow hrest ihBelow ihRest =>
      have hparts := List.nodup_append.mp (List.nodup_cons.mp hnodup).2
      cases hpath with
      | leaf => exact absurd rfl hnonempty
      | @down _ path _ _ hpath =>
          have hcut : CutPath (stateIn (.cons (tile, .refined) below rest)) path :=
            (ihBelow hparts.1 hpath).congr fun other hother =>
              stateIn_down hnodup hrest.subset (hpath.subset hother)
          obtain ⟨above, settled, under, rfl, habove, hsettled, hunder⟩ := hcut
          refine ⟨tile :: above, settled, under, rfl, fun ancestor hmem => ?_, hsettled, hunder⟩
          rcases List.mem_cons.mp hmem with rfl | hmem
          · exact stateIn_head
          · exact habove ancestor hmem
      | next _ _ hpath =>
          exact (ihRest hparts.2.1 hpath).congr fun other hother =>
            stateIn_next hnodup hbelow.subset (hpath.subset hother)

/-- Only a refined tile has tiles drawn or refined below it. -/
theorem Cut.still {level : Forest TileId} {visited : Forest (TileId × TileSelectionState)} (h : Cut level visited)
    {label : TileId × TileSelectionState} {under : Forest (TileId × TileSelectionState)}
    (hnode : Forest.Node label under visited) (hstate : label.2 ≠ .refined) : ∀ inner ∈ under.preorder, Still inner := by
  induction h with
  | nil => cases hnode
  | culled tile _ ih =>
      cases hnode with
      | here => exact fun inner hinner => absurd hinner List.not_mem_nil
      | down _ hnode => cases hnode
      | next _ hnode => exact ih hnode
  | rendered tile _ hstill _ ih =>
      cases hnode with
      | here => exact hstill
      | down _ hnode => exact fun inner hinner => hstill inner (hnode.below_subset hinner)
      | next _ hnode => exact ih hnode
  | refined tile _ _ _ ihBelow ihRest =>
      cases hnode with
      | here => exact absurd rfl hstate
      | down _ hnode => exact ihBelow hnode
      | next _ hnode => exact ihRest hnode

theorem wasShown_of_still {label : TileId × TileSelectionState} (h : Still label) : s.wasShown label = false := by
  obtain ⟨hrendered, hrefined⟩ := h
  rw [Scene.wasShown, decide_eq_false hrendered, decide_eq_false hrefined]
  rfl

theorem shownOf_of_still {labels : List (TileId × TileSelectionState)} (h : ∀ label ∈ labels, Still label) :
    s.shownOf labels = [] := by
  rw [Scene.shownOf, List.map_eq_nil_iff, List.filter_eq_nil_iff]
  intro label hlabel
  rw [wasShown_of_still (h label hlabel)]
  exact Bool.false_ne_true

/-! ### Holes -/

/-- A tile among the labels that is ready, and was on the screen itself or by tiles in its stead. -/
def KeepsDetail (s : Scene) (seen : Seen) (labels : List (TileId × TileSelectionState)) : Prop :=
  ∃ tile state, (tile, state) ∈ labels ∧ (state = .rendered ∨ state = .culled) ∧
    (s.tile tile).isRenderable = true ∧ s.wasOnScreen seen tile = true

/-- Every tile among the labels that is to be rendered is ready. -/
def AllRenderable (s : Scene) (labels : List (TileId × TileSelectionState)) : Prop :=
  ∀ tile, (tile, TileSelectionState.rendered) ∈ labels → (s.tile tile).isRenderable = true

theorem KeepsDetail.mono {labels more : List (TileId × TileSelectionState)} (h : KeepsDetail s seen labels)
    (hsubset : labels ⊆ more) : KeepsDetail s seen more := by
  obtain ⟨tile, state, hmem, hrest⟩ := h
  exact ⟨tile, state, hsubset hmem, hrest⟩

theorem AllRenderable.cons {label : TileId × TileSelectionState} {labels : List (TileId × TileSelectionState)}
    (hlabel : label.2 = .rendered → (s.tile label.1).isRenderable = true) (h : AllRenderable s labels) :
    AllRenderable s (label :: labels) := by
  intro tile hmem
  rcases List.mem_cons.mp hmem with heq | hmem
  · rw [← heq] at hlabel
    exact hlabel rfl
  · exact h tile hmem

theorem AllRenderable.append {first second : List (TileId × TileSelectionState)} (hfirst : AllRenderable s first)
    (hsecond : AllRenderable s second) : AllRenderable s (first ++ second) := by
  intro tile hmem
  exact (List.mem_append.mp hmem).elim (hfirst tile) (hsecond tile)

theorem allRenderable_of_still {labels : List (TileId × TileSelectionState)} (h : ∀ label ∈ labels, Still label) :
    AllRenderable s labels := fun _ hmem => absurd rfl (h _ hmem).1

theorem singleDetails_all {tile : TileId} (h : (s.singleDetails seen tile).allAreRenderable = true) :
    (s.tile tile).isRenderable = true := h

theorem singleDetails_any {tile : TileId} (h : (s.singleDetails seen tile).anyWereRenderedLastFrame = true) :
    (s.tile tile).isRenderable = true ∧ s.wasOnScreen seen tile = true := Bool.and_eq_true_iff.mp h

/-- What a parent is told of its subtree is so: the first flag. -/
theorem Selects.allRenderable (h : Selects s seen ancestorMeetsSse level outcome)
    (hall : outcome.details.allAreRenderable = true) : AllRenderable s outcome.visited.preorder := by
  induction h with
  | nil ancestorMeetsSse => exact fun tile hmem => absurd hmem List.not_mem_nil
  | culled _ _ _ _ ih => exact .cons nofun (ih (Bool.and_eq_true_iff.mp hall).2)
  | leaf _ _ _ _ ih =>
      obtain ⟨hown, hrest⟩ := Bool.and_eq_true_iff.mp hall
      exact .cons (fun _ => singleDetails_all hown) (ih hrest)
  | inner _ _ _ _ _ _ ih =>
      obtain ⟨hown, hrest⟩ := Bool.and_eq_true_iff.mp hall
      exact .cons (fun _ => singleDetails_all hown) (ih hrest)
  | refined _ _ _ _ _ _ _ _ ihBelow ihRest =>
      obtain ⟨hbelow, hrest⟩ := Bool.and_eq_true_iff.mp hall
      exact .cons nofun (.append (ihBelow hbelow) (ihRest hrest))
  | kicked _ _ _ _ _ _ _ _ hdetails _ _ ihRest =>
      obtain ⟨hown, hrest⟩ := Bool.and_eq_true_iff.mp hall
      subst hdetails
      exact .cons (fun _ => hown) (.append (allRenderable_of_still (kickAll_still _)) (ihRest hrest))

/-- What a parent is told of its subtree is so: the second flag. -/
theorem Selects.keepsDetail (h : Selects s seen ancestorMeetsSse level outcome)
    (hany : outcome.details.anyWereRenderedLastFrame = true) : KeepsDetail s seen outcome.visited.preorder := by
  induction h with
  | nil ancestorMeetsSse => cases hany
  | @culled _ tile _ _ _ _ _ _ _ hdetails _ ih =>
      rcases Bool.or_eq_true_iff.mp hany with hown | hrest
      · rcases hdetails with rfl | ⟨rfl, _⟩
        · cases hown
        · obtain ⟨hrenderable, hscreen⟩ := singleDetails_any hown
          exact ⟨tile, .culled, List.mem_cons_self, .inr rfl, hrenderable, hscreen⟩
      · exact (ih hrest).mono (List.subset_cons_self _ _)
  | @leaf _ tile _ _ _ _ _ _ _ ih =>
      rcases Bool.or_eq_true_iff.mp hany with hown | hrest
      · obtain ⟨hrenderable, hscreen⟩ := singleDetails_any hown
        exact ⟨tile, .rendered, List.mem_cons_self, .inl rfl, hrenderable, hscreen⟩
      · exact (ih hrest).mono (List.subset_cons_self _ _)
  | @inner _ tile _ _ _ _ _ _ _ _ _ _ ih =>
      rcases Bool.or_eq_true_iff.mp hany with hown | hrest
      · obtain ⟨hrenderable, hscreen⟩ := singleDetails_any hown
        exact ⟨tile, .rendered, List.mem_cons_self, .inl rfl, hrenderable, hscreen⟩
      · exact (ih hrest).mono (List.subset_cons_self _ _)
  | refined _ _ _ _ _ _ _ _ ihBelow ihRest =>
      rcases Bool.or_eq_true_iff.mp hany with hbelow | hrest
      · exact (ihBelow hbelow).mono fun label h => List.mem_cons_of_mem _ (List.mem_append_left _ h)
      · exact (ihRest hrest).mono fun label h => List.mem_cons_of_mem _ (List.mem_append_right _ h)
  | @kicked _ _ _ tile _ _ _ _ _ _ _ _ _ _ _ _ _ _ _ hdetails _ _ ihRest =>
      rcases Bool.or_eq_true_iff.mp hany with hown | hrest
      · subst hdetails
        obtain ⟨hstate, hrenderable⟩ := Bool.and_eq_true_iff.mp hown
        refine ⟨tile, .rendered, List.mem_cons_self, .inl rfl, hrenderable, ?_⟩
        rw [Scene.wasOnScreen, hstate, Bool.true_or]
      · exact (ihRest hrest).mono fun label h => List.mem_cons_of_mem _ (List.mem_append_right _ h)

/-- A tile that is ready gives way to its descendants only when all of them that are to be rendered are ready,
or one of them keeps detail on the screen. -/
theorem Selects.justified (h : Selects s seen ancestorMeetsSse level outcome) {tile : TileId}
    {below : Forest (TileId × TileSelectionState)} (hnode : Forest.Node (tile, .refined) below outcome.visited)
    (hready : (s.tile tile).isRenderable = true) :
    AllRenderable s below.preorder ∨ KeepsDetail s seen below.preorder := by
  induction h with
  | nil ancestorMeetsSse => cases hnode
  | culled _ _ _ _ ih =>
      cases hnode with
      | down _ hnode => cases hnode
      | next _ hnode => exact ih hnode
  | leaf _ _ _ _ ih =>
      cases hnode with
      | down _ hnode => cases hnode
      | next _ hnode => exact ih hnode
  | inner _ _ _ _ _ _ ih =>
      cases hnode with
      | down _ hnode => cases hnode
      | next _ hnode => exact ih hnode
  | refined _ _ _ _ _ hchildren hkeep _ ihBelow ihRest =>
      cases hnode with
      | here =>
          rcases hkeep with hall | hany | hnot
          · exact .inl (hchildren.allRenderable hall)
          · exact .inr (hchildren.keepsDetail hany)
          · rw [hready] at hnot
            cases hnot
      | down _ hnode => exact ihBelow hnode
      | next _ hnode => exact ihRest hnode
  | kicked _ _ _ _ _ _ _ _ _ _ _ ihRest =>
      cases hnode with
      | down _ hnode => exact absurd rfl (kickAll_still _ _ hnode.mem_preorder).2
      | next _ hnode => exact ihRest hnode

/-! ### Requests -/

theorem AtMostOne.split {tile : TileId} {before after middle : List TileLoadTask} (h : AtMostOne tile (before ++ after))
    (hfree : tile ∉ middle.map TileLoadTask.pTile) (hnodup : (middle.map TileLoadTask.pTile).Nodup) :
    ((before ++ middle ++ after).map TileLoadTask.pTile).Nodup ∧
      ∀ task ∈ before ++ middle ++ after, task.pTile = tile ∨ task ∈ middle := by
  generalize hown : before ++ after = own at h
  cases h with
  | none =>
      obtain ⟨rfl, rfl⟩ := List.append_eq_nil_iff.mp hown
      rw [List.nil_append, List.append_nil]
      exact ⟨hnodup, fun task h => .inr h⟩
  | one group priority =>
      rcases List.append_eq_singleton_iff.mp hown with ⟨rfl, rfl⟩ | ⟨rfl, rfl⟩
      · simp only [List.nil_append, List.map_append, List.map_cons, List.map_nil]
        refine ⟨List.nodup_append.mpr ⟨hnodup, List.nodup_singleton tile, ?_⟩, ?_⟩
        · intro x hx y hy
          cases List.mem_singleton.mp hy
          exact fun heq => hfree (heq ▸ hx)
        · intro task hmem
          rcases List.mem_append.mp hmem with hmem | hmem
          · exact .inr hmem
          · cases List.mem_singleton.mp hmem
            exact .inl rfl
      · rw [List.append_nil]
        refine ⟨List.nodup_cons.mpr ⟨hfree, hnodup⟩, ?_⟩
        intro task hmem
        rcases List.mem_cons.mp hmem with rfl | hmem
        · exact .inl rfl
        · exact .inr hmem

/-- What is asked for in a level is asked for once, by a tile that the level has and that is visited. -/
structure Requests (outcome : Outcome) : Prop where
  nodup : (outcome.requested.map TileLoadTask.pTile).Nodup
  visited : ∀ task ∈ outcome.requested, task.pTile ∈ (nodes outcome.visited).preorder

theorem Requests.cons {tile : TileId} {state : TileSelectionState} {children siblings : Forest TileId}
    {under : Forest (TileId × TileSelectionState)} {details : TraversalDetails} {faded : List TileId}
    {queued own : List TileLoadTask} {rest : Outcome}
    (hnodup : (Forest.cons tile children siblings).preorder.Nodup)
    (hunder : (nodes under).preorder ⊆ children.preorder) (hown : (own.map TileLoadTask.pTile).Nodup)
    (hmem : ∀ task ∈ own, task.pTile = tile ∨ task.pTile ∈ (nodes under).preorder) (hrest : Requests rest)
    (hsiblings : (nodes rest.visited).preorder ⊆ siblings.preorder) :
    Requests (Outcome.append ⟨.cons (tile, state) under .nil, details, faded, queued, own⟩ rest) := by
  rw [Forest.preorder_cons, List.nodup_cons, List.nodup_append] at hnodup
  obtain ⟨htile, _, _, hdisjoint⟩ := hnodup
  constructor
  · change ((own ++ rest.requested).map TileLoadTask.pTile).Nodup
    rw [List.map_append, List.nodup_append]
    refine ⟨hown, hrest.nodup, fun x hx y hy heq => ?_⟩
    obtain ⟨task, htask, rfl⟩ := List.mem_map.mp hx
    obtain ⟨other, hother, rfl⟩ := List.mem_map.mp hy
    have hlater := hsiblings (hrest.visited other hother)
    rcases hmem task htask with hself | hbelow
    · exact htile (List.mem_append_right _ (hself ▸ heq ▸ hlater))
    · exact hdisjoint _ (hunder hbelow) _ hlater heq
  · intro task htask
    change task.pTile ∈ tile :: ((nodes under).preorder ++ (nodes rest.visited).preorder)
    rcases List.mem_append.mp htask with hfirst | hlater
    · rcases hmem task hfirst with hself | hbelow
      · exact List.mem_cons.mpr (.inl hself)
      · exact List.mem_cons_of_mem _ (List.mem_append_left _ hbelow)
    · exact List.mem_cons_of_mem _ (List.mem_append_right _ (hrest.visited task hlater))

theorem AtMostOne.own {tile : TileId} {own : List TileLoadTask} (h : AtMostOne tile own) :
    (own.map TileLoadTask.pTile).Nodup ∧ ∀ task ∈ own, task.pTile = tile := by
  cases h with
  | none => exact ⟨List.nodup_nil, fun task h => absurd h List.not_mem_nil⟩
  | one group priority =>
      refine ⟨List.nodup_singleton tile, fun task h => ?_⟩
      cases List.mem_singleton.mp h
      rfl

/-- The tile's own task beside those from below it. -/
theorem Requests.around {tile : TileId} {children : Forest TileId} {below : Outcome} {before after : List TileLoadTask}
    (htile : tile ∉ children.preorder) (hsubset : (nodes below.visited).preorder ⊆ children.preorder)
    (hown : AtMostOne tile (before ++ after)) (h : Requests below) :
    ((before ++ below.requested ++ after).map TileLoadTask.pTile).Nodup ∧
      ∀ task ∈ before ++ below.requested ++ after,
        task.pTile = tile ∨ task.pTile ∈ (nodes below.visited).preorder := by
  have hfree : tile ∉ below.requested.map TileLoadTask.pTile := by
    intro hmem
    obtain ⟨task, htask, rfl⟩ := List.mem_map.mp hmem
    exact htile (hsubset (h.visited task htask))
  obtain ⟨hnodup, hmem⟩ := hown.split hfree h.nodup
  exact ⟨hnodup, fun task htask => (hmem task htask).imp_right (h.visited task)⟩

theorem Selects.requests (h : Selects s seen ancestorMeetsSse level outcome) (hnodup : level.preorder.Nodup) :
    Requests outcome := by
  induction h with
  | nil ancestorMeetsSse => exact ⟨List.nodup_nil, fun task h => absurd h List.not_mem_nil⟩
  | culled _ hown _ hrest ih =>
      have hparts := List.nodup_append.mp (List.nodup_cons.mp hnodup).2
      exact .cons hnodup (List.nil_subset _) hown.own.1 (fun task h => .inl (hown.own.2 task h)) (ih hparts.2.1)
        hrest.cut.subset
  | leaf _ hown _ hrest ih =>
      have hparts := List.nodup_append.mp (List.nodup_cons.mp hnodup).2
      exact .cons hnodup (List.nil_subset _) hown.own.1 (fun task h => .inl (hown.own.2 task h)) (ih hparts.2.1)
        hrest.cut.subset
  | inner _ _ hown _ _ hrest ih =>
      have hparts := List.nodup_append.mp (List.nodup_cons.mp hnodup).2
      exact .cons hnodup (List.nil_subset _) hown.own.1 (fun task h => .inl (hown.own.2 task h)) (ih hparts.2.1)
        hrest.cut.subset
  | refined _ _ hown _ _ hchildren _ hrest ihBelow ihRest =>
      obtain ⟨htile, hlevel⟩ := List.nodup_cons.mp hnodup
      have hparts := List.nodup_append.mp hlevel
      obtain ⟨hnodup', hmem⟩ := (ihBelow hparts.1).around (fun h => htile (List.mem_append_left _ h))
        hchildren.cut.subset hown
      exact .cons hnodup hchildren.cut.subset hnodup' hmem (ihRest hparts.2.1) hrest.cut.subset
  | @kicked _ _ _ _ children _ below _ _ _ _ _ _ hown _ _ hchildren _ _ _ hrest ihBelow ihRest =>
      obtain ⟨htile, hlevel⟩ := List.nodup_cons.mp hnodup
      have hparts := List.nodup_append.mp hlevel
      obtain ⟨hnodup', hmem⟩ := (ihBelow hparts.1).around (fun h => htile (List.mem_append_left _ h))
        hchildren.cut.subset hown
      have hnodes : nodes (kickAll below.visited) = nodes below.visited := nodes_map _ _
      rw [← hnodes] at hmem
      refine .cons hnodup ?_ hnodup' hmem (ihRest hparts.2.1) hrest.cut.subset
      rw [hnodes]
      exact hchildren.cut.subset

/-! ### Fading out -/

/-- A tree in which every node of an earlier one still has the children that were visited below it. -/
def Grows : Forest TileId → Forest TileId → Prop
  | .nil, .nil => True
  | .cons tile below later, .cons tile' children siblings =>
    tile = tile' ∧ (below = .nil ∨ Grows below children) ∧ Grows later siblings
  | _, _ => False

theorem mem_shown_cons {tile other : TileId} {state : TileSelectionState}
    {below rest : Forest (TileId × TileSelectionState)} :
    other ∈ s.shown (.cons (tile, state) below rest) ↔
      other ∈ s.shownOf [(tile, state)] ∨ other ∈ s.shown below ∨ other ∈ s.shown rest := by
  rw [shown_cons, List.mem_append, List.mem_append]

theorem mem_shownOf_singleton {tile other : TileId} {state : TileSelectionState} :
    other ∈ s.shownOf [(tile, state)] ↔ other = tile ∧ s.wasShown (tile, state) = true := by
  rw [Scene.shownOf, List.filter_singleton]
  cases s.wasShown (tile, state) <;> simp

/-- A part of what the previous frame left, as the lookups of this frame see it. -/
structure Earlier (seen : Seen) (part : Forest (TileId × TileSelectionState)) : Prop where
  seen : ∀ label below, Forest.Node label below part → seen label.1 = some (label.2, below)
  still : ∀ label below, Forest.Node label below part → label.2 ≠ .refined → ∀ inner ∈ below.preorder, Still inner

theorem Earlier.down {label : TileId × TileSelectionState} {below rest : Forest (TileId × TileSelectionState)}
    (h : Earlier seen (.cons label below rest)) : Earlier seen below :=
  ⟨fun inner under hnode => h.seen inner under (.down rest hnode),
    fun inner under hnode => h.still inner under (.down rest hnode)⟩

theorem Earlier.next {label : TileId × TileSelectionState} {below rest : Forest (TileId × TileSelectionState)}
    (h : Earlier seen (.cons label below rest)) : Earlier seen rest :=
  ⟨fun inner under hnode => h.seen inner under (.next below hnode),
    fun inner under hnode => h.still inner under (.next below hnode)⟩

section Fade

variable {tile other : TileId} {state : TileSelectionState} {below rest : Forest (TileId × TileSelectionState)}

theorem Earlier.fadedTile_eq (h : Earlier seen (.cons (tile, state) below rest)) :
    s.fadedTile seen tile = s.shownOf [(tile, state)] := by
  rw [Scene.fadedTile, Seen.state, h.seen (tile, state) below (.here rest)]
  rfl

theorem Earlier.fadedBelow_eq (h : Earlier seen (.cons (tile, state) below rest)) :
    s.fadedBelow seen tile = s.shown below := by
  rw [Scene.fadedBelow, Seen.below, h.seen (tile, state) below (.here rest)]
  rfl

/-- Below a tile that was not refined nothing was on the screen, so that nothing has to fade out. -/
theorem Earlier.fadedBelowRefined_eq (h : Earlier seen (.cons (tile, state) below rest)) :
    s.fadedBelowRefined seen tile = s.shown below := by
  rw [Scene.fadedBelowRefined, Seen.state, h.seen (tile, state) below (.here rest)]
  change (if state = .refined then _ else _) = _
  by_cases hrefined : state = .refined
  · rw [if_pos hrefined, h.fadedBelow_eq]
  · rw [if_neg hrefined, Scene.shown, shownOf_of_still (h.still (tile, state) below (.here rest) hrefined)]

end Fade

/-- A tile that was on the screen in the previous frame is on it again or fades out. The induction is on the
outcome, with the part of the previous frame that belongs to the level. -/
theorem Selects.fades (h : Selects s seen ancestorMeetsSse level outcome)
    {part : Forest (TileId × TileSelectionState)} (hearlier : Earlier seen part) (hgrows : Grows (nodes part) level)
    {tile : TileId} (hshown : tile ∈ s.shown part) : tile ∈ s.shown outcome.visited ∨ tile ∈ outcome.faded := by
  induction h generalizing part with
  | nil ancestorMeetsSse =>
      cases part with
      | nil => exact .inl hshown
      | cons label below rest => exact hgrows.elim
  | culled _ _ _ _ ih =>
      cases part with
      | nil => exact hgrows.elim
      | cons label below rest =>
          obtain ⟨other, state⟩ := label
          obtain ⟨rfl, _, hrest⟩ := hgrows
          change tile ∈ s.shown (.cons _ _ _) ∨ tile ∈ (_ ++ _) ++ _
          rw [mem_shown_cons, List.mem_append, List.mem_append, hearlier.fadedTile_eq, hearlier.fadedBelowRefined_eq]
          rcases mem_shown_cons.mp hshown with hself | hbelow | hlater
          · exact .inr (.inl (.inl hself))
          · exact .inr (.inl (.inr hbelow))
          · exact (ih hearlier.next hrest hlater).imp (fun h => .inr (.inr h)) .inr
  | leaf _ _ _ _ ih =>
      cases part with
      | nil => exact hgrows.elim
      | cons label below rest =>
          obtain ⟨other, state⟩ := label
          obtain ⟨rfl, hbelow, hrest⟩ := hgrows
          change tile ∈ s.shown (.cons _ _ _) ∨ tile ∈ [] ++ _
          rw [mem_shown_cons, List.nil_append]
          rcases mem_shown_cons.mp hshown with hself | hunder | hlater
          · exact .inl (.inl (mem_shownOf_singleton.mpr ⟨(mem_shownOf_singleton.mp hself).1, rfl⟩))
          · cases below with
            | nil => cases hunder
            | cons label' under rest' => exact hbelow.elim (fun h => by cases h) False.elim
          · exact (ih hearlier.next hrest hlater).imp (fun h => .inr (.inr h)) id
  | inner _ _ _ _ _ _ ih =>
      cases part with
      | nil => exact hgrows.elim
      | cons label below rest =>
          obtain ⟨other, state⟩ := label
          obtain ⟨rfl, _, hrest⟩ := hgrows
          change tile ∈ s.shown (.cons _ _ _) ∨ tile ∈ _ ++ _
          rw [mem_shown_cons, List.mem_append, hearlier.fadedBelowRefined_eq]
          rcases mem_shown_cons.mp hshown with hself | hunder | hlater
          · exact .inl (.inl (mem_shownOf_singleton.mpr ⟨(mem_shownOf_singleton.mp hself).1, rfl⟩))
          · exact .inr (.inl hunder)
          · exact (ih hearlier.next hrest hlater).imp (fun h => .inr (.inr h)) .inr
  | refined _ _ _ _ _ _ _ _ ihBelow ihRest =>
      cases part with
      | nil => exact hgrows.elim
      | cons label below rest =>
          obtain ⟨other, state⟩ := label
          obtain ⟨rfl, hbelow, hrest⟩ := hgrows
          change tile ∈ s.shown (.cons _ _ _) ∨ tile ∈ (_ ++ _) ++ _
          rw [mem_shown_cons, List.mem_append, List.mem_append]
          rcases mem_shown_cons.mp hshown with hself | hunder | hlater
          · by_cases hadd : (s.tile other).refine = .add
            · left; left
              refine mem_shownOf_singleton.mpr ⟨(mem_shownOf_singleton.mp hself).1, ?_⟩
              simp [Scene.wasShown, hadd]
            · right; left; right
              rw [if_neg hadd, hearlier.fadedTile_eq]
              exact hself
          · rcases hbelow with hnil | hbelow
            · cases below with
              | nil => cases hunder
              | cons label' under rest' => cases hnil
            · exact (ihBelow hearlier.down hbelow hunder).imp (fun h => .inr (.inl h)) (fun h => .inl (.inl h))
          · exact (ihRest hearlier.next hrest hlater).imp (fun h => .inr (.inr h)) .inr
  | kicked _ _ _ _ _ _ _ _ _ _ _ ihRest =>
      cases part with
      | nil => exact hgrows.elim
      | cons label below rest =>
          obtain ⟨other, state⟩ := label
          obtain ⟨rfl, _, hrest⟩ := hgrows
          change tile ∈ s.shown (.cons _ _ _) ∨ tile ∈ (_ ++ _) ++ _
          rw [mem_shown_cons, List.mem_append, List.mem_append, hearlier.fadedBelow_eq]
          rcases mem_shown_cons.mp hshown with hself | hunder | hlater
          · exact .inl (.inl (mem_shownOf_singleton.mpr ⟨(mem_shownOf_singleton.mp hself).1, rfl⟩))
          · exact .inr (.inl (.inr hunder))
          · exact (ihRest hearlier.next hrest hlater).imp (fun h => .inr (.inr h)) .inr

theorem shown_congr {s s' : Scene} (hrefine : ∀ tile, (s'.tile tile).refine = (s.tile tile).refine)
    (visited : Forest (TileId × TileSelectionState)) : s'.shown visited = s.shown visited := by
  have hsame : s'.wasShown = s.wasShown := by
    funext label
    rw [Scene.wasShown, Scene.wasShown, hrefine]
  rw [Scene.shown, Scene.shown, Scene.shownOf, Scene.shownOf, hsame]

theorem Cut.asEarlier {level : Forest TileId} {visited : Forest (TileId × TileSelectionState)} (h : Cut level visited)
    (hnodup : (visited.keys Prod.fst).Nodup) : Earlier (seenIn visited) visited where
  seen label below hnode := by
    rw [seenIn, hnode.find_eq Prod.fst hnodup]
    rfl
  still label below hnode hstate := h.still hnode hstate

end QtCesium.Selection
