import QtCesium.Selection
import QtCesium.TraversalLookup

/-! The selection of a frame as a relation on trees: what a visit of a level leaves, by what the previous frame
left, without vectors, indices and checkpoints. -/

namespace QtCesium.Selection

open TreeTraversalState

/-- What the visit of a level leaves: the nodes visited with their states, what the parent is told of them, the
tiles that begin to fade out, the load tasks that stay queued, and all those asked for. -/
structure Outcome where
  visited : Forest (TileId × TileSelectionState)
  details : TraversalDetails
  faded : List TileId
  queued : List TileLoadTask
  requested : List TileLoadTask

namespace Outcome

def nil : Outcome := ⟨.nil, .new, [], [], []⟩

def append (first second : Outcome) : Outcome :=
  ⟨first.visited.append second.visited, first.details.merge second.details, first.faded ++ second.faded,
    first.queued ++ second.queued, first.requested ++ second.requested⟩

end Outcome

/-- What the previous frame left of a tile: its state and the level visited below it. -/
abbrev Seen := TileId → Option (TileSelectionState × Forest (TileId × TileSelectionState))

def Seen.state (seen : Seen) (tile : TileId) : TileSelectionState := ((seen tile).map Prod.fst).getD .none

def Seen.below (seen : Seen) (tile : TileId) : List (TileId × TileSelectionState) :=
  (seen tile).elim [] fun found => found.2.preorder

namespace Scene

variable (s : Scene)

/-- The tiles of a list that were on the screen. -/
def shownOf (labels : List (TileId × TileSelectionState)) : List TileId := (labels.filter s.wasShown).map Prod.fst

/-- The tiles that a visited level puts on the screen. -/
def shown (visited : Forest (TileId × TileSelectionState)) : List TileId := s.shownOf visited.preorder

def fadedTile (seen : Seen) (tile : TileId) : List TileId := s.shownOf [(tile, seen.state tile)]

def fadedBelow (seen : Seen) (tile : TileId) : List TileId := s.shownOf (seen.below tile)

def fadedBelowRefined (seen : Seen) (tile : TileId) : List TileId :=
  if seen.state tile = .refined then s.fadedBelow seen tile else []

/-- Whether the tile, or tiles in its stead, were on the screen. -/
def wasOnScreen (seen : Seen) (tile : TileId) : Bool :=
  seen.state tile = .rendered ||
    (seen.state tile = .refined &&
      ((s.tile tile).refine = .add || (seen.below tile).any fun label => label.2 = .rendered))

def singleDetails (seen : Seen) (tile : TileId) : TraversalDetails :=
  ⟨(s.tile tile).isRenderable, (s.tile tile).isRenderable && s.wasOnScreen seen tile,
    if (s.tile tile).isRenderable then 0 else 1⟩

/-- Whether the tile is good enough to be rendered itself: it is not there only to be refined, and it or an ancestor
meets the screen-space error. -/
def isFineEnough (ancestorMeetsSse : Bool) (tile : TileId) : Bool :=
  !(s.tile tile).unconditionallyRefine && (s.meetsSse tile (s.cullResult tile).culled || ancestorMeetsSse)

/-- Whether the tile keeps its descendants off the screen while it fades in. -/
def kicksWhileFadingIn (seen : Seen) (tile : TileId) : Bool :=
  s.options.enableLodTransitionPeriod && s.options.kickDescendantsWhileFadingIn && seen.state tile = .rendered &&
    (s.tile tile).isRenderContent && (s.tile tile).fadingIn

end Scene

/-- Why a tile with children is rendered without a visit of them: it is fine enough, or it is occluded. -/
def Renders (s : Scene) (ancestorMeetsSse : Bool) (tile : TileId) : Prop :=
  s.isFineEnough ancestorMeetsSse tile = true ∨
    s.options.enableOcclusionCulling = true ∧ (s.tile tile).unconditionallyRefine = false

/-- Why the children of a tile are visited: it is not fine enough, or it should be rendered but is not ready while
its descendants were on the screen; then they count as fine enough. -/
inductive Refines (s : Scene) (seen : Seen) (ancestorMeetsSse : Bool) (tile : TileId) : Bool → Prop where
  | coarse (h : s.isFineEnough ancestorMeetsSse tile = false) : Refines s seen ancestorMeetsSse tile ancestorMeetsSse
  | deeper (hrender : Renders s ancestorMeetsSse tile) (hready : (s.tile tile).isRenderable = false)
      (hstate : (seen.state tile).getOriginalResult = .refined) : Refines s seen ancestorMeetsSse tile true

/-- No load task, or one for the tile. -/
inductive AtMostOne (tile : TileId) : List TileLoadTask → Prop where
  | none : AtMostOne tile []
  | one (group : TileLoadPriorityGroup) (priority : Rat) : AtMostOne tile [⟨tile, group, priority⟩]

def kickAll (visited : Forest (TileId × TileSelectionState)) : Forest (TileId × TileSelectionState) :=
  visited.map fun label => (label.1, label.2.kick)

/-- The outcomes that the visit of a level may have. Each tile of it is culled, rendered without a visit of its
children, refined, or rendered after its visited descendants were kicked. -/
inductive Selects (s : Scene) (seen : Seen) : Bool → Forest TileId → Outcome → Prop where
  | nil (ancestorMeetsSse : Bool) : Selects s seen ancestorMeetsSse .nil .nil
  | culled {ancestorMeetsSse : Bool} {tile : TileId} {children siblings : Forest TileId} {rest : Outcome}
      {own : List TileLoadTask} {details : TraversalDetails} (hvisit : (s.cullResult tile).shouldVisit = false)
      (hown : AtMostOne tile own) (hdetails : details = .new ∨ details = s.singleDetails seen tile ∧
        s.options.forbidHoles = true ∧ (s.tile tile).refine = .replace ∧ own ≠ [])
      (hrest : Selects s seen ancestorMeetsSse siblings rest) :
      Selects s seen ancestorMeetsSse (.cons tile children siblings)
        (Outcome.append ⟨.cons (tile, .culled) .nil .nil, details,
          s.fadedTile seen tile ++ s.fadedBelowRefined seen tile, own, own⟩ rest)
  | leaf {ancestorMeetsSse : Bool} {tile : TileId} {siblings : Forest TileId} {rest : Outcome}
      {own : List TileLoadTask} (hvisit : (s.cullResult tile).shouldVisit = true) (hown : AtMostOne tile own)
      (hasked : own ≠ []) (hrest : Selects s seen ancestorMeetsSse siblings rest) :
      Selects s seen ancestorMeetsSse (.cons tile .nil siblings)
        (Outcome.append ⟨.cons (tile, .rendered) .nil .nil, s.singleDetails seen tile, [], own, own⟩ rest)
  | inner {ancestorMeetsSse : Bool} {tile : TileId} {children siblings : Forest TileId} {rest : Outcome}
      {own : List TileLoadTask} (hvisit : (s.cullResult tile).shouldVisit = true)
      (hrender : Renders s ancestorMeetsSse tile) (hown : AtMostOne tile own)
      (hasked : ancestorMeetsSse = false → own ≠ [])
      (hstay : (s.tile tile).isRenderable = true ∨ (seen.state tile).getOriginalResult ≠ .refined)
      (hrest : Selects s seen ancestorMeetsSse siblings rest) :
      Selects s seen ancestorMeetsSse (.cons tile children siblings)
        (Outcome.append ⟨.cons (tile, .rendered) .nil .nil, s.singleDetails seen tile,
          s.fadedBelowRefined seen tile, own, own⟩ rest)
  | refined {ancestorMeetsSse childrenMeetSse : Bool} {tile : TileId} {children siblings : Forest TileId}
      {below rest : Outcome} {before after : List TileLoadTask} (hvisit : (s.cullResult tile).shouldVisit = true)
      (hrefine : Refines s seen ancestorMeetsSse tile childrenMeetSse) (hown : AtMostOne tile (before ++ after))
      (hasked : childrenMeetSse ≠ ancestorMeetsSse ∨ (s.tile tile).refine = .add → before ++ after ≠ [])
      (hnonempty : children ≠ .nil)
      (hchildren : Selects s seen childrenMeetSse children below)
      (hkeep : below.details.allAreRenderable = true ∨ below.details.anyWereRenderedLastFrame = true ∨
        (s.tile tile).isRenderable = false)
      (hrest : Selects s seen ancestorMeetsSse siblings rest) :
      Selects s seen ancestorMeetsSse (.cons tile children siblings)
        (Outcome.append ⟨.cons (tile, .refined) below.visited .nil, below.details,
          below.faded ++ (if (s.tile tile).refine = .add then [] else s.fadedTile seen tile),
          before ++ below.queued ++ after, before ++ below.requested ++ after⟩ rest)
  | kicked {ancestorMeetsSse childrenMeetSse restored : Bool} {tile : TileId} {children siblings : Forest TileId}
      {below rest : Outcome} {before after : List TileLoadTask} {details : TraversalDetails}
      (hvisit : (s.cullResult tile).shouldVisit = true)
      (hrefine : Refines s seen ancestorMeetsSse tile childrenMeetSse)
      (hown : AtMostOne tile (before ++ after))
      (hasked : childrenMeetSse ≠ ancestorMeetsSse ∨ (s.tile tile).refine = .add → before ++ after ≠ [])
      (hnonempty : children ≠ .nil)
      (hchildren : Selects s seen childrenMeetSse children below)
      (hreason : (below.details.allAreRenderable = false ∧ below.details.anyWereRenderedLastFrame = false) ∨
        s.kicksWhileFadingIn seen tile = true)
      (hkick : s.options.loadingDescendantLimit < below.details.notYetRenderableCount ∨
        (s.tile tile).isRenderable = true)
      (hdetails : details = ⟨(s.tile tile).isRenderable,
        seen.state tile = .rendered && (s.tile tile).isRenderable,
        if restored then (if (s.tile tile).isRenderable then 0 else 1) else below.details.notYetRenderableCount⟩)
      (hrest : Selects s seen ancestorMeetsSse siblings rest) :
      Selects s seen ancestorMeetsSse (.cons tile children siblings)
        (Outcome.append ⟨.cons (tile, .rendered) (kickAll below.visited) .nil, details,
          below.faded ++ s.fadedBelow seen tile,
          before ++ (if restored then [] else below.queued) ++ after, before ++ below.requested ++ after⟩ rest)

/-- An outcome of the first tile of a level, whatever its siblings are. -/
def SelectsTile (s : Scene) (seen : Seen) (ancestorMeetsSse : Bool) (tile : TileId) (children : Forest TileId)
    (own : Outcome) : Prop :=
  ∀ {siblings : Forest TileId} {rest : Outcome}, Selects s seen ancestorMeetsSse siblings rest →
    Selects s seen ancestorMeetsSse (.cons tile children siblings) (own.append rest)

end QtCesium.Selection
