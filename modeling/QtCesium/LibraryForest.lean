import Mathlib.Data.List.Nodup
import Mathlib.Tactic.Common

/-! Ordered forests, in first-child and next-sibling form, so that a level of a tree and a whole tree are
one type with one induction. -/

/-- The first tree of a level, its label and its children, and the trees after it. -/
inductive Forest (α : Type) where
  | nil
  | cons (label : α) (children siblings : Forest α)
  deriving DecidableEq, Repr

namespace Forest

variable {α β : Type}

def size : Forest α → Nat
  | nil => 0
  | cons _ children siblings => 1 + children.size + siblings.size

/-- The labels of the top level. -/
def roots : Forest α → List α
  | nil => []
  | cons label _ siblings => label :: siblings.roots

/-- All labels, each before those below it. -/
def preorder : Forest α → List α
  | nil => []
  | cons label children siblings => label :: (children.preorder ++ siblings.preorder)

def map (f : α → β) : Forest α → Forest β
  | nil => nil
  | cons label children siblings => cons (f label) (children.map f) (siblings.map f)

/-- One level after another. -/
def append : Forest α → Forest α → Forest α
  | nil, later => later
  | cons label children siblings, later => cons label children (siblings.append later)

@[simp] theorem size_nil : (nil : Forest α).size = 0 := rfl

@[simp] theorem size_cons (label : α) (children siblings : Forest α) :
    (cons label children siblings).size = 1 + children.size + siblings.size := rfl

@[simp] theorem roots_nil : (nil : Forest α).roots = [] := rfl

@[simp] theorem roots_cons (label : α) (children siblings : Forest α) :
    (cons label children siblings).roots = label :: siblings.roots := rfl

@[simp] theorem preorder_nil : (nil : Forest α).preorder = [] := rfl

@[simp] theorem preorder_cons (label : α) (children siblings : Forest α) :
    (cons label children siblings).preorder = label :: (children.preorder ++ siblings.preorder) := rfl

@[simp] theorem map_nil (f : α → β) : (nil : Forest α).map f = nil := rfl

@[simp] theorem map_cons (f : α → β) (label : α) (children siblings : Forest α) :
    (cons label children siblings).map f = cons (f label) (children.map f) (siblings.map f) := rfl

@[simp] theorem nil_append (later : Forest α) : nil.append later = later := rfl

@[simp] theorem cons_append (label : α) (children siblings later : Forest α) :
    (cons label children siblings).append later = cons label children (siblings.append later) := rfl

@[simp] theorem length_preorder (forest : Forest α) : forest.preorder.length = forest.size := by
  induction forest with
  | nil => rfl
  | cons label children siblings ihChildren ihSiblings =>
      simp only [preorder_cons, List.length_cons, List.length_append, size_cons, ihChildren, ihSiblings]
      omega

@[simp] theorem size_map (f : α → β) (forest : Forest α) : (forest.map f).size = forest.size := by
  induction forest with
  | nil => rfl
  | cons label children siblings ihChildren ihSiblings =>
      rw [map_cons, size_cons, size_cons, ihChildren, ihSiblings]

@[simp] theorem preorder_map (f : α → β) (forest : Forest α) :
    (forest.map f).preorder = forest.preorder.map f := by
  induction forest with
  | nil => rfl
  | cons label children siblings ihChildren ihSiblings =>
      simp only [map_cons, preorder_cons, List.map_cons, List.map_append, ihChildren, ihSiblings]

@[simp] theorem append_nil (forest : Forest α) : forest.append nil = forest := by
  induction forest with
  | nil => rfl
  | cons label children siblings _ ihSiblings => rw [cons_append, ihSiblings]

@[simp] theorem size_append (first second : Forest α) :
    (first.append second).size = first.size + second.size := by
  induction first with
  | nil => simp
  | cons label children siblings _ ihSiblings =>
      rw [cons_append, size_cons, size_cons, ihSiblings]
      omega

@[simp] theorem preorder_append (first second : Forest α) :
    (first.append second).preorder = first.preorder ++ second.preorder := by
  induction first with
  | nil => rfl
  | cons label children siblings _ ihSiblings =>
      simp only [cons_append, preorder_cons, ihSiblings, List.cons_append, List.append_assoc]

theorem append_assoc (first second third : Forest α) :
    (first.append second).append third = first.append (second.append third) := by
  induction first with
  | nil => rfl
  | cons label children siblings _ ihSiblings => simp only [cons_append, ihSiblings]

theorem mem_preorder_of_mem_roots {label : α} {forest : Forest α} (h : label ∈ forest.roots) :
    label ∈ forest.preorder := by
  induction forest with
  | nil => exact h
  | cons first children siblings _ ihSiblings =>
      rcases List.mem_cons.mp h with heq | hlater
      · exact List.mem_cons.mpr (.inl heq)
      · exact List.mem_cons_of_mem _ (List.mem_append_right _ (ihSiblings hlater))

/-- A node of the forest: its label and the level below it. -/
inductive Node (label : α) (below : Forest α) : Forest α → Prop where
  | here (siblings : Forest α) : Node label below (cons label below siblings)
  | down {first : α} {children : Forest α} (siblings : Forest α) (h : Node label below children) :
      Node label below (cons first children siblings)
  | next {first : α} (children : Forest α) {siblings : Forest α} (h : Node label below siblings) :
      Node label below (cons first children siblings)

theorem Node.mem_preorder {label : α} {below forest : Forest α} (h : Node label below forest) :
    label ∈ forest.preorder := by
  induction h with
  | here siblings => exact List.mem_cons_self
  | down siblings _ ih => exact List.mem_cons_of_mem _ (List.mem_append_left _ ih)
  | next children _ ih => exact List.mem_cons_of_mem _ (List.mem_append_right _ ih)

theorem Node.below_subset {label : α} {below forest : Forest α} (h : Node label below forest) :
    below.preorder ⊆ forest.preorder := by
  induction h with
  | here siblings => exact fun x hx => List.mem_cons_of_mem _ (List.mem_append_left _ hx)
  | down siblings _ ih => exact fun x hx => List.mem_cons_of_mem _ (List.mem_append_left _ (ih hx))
  | next children _ ih => exact fun x hx => List.mem_cons_of_mem _ (List.mem_append_right _ (ih hx))

theorem exists_node_of_mem {label : α} {forest : Forest α} (h : label ∈ forest.preorder) :
    ∃ below, Node label below forest := by
  induction forest with
  | nil => cases h
  | cons first children siblings ihChildren ihSiblings =>
      rcases List.mem_cons.mp h with rfl | hrest
      · exact ⟨children, .here siblings⟩
      · rcases List.mem_append.mp hrest with hbelow | hlater
        · obtain ⟨below, hnode⟩ := ihChildren hbelow
          exact ⟨below, .down siblings hnode⟩
        · obtain ⟨below, hnode⟩ := ihSiblings hlater
          exact ⟨below, .next children hnode⟩

/-- The labels from a root down to a leaf. -/
inductive LeafPath : List α → Forest α → Prop where
  | leaf (label : α) (siblings : Forest α) : LeafPath [label] (cons label nil siblings)
  | down (label : α) {path : List α} {children : Forest α} (siblings : Forest α) (h : LeafPath path children) :
      LeafPath (label :: path) (cons label children siblings)
  | next (label : α) {path : List α} (children : Forest α) {siblings : Forest α} (h : LeafPath path siblings) :
      LeafPath path (cons label children siblings)

theorem LeafPath.subset {path : List α} {forest : Forest α} (h : LeafPath path forest) : path ⊆ forest.preorder := by
  induction h with
  | leaf label siblings => exact List.cons_subset.mpr ⟨List.mem_cons_self, List.nil_subset _⟩
  | down label siblings _ ih =>
      exact List.cons_subset.mpr ⟨List.mem_cons_self,
        fun x hx => List.mem_cons_of_mem _ (List.mem_append_left _ (ih hx))⟩
  | next label children _ ih => exact fun x hx => List.mem_cons_of_mem _ (List.mem_append_right _ (ih hx))

theorem not_leafPath_nil {path : List α} : ¬LeafPath path nil := by
  intro h
  cases h

/-- A part of a forest that has, below each of its nodes, all children or none. -/
inductive Prunes : Forest α → Forest α → Prop where
  | nil : Prunes nil nil
  | skip (label : α) {rest siblings : Forest α} (children : Forest α) (hrest : Prunes rest siblings) :
      Prunes (cons label nil rest) (cons label children siblings)
  | keep (label : α) {below children rest siblings : Forest α} (hbelow : Prunes below children)
      (hrest : Prunes rest siblings) : Prunes (cons label below rest) (cons label children siblings)

theorem Prunes.sublist {part forest : Forest α} (h : Prunes part forest) :
    part.preorder.Sublist forest.preorder := by
  induction h with
  | nil => exact List.Sublist.refl _
  | skip label children _ ih =>
      rw [preorder_cons, preorder_cons, preorder_nil, List.nil_append]
      exact (ih.trans (List.sublist_append_right _ _)).cons_cons label
  | keep label _ _ ihBelow ihRest =>
      rw [preorder_cons, preorder_cons]
      exact (ihBelow.append ihRest).cons_cons label

theorem Prunes.nodup {part forest : Forest α} (h : Prunes part forest) (hnodup : forest.preorder.Nodup) :
    part.preorder.Nodup := h.sublist.nodup hnodup

section Lookup

variable {κ : Type} (key : α → κ)

/-- All keys of the forest, in order. -/
def keys (forest : Forest α) : List κ := forest.preorder.map key

@[simp] theorem keys_nil : keys key nil = [] := rfl

@[simp] theorem keys_cons (label : α) (children siblings : Forest α) :
    keys key (cons label children siblings) = key label :: (keys key children ++ keys key siblings) := by
  simp only [keys, preorder_cons, List.map_cons, List.map_append]

variable [DecidableEq κ]

/-- The first node with a key: its label and the level below it. -/
def find (k : κ) : Forest α → Option (α × Forest α)
  | nil => none
  | cons label children siblings =>
      if key label = k then some (label, children) else (children.find k).or (siblings.find k)

theorem find_eq_none {k : κ} {forest : Forest α} (h : k ∉ keys key forest) : forest.find key k = none := by
  induction forest with
  | nil => rfl
  | cons label children siblings ihChildren ihSiblings =>
      simp only [keys_cons, List.mem_cons, List.mem_append, not_or] at h
      obtain ⟨hne, hbelow, hlater⟩ := h
      rw [find, if_neg (Ne.symm hne), ihChildren hbelow, ihSiblings hlater]
      rfl

/-- Where keys are distinct, every node is the one its key finds. -/
theorem Node.find_eq {label : α} {below forest : Forest α} (h : Node label below forest)
    (hnodup : (keys key forest).Nodup) : forest.find key (key label) = some (label, below) := by
  induction h with
  | here siblings => rw [find, if_pos rfl]
  | @down first children siblings hnode ih =>
      rw [keys_cons, List.nodup_cons, List.nodup_append] at hnodup
      obtain ⟨hfirst, hchildren, _, _⟩ := hnodup
      have hmem : key label ∈ keys key children := List.mem_map_of_mem hnode.mem_preorder
      have hne : key first ≠ key label := by
        intro heq
        apply hfirst
        rw [heq]
        exact List.mem_append_left _ hmem
      rw [find, if_neg hne, ih hchildren]
      rfl
  | @next first children siblings hnode ih =>
      rw [keys_cons, List.nodup_cons, List.nodup_append] at hnodup
      obtain ⟨hfirst, _, hsiblings, hdisjoint⟩ := hnodup
      have hmem : key label ∈ keys key siblings := List.mem_map_of_mem hnode.mem_preorder
      have hne : key first ≠ key label := by
        intro heq
        apply hfirst
        rw [heq]
        exact List.mem_append_right _ hmem
      have hnone : children.find key (key label) = none :=
        find_eq_none key fun hbelow => hdisjoint _ hbelow _ hmem rfl
      rw [find, if_neg hne, hnone, ih hsiblings]
      rfl

end Lookup

end Forest
