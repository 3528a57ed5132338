import Mathlib.Data.List.DropRight

/-! Trimming a text and splitting it at its first separator, as relations between the text and its
parts and as positions found by a search from either end. -/

namespace Text

variable {α : Type} {blank : α → Bool}

/-- `core` is `text` without the blanks at its two ends. -/
structure Trims (blank : α → Bool) (text core : List α) : Prop where
  split : ∃ before after, text = before ++ core ++ after ∧
    (∀ x ∈ before, blank x = true) ∧ ∀ x ∈ after, blank x = true
  head : ∀ x ∈ core.head?, blank x = false
  last : ∀ x ∈ core.getLast?, blank x = false

/-- The blanks of the front go first, then those of the back. -/
def trim (blank : α → Bool) (text : List α) : List α := (text.dropWhile blank).rdropWhile blank

theorem trims_trim (text : List α) : Trims blank text (trim blank text) := by
  have hfront := List.takeWhile_append_dropWhile (p := blank) (l := text)
  have hback := List.rdropWhile_append_rtakeWhile (p := blank) (l := text.dropWhile blank)
  refine ⟨⟨text.takeWhile blank, (text.dropWhile blank).rtakeWhile blank, ?_, ?_, ?_⟩, ?_, ?_⟩
  · rw [trim, List.append_assoc, hback, hfront]
  · exact fun x hx => List.mem_takeWhile_imp hx
  · exact fun x hx => List.mem_rtakeWhile_imp hx
  · intro x hx
    obtain ⟨rest, hrest⟩ : trim blank text <+: text.dropWhile blank := List.rdropWhile_prefix blank _
    have hne : trim blank text ≠ [] := by
      rintro h
      rw [h] at hx
      cases hx
    have hhead : (text.dropWhile blank).head? = some x := by
      rw [← hrest, List.head?_append_of_ne_nil _ hne]
      exact hx
    have hnot := List.head?_dropWhile_not blank text
    rw [hhead] at hnot
    simpa using hnot
  · intro x hx
    have hne : trim blank text ≠ [] := by
      rintro h
      rw [h] at hx
      cases hx
    have hnot := List.rdropWhile_last_not blank (text.dropWhile blank) hne
    rw [List.getLast?_eq_some_getLast hne] at hx
    cases hx
    exact Bool.of_not_eq_true hnot

theorem trim_of_all_blank {text : List α} (h : ∀ x ∈ text, blank x = true) : trim blank text = [] := by
  rw [trim, List.dropWhile_eq_nil_iff.mpr h, List.rdropWhile_nil]

theorem dropWhile_of_head {core : List α} (h : ∀ x ∈ core.head?, blank x = false) (hne : core ≠ [])
    (after : List α) : (core ++ after).dropWhile blank = core ++ after := by
  cases core with
  | nil => exact absurd rfl hne
  | cons x rest =>
      rw [List.cons_append, List.dropWhile_cons_of_neg]
      simp [h x rfl]

theorem rdropWhile_of_last {core : List α} (h : ∀ x ∈ core.getLast?, blank x = false)
    {after : List α} (hafter : ∀ x ∈ after, blank x = true) :
    (core ++ after).rdropWhile blank = core := by
  induction after using List.reverseRecOn with
  | nil =>
      rw [List.append_nil, List.rdropWhile_eq_self_iff]
      intro hne
      simp [h _ (List.getLast?_eq_some_getLast hne)]
  | append_singleton after x ih =>
      rw [← List.append_assoc, List.rdropWhile_concat_pos _ _ _ (hafter x (by simp))]
      exact ih fun y hy => hafter y (by simp [hy])

/-- Trimming a text has one result. -/
theorem Trims.eq_trim {text core : List α} (h : Trims blank text core) : core = trim blank text := by
  obtain ⟨⟨before, after, rfl, hbefore, hafter⟩, hhead, hlast⟩ := h
  rcases eq_or_ne core [] with rfl | hne
  · rw [trim_of_all_blank]
    intro x hx
    rcases List.mem_append.mp hx with hx | hx
    · exact hbefore x (by simpa using hx)
    · exact hafter x hx
  · rw [trim, List.append_assoc, List.dropWhile_append_of_pos hbefore, dropWhile_of_head hhead hne,
      rdropWhile_of_last hlast hafter]

theorem trims_iff {text core : List α} : Trims blank text core ↔ core = trim blank text :=
  ⟨Trims.eq_trim, fun h => h ▸ trims_trim text⟩

theorem Trims.eq {text left right : List α} (hleft : Trims blank text left)
    (hright : Trims blank text right) : left = right := hleft.eq_trim.trans hright.eq_trim.symm

/-- Dropping only the blanks in front. -/
theorem Trims.front {text core : List α} (h : Trims blank text core) :
    ∃ before front, text = before ++ front ∧ (∀ x ∈ before, blank x = true) ∧
      Trims blank front core ∧ front.head? = core.head? := by
  obtain ⟨⟨before, after, rfl, hbefore, hafter⟩, hhead, hlast⟩ := h
  rcases eq_or_ne core [] with rfl | hne
  · refine ⟨before ++ [] ++ after, [], by simp, ?_, ⟨⟨[], [], rfl, by simp, by simp⟩, hhead, hlast⟩, rfl⟩
    intro x hx
    rw [List.append_nil, List.mem_append] at hx
    exact hx.elim (hbefore x) (hafter x)
  · exact ⟨before, core ++ after, List.append_assoc .., hbefore,
      ⟨⟨[], after, rfl, by simp, hafter⟩, hhead, hlast⟩, List.head?_append_of_ne_nil _ hne⟩

/-- Dropping only the blanks at the back. -/
theorem Trims.back {text core : List α} (h : Trims blank text core) :
    ∃ back after, text = back ++ after ∧ (∀ x ∈ after, blank x = true) ∧
      Trims blank back core ∧ back.getLast? = core.getLast? := by
  obtain ⟨⟨before, after, rfl, hbefore, hafter⟩, hhead, hlast⟩ := h
  rcases eq_or_ne core [] with rfl | hne
  · refine ⟨[], before ++ [] ++ after, by simp, ?_, ⟨⟨[], [], rfl, by simp, by simp⟩, hhead, hlast⟩, rfl⟩
    intro x hx
    rw [List.append_nil, List.mem_append] at hx
    exact hx.elim (hbefore x) (hafter x)
  · exact ⟨before ++ core, after, rfl, hafter,
      ⟨⟨before, [], by simp, hbefore, by simp⟩, hhead, hlast⟩, List.getLast?_append_of_ne_nil _ hne⟩

/-! ### Positions -/

theorem findIdx_of_forall {p : α → Bool} {text : List α} (h : ∀ x ∈ text, p x = false) :
    text.findIdx p = text.length :=
  List.findIdx_eq_length.mpr h

/-- A search that skips `before` and stops at once after it. -/
theorem findIdx_append_of_head {p : α → Bool} {before core : List α}
    (hbefore : ∀ x ∈ before, p x = false) (hcore : ∀ x ∈ core.head?, p x = true) (hne : core ≠ []) :
    (before ++ core).findIdx p = before.length := by
  cases core with
  | nil => exact absurd rfl hne
  | cons x rest =>
      induction before with
      | nil => simp [List.findIdx_cons, hcore x rfl]
      | cons y before ih =>
          rw [List.cons_append, List.findIdx_cons, hbefore y (by simp)]
          simp [ih fun z hz => hbefore z (by simp [hz])]

/-- Trimming by the positions of the first and the last text that is not blank. -/
theorem take_drop_findIdx (text : List α) :
    let first := text.findIdx fun x => !blank x
    let last := text.length - text.reverse.findIdx fun x => !blank x
    (if first ≥ last then [] else (text.take last).drop first) = trim blank text := by
  obtain ⟨⟨before, after, htext, hbefore, hafter⟩, hhead, hlast⟩ :
    Trims blank text (trim blank text) := trims_trim text
  generalize trim blank text = core at *
  rcases eq_or_ne core [] with rfl | hne
  · have hall : ∀ x ∈ text.reverse, (!blank x) = false := by
      intro x hx
      rw [List.mem_reverse, htext, List.append_nil, List.mem_append] at hx
      rcases hx with hx | hx
      · simp [hbefore x hx]
      · simp [hafter x hx]
    rw [findIdx_of_forall hall]
    simp
  · have hfirst : (text.findIdx fun x => !blank x) = before.length := by
      rw [htext, List.append_assoc]
      refine findIdx_append_of_head (fun x hx => by simp [hbefore x hx]) (fun x hx => ?_) (by simp [hne])
      rw [List.head?_append_of_ne_nil _ hne] at hx
      simp [hhead x hx]
    have hback : (text.reverse.findIdx fun x => !blank x) = after.length := by
      rw [htext, List.reverse_append, ← List.length_reverse]
      refine findIdx_append_of_head (fun x hx => ?_) (fun x hx => ?_) (by simp [hne])
      · simp [hafter x (List.mem_reverse.mp hx)]
      · rw [List.reverse_append, List.head?_append_of_ne_nil _ (by simpa using hne),
          List.head?_reverse] at hx
        simp [hlast x hx]
    have hlength : 0 < core.length := List.length_pos_of_ne_nil hne
    have htotal : text.length = before.length + core.length + after.length := by
      simp [htext, Nat.add_assoc]
    have hend : before.length + core.length + after.length - after.length =
        (before ++ core).length := by simp
    simp only [hfirst, hback]
    rw [if_neg (by omega), htotal, hend, htext, List.take_left, List.drop_left]

/-! ### The first separator -/

/-- `text` is `before`, the separator, `after`, and the separator is not in `before`. -/
def SplitsAt (separator : α) (text before after : List α) : Prop :=
  text = before ++ separator :: after ∧ separator ∉ before

theorem SplitsAt.eq {separator : α} {text before before' after after' : List α}
    (h : SplitsAt separator text before after) (h' : SplitsAt separator text before' after') :
    before = before' ∧ after = after' := by
  obtain ⟨rfl, hnot⟩ := h
  obtain ⟨heq, hnot'⟩ := h'
  induction before generalizing before' with
  | nil =>
      cases before' with
      | nil => simpa using heq
      | cons x before' =>
          obtain ⟨rfl, -⟩ := List.cons.inj heq
          simp at hnot'
  | cons x before ih =>
      cases before' with
      | nil =>
          obtain ⟨rfl, -⟩ := List.cons.inj heq
          simp at hnot
      | cons y before' =>
          obtain ⟨rfl, htail⟩ := List.cons.inj heq
          obtain ⟨rfl, rfl⟩ := ih (fun h => hnot (by simp [h])) htail (fun h => hnot' (by simp [h]))
          exact ⟨rfl, rfl⟩

variable [DecidableEq α]

/-- The search for the separator fails exactly when it is not in the text. -/
theorem findIdx?_eq_none_iff {separator : α} {text : List α} :
    text.findIdx? (· == separator) = none ↔ separator ∉ text := by
  rw [List.findIdx?_eq_none_iff]
  refine ⟨fun h hmem => by simpa using h separator hmem, fun h x hx => ?_⟩
  simpa using fun heq : x = separator => h (heq ▸ hx)

/-- The position of the separator cuts the text at it. -/
theorem SplitsAt.of_findIdx? {separator : α} {text : List α} {position : Nat}
    (h : text.findIdx? (· == separator) = some position) :
    SplitsAt separator text (text.take position) (text.drop (position + 1)) := by
  obtain ⟨hlt, hat, hbefore⟩ := List.findIdx?_eq_some_iff_getElem.mp h
  have heq : text[position] = separator := by simpa using hat
  refine ⟨?_, fun hmem => ?_⟩
  · rw [← heq, ← List.drop_eq_getElem_cons hlt, List.take_append_drop]
  · obtain ⟨i, hi, hget⟩ := List.mem_iff_getElem.mp hmem
    rw [List.length_take] at hi
    rw [List.getElem_take] at hget
    have := hbefore i (by omega)
    simp [hget] at this

end Text
