import Promptline.Process.Table

set_option autoImplicit false

/-! # Groups in the process table

What a group holds after a handle was put in, and after it was taken out as a whole. A group that
was filled from the start holds the handles that it was given, in that order, and has as many
places handed out (`Filled`). -/

namespace Promptline.ProcessTable

variable {α : Type} {t : ProcessTable α} {group : UInt16}

theorem lookup_setGroup (group : UInt16) (g : ProcessGroup α)
    (groups : List (UInt16 × ProcessGroup α)) :
    (setGroup group g groups).lookup group = some g := by
  induction groups with
  | nil => simp [setGroup]
  | cons entry rest ih =>
      obtain ⟨other, h⟩ := entry
      rw [setGroup]
      split
      · simp
      · split
        · next hless =>
            have hother : (group == other) = false := by
              rw [beq_eq_false_iff_ne]
              rintro rfl
              exact absurd hless (UInt16.lt_irrefl _)
            rw [List.lookup_cons, hother]
            exact ih
        · simp

theorem lookup_removed {β : Type} (number : UInt16) (entries : List (UInt16 × β)) :
    (entries.filter fun entry => entry.1 != number).lookup number = none := by
  rw [List.lookup_eq_none_iff]
  intro entry hentry
  rw [bne_comm]
  exact (List.mem_filter.1 hentry).2

theorem lookup_setGroup_of_ne {other : UInt16} (hother : other ≠ group) (g : ProcessGroup α)
    (groups : List (UInt16 × ProcessGroup α)) :
    (setGroup group g groups).lookup other = groups.lookup other := by
  have hgroup : (other == group) = false := beq_eq_false_iff_ne.2 hother
  induction groups with
  | nil =>
      rw [setGroup, List.lookup_cons, hgroup]
  | cons entry rest ih =>
      obtain ⟨first, h⟩ := entry
      rw [setGroup]
      split
      · rw [List.lookup_cons, hgroup]
      · split
        · rw [List.lookup_cons, List.lookup_cons, ih]
        · next hless hless' =>
            have hfirst : first = group := UInt16.le_antisymm
              (UInt16.not_lt.1 hless) (UInt16.not_lt.1 hless')
            rw [hfirst, List.lookup_cons, List.lookup_cons, hgroup]

theorem lookup_removed_of_ne {β : Type} {number other : UInt16} (hother : other ≠ number)
    (entries : List (UInt16 × β)) :
    (entries.filter fun entry => entry.1 != number).lookup other = entries.lookup other := by
  induction entries with
  | nil => rfl
  | cons entry rest ih =>
      obtain ⟨first, h⟩ := entry
      by_cases hfirst : first = number
      · have hnumber : (other == first) = false := beq_eq_false_iff_ne.2 (hfirst ▸ hother)
        rw [List.filter_cons_of_neg (by simp [hfirst]), ih, List.lookup_cons, hnumber]
      · rw [List.filter_cons_of_pos (by simp [hfirst]), List.lookup_cons, List.lookup_cons, ih]

/-- What is done to a group is no matter to the others. -/
theorem group?_add_of_ne {t' : ProcessTable α} {other : UInt16} {handle : α} {id : ProcessId}
    (h : t.add group handle = .ok (id, t')) (hother : other ≠ group) :
    t'.group? other = t.group? other := by
  unfold ProcessTable.add at h
  dsimp only at h
  split at h
  · obtain ⟨-, rfl⟩ := Prod.mk.inj (Except.ok.inj h)
    exact lookup_setGroup_of_ne hother _ t.groups
  · cases h

theorem group?_removeGroup_of_ne (t : ProcessTable α) {other : UInt16} (hother : other ≠ group) :
    (t.removeGroup group).2.group? other = t.group? other :=
  lookup_removed_of_ne hother t.groups

/-- A group that is taken out is gone. -/
theorem group?_removeGroup (t : ProcessTable α) (group : UInt16) :
    (t.removeGroup group).2.group? group = none :=
  lookup_removed group t.groups

/-- A group holds handles that were put in one after another, and nothing was taken out. Before the
    first one there is no group. -/
def Filled (t : ProcessTable α) (group : UInt16) (handles : List α) : Prop :=
  match t.group? group with
  | none => handles = []
  | some g => g.issued = handles.length ∧ g.handles = handles ∧ handles ≠ []

theorem filled_of_group?_eq {t' : ProcessTable α} {handles : List α}
    (heq : t'.group? group = t.group? group) (h : t.Filled group handles) :
    t'.Filled group handles := by
  unfold Filled
  rw [heq]
  exact h

theorem filled_nil (h : t.group? group = none) : t.Filled group [] := by
  unfold Filled
  rw [h]

/-- The handles of a group, if there is one. -/
theorem Filled.handles? {handles : List α} (h : t.Filled group handles) :
    t.handles? group = if handles = [] then none else some handles := by
  unfold Filled at h
  unfold ProcessTable.handles?
  split at h
  · next hnone => rw [hnone, if_pos h]; rfl
  · next g hsome =>
      obtain ⟨-, hhandles, hne⟩ := h
      rw [hsome, if_neg hne, Option.map_some, hhandles]

theorem Filled.getD_handles? {handles : List α} (h : t.Filled group handles) :
    (t.handles? group).getD [] = handles := by
  rw [h.handles?]
  split
  · next hnothing => exact hnothing.symm
  · rfl

/-- **A handle finds a place** while not all places are handed out, and stands behind the others. -/
theorem Filled.add {handles : List α} (h : t.Filled group handles)
    (hroom : handles.length < ProcessError.limit) (handle : α) :
    ∃ id t', t.add group handle = .ok (id, t') ∧ t'.Filled group (handles ++ [handle]) := by
  have hissued : ((t.group? group).getD .empty).issued = handles.length ∧
      ((t.group? group).getD .empty).handles = handles := by
    unfold Filled at h
    split at h
    · next hnone =>
        rw [hnone, h]
        exact ⟨rfl, rfl⟩
    · next g hsome =>
        rw [hsome]
        exact ⟨h.1, h.2.1⟩
  obtain ⟨hissued, hhandles⟩ := hissued
  unfold ProcessTable.add
  simp only [hissued, if_pos hroom]
  refine ⟨_, _, rfl, ?_⟩
  unfold Filled
  rw [group?, lookup_setGroup]
  refine ⟨?_, ?_, List.append_ne_nil_of_right_ne_nil _ (List.cons_ne_nil _ _)⟩
  · rw [List.length_append, List.length_singleton]
  · rw [ProcessGroup.handles, List.reverse_cons, List.map_append, ← ProcessGroup.handles, hhandles]
    rfl

end Promptline.ProcessTable
