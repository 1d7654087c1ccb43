import Mathlib.Data.List.Forall2
import Promptline.Proofs.Process.Table

set_option autoImplicit false

/-! # Places in the process table

A group hands out its places in increasing order, and a place that was handed out once is not handed
out again. So its members stand in the order of their places, all of them before the next one
(`ProcessGroup.Ordered`), and what is put in or taken out at one place is no matter to the others
(`handle?_push`, `handle?_remove`). The groups of a table stand in the order of their numbers.

The two halves of a packed number can be told apart again, so that it stands for one place of one
group (`ProcessId.ofPacked_packed`). -/

namespace Promptline

variable {α : Type}

/-! ## Packed numbers -/

namespace ProcessId

/-- The group counts in steps of 65536. -/
theorem toNat_packed (p : ProcessId) :
    p.packed.toNat = p.group.toNat * 65536 + p.index.toNat := by
  have hgroup := p.group.toNat_lt
  have hindex := p.index.toNat_lt
  rw [packed, UInt32.toNat_or, UInt32.toNat_shiftLeft, UInt16.toNat_toUInt32,
    UInt16.toNat_toUInt32]
  show p.group.toNat <<< 16 % 2 ^ 32 ||| p.index.toNat = _
  rw [Nat.mod_eq_of_lt (by rw [Nat.shiftLeft_eq]; omega), ← Nat.shiftLeft_add_eq_or_of_lt hindex,
    Nat.shiftLeft_eq]

theorem toNat_group_ofPacked (n : UInt32) : (ofPacked n).group.toNat = n.toNat / 65536 := by
  have hn := n.toNat_lt
  show (n >>> 16).toUInt16.toNat = _
  rw [UInt32.toNat_toUInt16, UInt32.toNat_shiftRight]
  show n.toNat >>> 16 % 65536 = _
  rw [Nat.shiftRight_eq_div_pow]
  omega

theorem toNat_index_ofPacked (n : UInt32) : (ofPacked n).index.toNat = n.toNat % 65536 := by
  show (n &&& 0xFFFF).toUInt16.toNat = _
  rw [UInt32.toNat_toUInt16, UInt32.toNat_and]
  show (n.toNat &&& (2 ^ 16 - 1)) % 65536 = _
  rw [Nat.and_two_pow_sub_one_eq_mod]
  omega

/-- **Packing loses nothing.** -/
@[simp]
theorem ofPacked_packed (p : ProcessId) : ofPacked p.packed = p := by
  have hindex := p.index.toNat_lt
  show (⟨(ofPacked p.packed).group, (ofPacked p.packed).index⟩ : ProcessId) = ⟨p.group, p.index⟩
  rw [ProcessId.mk.injEq]
  constructor
  · rw [← UInt16.toNat_inj, toNat_group_ofPacked, toNat_packed]
    omega
  · rw [← UInt16.toNat_inj, toNat_index_ofPacked, toNat_packed]
    omega

@[simp]
theorem packed_ofPacked (n : UInt32) : (ofPacked n).packed = n := by
  refine UInt32.toNat_inj.1 ?_
  rw [toNat_packed, toNat_group_ofPacked, toNat_index_ofPacked]
  omega

theorem packed_inj {p q : ProcessId} : p.packed = q.packed ↔ p = q := by
  refine ⟨fun h => ?_, congrArg packed⟩
  rw [← ofPacked_packed p, h, ofPacked_packed]

end ProcessId

/-! ## Members of a group -/

/-- In a list without repeated numbers, what is listed under a number is what is found there. -/
theorem mem_iff_lookup {β : Type} {entries : List (UInt16 × β)}
    (h : entries.Pairwise fun a b => a.1 ≠ b.1) {number : UInt16} {b : β} :
    (number, b) ∈ entries ↔ entries.lookup number = some b := by
  induction entries with
  | nil => simp
  | cons entry rest ih =>
      obtain ⟨first, b'⟩ := entry
      obtain ⟨hfirst, hrest⟩ := List.pairwise_cons.1 h
      rw [List.mem_cons, ih hrest, List.lookup_cons]
      by_cases heq : number = first
      · subst heq
        have hnone : rest.lookup number ≠ some b := fun hsome =>
          hfirst _ ((ih hrest).2 hsome) rfl
        simp [hnone, eq_comm]
      · rw [beq_eq_false_iff_ne.2 heq]
        simp [heq]

namespace ProcessGroup

/-- The members stand in the order of their places, the latest first, and before the place that
    comes next. -/
structure Ordered (g : ProcessGroup α) : Prop where
  room : g.issued ≤ ProcessError.limit
  sorted : g.members.Pairwise fun a b => b.1 < a.1
  issued : ∀ m ∈ g.members, m.1.toNat < g.issued

theorem ordered_empty : (empty : ProcessGroup α).Ordered :=
  ⟨Nat.zero_le _, .nil, nofun⟩

/-- The group with a handle at the next place. -/
def push (g : ProcessGroup α) (handle : α) : ProcessGroup α :=
  { issued := g.issued + 1, members := (UInt16.ofNat g.issued, handle) :: g.members }

section Ordered

variable {g : ProcessGroup α} (h : g.Ordered)
include h

theorem Ordered.distinct : g.members.Pairwise fun a b => a.1 ≠ b.1 :=
  h.sorted.imp fun hlt => (UInt16.ne_of_lt hlt).symm

theorem Ordered.mem_iff {index : UInt16} {handle : α} :
    (index, handle) ∈ g.members ↔ g.handle? index = some handle :=
  mem_iff_lookup h.distinct

/-- Nothing stands at the place that comes next, or behind it. -/
theorem Ordered.handle?_eq_none {index : UInt16} (hindex : g.issued ≤ index.toNat) :
    g.handle? index = none := by
  refine Option.eq_none_iff_forall_not_mem.2 fun handle hhandle => ?_
  have hless := h.issued _ (h.mem_iff.2 hhandle)
  exact absurd hindex (Nat.not_le_of_lt hless)

theorem Ordered.push (hroom : g.issued < ProcessError.limit) (handle : α) :
    (g.push handle).Ordered := by
  have hnext : (UInt16.ofNat g.issued).toNat = g.issued := UInt16.toNat_ofNat_of_lt' hroom
  refine ⟨hroom, List.pairwise_cons.2 ⟨fun m hm => ?_, h.sorted⟩, fun m hm => ?_⟩
  · rw [UInt16.lt_iff_toNat_lt, hnext]
    exact h.issued m hm
  · rcases List.mem_cons.1 hm with rfl | hm
    · show (UInt16.ofNat g.issued).toNat < g.issued + 1
      rw [hnext]
      exact Nat.lt_succ_self _
    · exact Nat.lt_succ_of_lt (h.issued m hm)

theorem Ordered.remove (index : UInt16) : (g.remove index).Ordered :=
  ⟨h.room, h.sorted.sublist List.filter_sublist,
    fun m hm => h.issued m (List.mem_filter.1 hm).1⟩

end Ordered

theorem handle?_push (g : ProcessGroup α) (handle : α) (index : UInt16) :
    (g.push handle).handle? index =
      if index = UInt16.ofNat g.issued then some handle else g.handle? index := by
  unfold handle? push
  rw [List.lookup_cons]
  by_cases hindex : index = UInt16.ofNat g.issued
  · simp [hindex]
  · rw [if_neg hindex, beq_eq_false_iff_ne.2 hindex]

theorem handle?_remove (g : ProcessGroup α) (index other : UInt16) :
    (g.remove index).handle? other = if other = index then none else g.handle? other := by
  unfold handle? remove
  by_cases hother : other = index
  · rw [if_pos hother, hother]
    exact ProcessTable.lookup_removed index g.members
  · rw [if_neg hother]
    exact ProcessTable.lookup_removed_of_ne hother g.members

/-! ## In the order of places -/

/-- The places at which there are handles, in increasing order. -/
def places (g : ProcessGroup α) : List UInt16 :=
  g.members.reverse.map (·.1)

section Places

variable {g : ProcessGroup α} (h : g.Ordered)
include h

theorem Ordered.sorted_places : g.places.Pairwise (· < ·) := by
  unfold places
  rw [List.pairwise_map, List.pairwise_reverse]
  exact h.sorted

theorem Ordered.mem_places {index : UInt16} :
    index ∈ g.places ↔ ∃ handle, g.handle? index = some handle := by
  unfold places
  rw [List.mem_map]
  constructor
  · rintro ⟨m, hm, rfl⟩
    exact ⟨m.2, h.mem_iff.1 (List.mem_reverse.1 hm)⟩
  · rintro ⟨handle, hhandle⟩
    exact ⟨(index, handle), List.mem_reverse.2 (h.mem_iff.2 hhandle), rfl⟩

theorem Ordered.mem_handles {handle : α} :
    handle ∈ g.handles ↔ ∃ index, g.handle? index = some handle := by
  unfold handles
  rw [List.mem_map]
  constructor
  · rintro ⟨m, hm, rfl⟩
    exact ⟨m.1, h.mem_iff.1 (List.mem_reverse.1 hm)⟩
  · rintro ⟨index, hhandle⟩
    exact ⟨(index, handle), List.mem_reverse.2 (h.mem_iff.2 hhandle), rfl⟩

/-- The handles of a group are listed in the order of their places. -/
theorem Ordered.forall₂_handles :
    List.Forall₂ (fun index handle => g.handle? index = some handle) g.places g.handles := by
  unfold places handles
  rw [List.forall₂_map_left_iff, List.forall₂_map_right_iff, List.forall₂_same]
  exact fun m hm => h.mem_iff.1 (List.mem_reverse.1 hm)

end Places

end ProcessGroup

/-! ## Groups of a table -/

namespace ProcessTable

/-- The groups stand in the order of their numbers, and the members of each in that of their
    places. -/
structure Ordered (t : ProcessTable α) : Prop where
  sorted : t.groups.Pairwise fun a b => a.1 < b.1
  group : ∀ {group g}, t.group? group = some g → g.Ordered

theorem ordered_empty : (empty : ProcessTable α).Ordered :=
  ⟨.nil, nofun⟩

/-- The handle at a place of a group. -/
def handle? (t : ProcessTable α) (p : ProcessId) : Option α :=
  (t.group? p.group).bind fun g => g.handle? p.index

/-- The table with a group in its place. -/
def withGroup (t : ProcessTable α) (group : UInt16) (g : ProcessGroup α) : ProcessTable α :=
  { t with groups := setGroup group g t.groups }

variable {t : ProcessTable α} {group : UInt16} {g : ProcessGroup α}

theorem mem_groupIds : group ∈ t.groupIds ↔ t.group? group ≠ none := by
  unfold groupIds group?
  constructor
  · intro hmem hnone
    obtain ⟨entry, hentry, rfl⟩ := List.mem_map.1 hmem
    have hother := List.lookup_eq_none_iff.1 hnone entry hentry
    simp at hother
  · intro hsome
    obtain ⟨g, hg⟩ := Option.ne_none_iff_exists'.1 hsome
    obtain ⟨before, later, hgroups, -⟩ := List.lookup_eq_some_iff.1 hg
    rw [hgroups, List.map_append]
    exact List.mem_append_right _ List.mem_cons_self

@[simp]
theorem group?_withGroup : (t.withGroup group g).group? group = some g :=
  lookup_setGroup group g t.groups

theorem group?_withGroup_of_ne {other : UInt16} (hother : other ≠ group) :
    (t.withGroup group g).group? other = t.group? other :=
  lookup_setGroup_of_ne hother g t.groups

theorem mem_setGroup {groups : List (UInt16 × ProcessGroup α)} {entry : UInt16 × ProcessGroup α}
    (h : entry ∈ setGroup group g groups) : entry = (group, g) ∨ entry ∈ groups := by
  induction groups with
  | nil => exact Or.inl (List.mem_singleton.1 h)
  | cons first rest ih =>
      rw [setGroup] at h
      split at h
      · exact List.mem_cons.1 h
      · split at h
        · rcases List.mem_cons.1 h with rfl | hrest
          · exact Or.inr List.mem_cons_self
          · exact (ih hrest).imp_right (List.mem_cons_of_mem _)
        · exact (List.mem_cons.1 h).imp_right (List.mem_cons_of_mem _)

theorem sorted_setGroup {groups : List (UInt16 × ProcessGroup α)}
    (h : groups.Pairwise fun a b => a.1 < b.1) :
    (setGroup group g groups).Pairwise fun a b => a.1 < b.1 := by
  induction groups with
  | nil => exact List.pairwise_singleton _ _
  | cons first rest ih =>
      obtain ⟨hfirst, hrest⟩ := List.pairwise_cons.1 h
      rw [setGroup]
      split
      · next hless =>
          refine List.pairwise_cons.2 ⟨fun entry hentry => ?_, h⟩
          rcases List.mem_cons.1 hentry with rfl | hentry
          · exact hless
          · exact UInt16.lt_trans hless (hfirst entry hentry)
      · split
        · next hless =>
            refine List.pairwise_cons.2 ⟨fun entry hentry => ?_, ih hrest⟩
            rcases mem_setGroup hentry with rfl | hentry
            · exact hless
            · exact hfirst entry hentry
        · next hless hless' =>
            have hsame : first.1 = group := UInt16.le_antisymm
              (UInt16.not_lt.1 hless) (UInt16.not_lt.1 hless')
            exact List.pairwise_cons.2 ⟨fun entry hentry => hsame ▸ hfirst entry hentry, hrest⟩

theorem Ordered.withGroup (h : t.Ordered) (hg : g.Ordered) : (t.withGroup group g).Ordered := by
  refine ⟨sorted_setGroup h.sorted, fun {other g'} hother => ?_⟩
  by_cases heq : other = group
  · subst heq
    rw [group?_withGroup] at hother
    exact Option.some.inj hother ▸ hg
  · rw [group?_withGroup_of_ne heq] at hother
    exact h.group hother

theorem Ordered.removeGroup (h : t.Ordered) (group : UInt16) : (t.removeGroup group).2.Ordered := by
  refine ⟨h.sorted.sublist List.filter_sublist, fun {other g'} hother => ?_⟩
  by_cases heq : other = group
  · subst heq
    rw [group?_removeGroup] at hother
    cases hother
  · rw [group?_removeGroup_of_ne t heq] at hother
    exact h.group hother

/-! ## Handles of a table -/

theorem handle?_withGroup (p : ProcessId) :
    (t.withGroup group g).handle? p =
      if p.group = group then g.handle? p.index else t.handle? p := by
  unfold handle?
  by_cases hgroup : p.group = group
  · rw [if_pos hgroup, hgroup, group?_withGroup, Option.bind_some]
  · rw [if_neg hgroup, group?_withGroup_of_ne hgroup]

theorem handle?_removeGroup (t : ProcessTable α) (group : UInt16) (p : ProcessId) :
    (t.removeGroup group).2.handle? p = if p.group = group then none else t.handle? p := by
  unfold handle?
  by_cases hgroup : p.group = group
  · rw [if_pos hgroup, hgroup, group?_removeGroup, Option.bind_none]
  · rw [if_neg hgroup, group?_removeGroup_of_ne t hgroup]

/-- What was handed out in a group so far; nothing, if there is no such group. -/
def groupD (t : ProcessTable α) (group : UInt16) : ProcessGroup α :=
  (t.group? group).getD .empty

theorem handle?_eq_groupD (t : ProcessTable α) (p : ProcessId) :
    t.handle? p = (t.groupD p.group).handle? p.index := by
  unfold handle? groupD
  cases t.group? p.group with
  | none => rfl
  | some g => rfl

theorem add_eq (t : ProcessTable α) (group : UInt16) (handle : α) :
    t.add group handle =
      if (t.groupD group).issued < ProcessError.limit then
        .ok (⟨group, UInt16.ofNat (t.groupD group).issued⟩,
          t.withGroup group ((t.groupD group).push handle))
      else .error (.groupFull group) :=
  rfl

theorem remove_eq (t : ProcessTable α) (p : ProcessId) :
    t.remove p = (t.handle? p).map fun handle =>
      (handle, t.withGroup p.group ((t.groupD p.group).remove p.index)) := by
  unfold remove handle? groupD
  cases t.group? p.group with
  | none => rfl
  | some g =>
      dsimp only [Option.bind_some, Option.getD_some]
      cases g.handle? p.index with
      | none => rfl
      | some handle => rfl

theorem Ordered.groupD (h : t.Ordered) (group : UInt16) :
    (t.groupD group).Ordered := by
  unfold ProcessTable.groupD
  cases hgroup : t.group? group with
  | none => exact ProcessGroup.ordered_empty
  | some g => exact h.group hgroup

/-- **A handle is put in** at a place where nothing stood. -/
theorem Ordered.handle?_push (h : t.Ordered) (hroom : (t.groupD group).issued < ProcessError.limit)
    {handle handle' : α} {p : ProcessId} :
    (t.withGroup group ((t.groupD group).push handle)).handle? p = some handle' ↔
      p = ⟨group, UInt16.ofNat (t.groupD group).issued⟩ ∧ handle = handle' ∨
        t.handle? p = some handle' := by
  obtain ⟨other, index⟩ := p
  rw [handle?_withGroup, ProcessGroup.handle?_push, ProcessId.mk.injEq]
  by_cases hother : other = group
  · subst hother
    rw [handle?_eq_groupD]
    by_cases hindex : index = UInt16.ofNat (t.groupD other).issued
    · have hnone : (t.groupD other).handle? index = none := by
        refine (h.groupD other).handle?_eq_none (Nat.le_of_eq ?_)
        rw [hindex, UInt16.toNat_ofNat_of_lt' hroom]
      rw [hnone]
      simp [hindex]
    · simp [hindex]
  · simp [hother]

/-- **A handle is taken out** at its place. -/
theorem handle?_taken {p q : ProcessId} :
    (t.withGroup p.group ((t.groupD p.group).remove p.index)).handle? q =
      if q = p then none else t.handle? q := by
  obtain ⟨group, index⟩ := p
  obtain ⟨other, index'⟩ := q
  rw [handle?_withGroup, ProcessGroup.handle?_remove]
  by_cases hother : other = group
  · subst hother
    simp [handle?_eq_groupD]
  · simp [hother]

end ProcessTable

end Promptline
