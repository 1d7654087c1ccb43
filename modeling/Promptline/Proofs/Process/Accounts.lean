import Mathlib.Data.List.Induction
import Promptline.Proofs.Process.Calls

set_option autoImplicit false

/-! # Accounts of the process table

What the table answers follows from what it was asked and answered before: how many groups were
handed out, which numbers a group has handed out since it was last removed (`handedOut`), and which
handles were put in and not taken out again (`Holds`). So numbers are handed out in order and never
twice, and what is taken out under a number is what was put in under it (`answers_due`). -/

namespace Promptline.ProcessTable

variable {α : Type}

/-! ## What an account says -/

/-- The group numbers that were handed out, in order. -/
def groupsIssued (account : Account α) : List UInt16 :=
  account.filterMap fun
    | (.newGroup, .newGroup (.ok group)) => some group
    | _ => none

/-- What a call makes of the numbers that a group has handed out. -/
def handOut (group : UInt16) (ids : List UInt32) : Call α × Reply α → List UInt32
  | (.add other _, .add (.ok id)) => if other = group then ids ++ [id] else ids
  | (.removeGroup other, _) => if other = group then [] else ids
  | _ => ids

/-- The numbers that a group has handed out since it was last removed, in order. -/
def handedOut (group : UInt16) (account : Account α) : List UInt32 :=
  account.foldl (handOut group) []

/-- A handle was put in under a number; since then it was not taken out, and neither was its
    group. -/
def Holds (account : Account α) (id : UInt32) (handle : α) : Prop :=
  ∃ earlier later,
    account = earlier ++ (.add (ProcessId.ofPacked id).group handle, .add (.ok id)) :: later ∧
      ∀ entry ∈ later, entry.1 ≠ .remove id ∧ entry.1 ≠ .removeGroup (ProcessId.ofPacked id).group

/-- The numbers under which a group holds handles, in increasing order. -/
def Members (account : Account α) (group : UInt16) (ids : List UInt32) : Prop :=
  ids.Pairwise (· < ·) ∧
    ∀ id, id ∈ ids ↔ (ProcessId.ofPacked id).group = group ∧ ∃ handle, Holds account id handle

/-- What is to be answered about the members of a group: nothing, unless the group has handed out a
    number since it was last removed. -/
def DueMembers {β : Type} (account : Account α) (group : UInt16) (fits : List UInt32 → β → Prop) :
    Option β → Prop
  | none => handedOut group account = []
  | some answer => handedOut group account ≠ [] ∧ ∃ ids, Members account group ids ∧ fits ids answer

/-- What is to be answered to a call, after an account. -/
def Due (account : Account α) : Call α → Reply α → Prop
  | .newGroup, .newGroup (.ok group) =>
    (groupsIssued account).length < ProcessError.limit ∧
      group.toNat = (groupsIssued account).length
  | .newGroup, .newGroup (.error e) =>
    ProcessError.limit ≤ (groupsIssued account).length ∧ e = .groupIdsExhausted
  | .add group _, .add (.ok id) =>
    (handedOut group account).length < ProcessError.limit ∧
      id.toNat = group.toNat * 65536 + (handedOut group account).length ∧
      (ProcessId.ofPacked id).group = group ∧
      (ProcessId.ofPacked id).index.toNat = (handedOut group account).length
  | .add group _, .add (.error e) =>
    ProcessError.limit ≤ (handedOut group account).length ∧ e = .groupFull group
  | .remove id, .handle answer => ∀ handle, answer = some handle ↔ Holds account id handle
  | .removeGroup group, .size answer =>
    DueMembers account group (fun ids n => n = ids.length) answer
  | .groupSize group, .size answer =>
    DueMembers account group (fun ids n => n = ids.length) answer
  | .handles group, .handles answer =>
    DueMembers account group (List.Forall₂ (Holds account)) answer
  | .groupIds, .groups answer =>
    answer.Pairwise (· < ·) ∧ ∀ group, group ∈ answer ↔ handedOut group account ≠ []
  | _, _ => False

/-! ## One more call in an account -/

section Append

variable {account : Account α} {entry : Call α × Reply α}

theorem groupsIssued_append :
    groupsIssued (account ++ [entry]) = groupsIssued account ++ groupsIssued [entry] :=
  List.filterMap_append

theorem handedOut_append (group : UInt16) :
    handedOut group (account ++ [entry]) = handOut group (handedOut group account) entry :=
  List.foldl_append

theorem holds_append {id : UInt32} {handle : α} :
    Holds (account ++ [entry]) id handle ↔
      entry = (.add (ProcessId.ofPacked id).group handle, .add (.ok id)) ∨
        Holds account id handle ∧ entry.1 ≠ .remove id ∧
          entry.1 ≠ .removeGroup (ProcessId.ofPacked id).group := by
  constructor
  · rintro ⟨earlier, later, haccount, hlater⟩
    rcases List.eq_nil_or_concat later with rfl | ⟨later', last, rfl⟩
    · exact Or.inl (List.singleton_inj.1 (List.append_inj' haccount rfl).2)
    · rw [List.concat_eq_append] at haccount hlater
      have hsplit : account ++ [entry] = (earlier ++ (.add (ProcessId.ofPacked id).group handle,
          .add (.ok id)) :: later') ++ [last] := by simpa using haccount
      obtain ⟨hearlier, hlast⟩ := List.append_inj' hsplit rfl
      obtain rfl := List.singleton_inj.1 hlast
      refine Or.inr ⟨⟨earlier, later', hearlier, fun e he => ?_⟩, ?_⟩
      · exact hlater e (List.mem_append_left _ he)
      · exact hlater entry (List.mem_append_right _ List.mem_cons_self)
  · rintro (rfl | ⟨⟨earlier, later, rfl, hlater⟩, hentry⟩)
    · exact ⟨account, [], rfl, nofun⟩
    · refine ⟨earlier, later ++ [entry], by simp, fun e he => ?_⟩
      rcases List.mem_append.1 he with he | he
      · exact hlater e he
      · exact List.mem_singleton.1 he ▸ hentry

end Append

/-! ## Accounts and tables -/

/-- A table is what an account says that it must be. -/
structure Agrees (account : Account α) (t : ProcessTable α) : Prop where
  ordered : t.Ordered
  issuedGroups : t.issuedGroups = (groupsIssued account).length
  gone : ∀ group, t.group? group = none ↔ handedOut group account = []
  issued : ∀ group, (t.groupD group).issued = (handedOut group account).length
  holds : ∀ p handle, t.handle? p = some handle ↔ Holds account p.packed handle

theorem agrees_empty : Agrees [] (empty : ProcessTable α) := by
  refine ⟨ordered_empty, rfl, fun group => ?_, fun group => rfl, fun p handle => ?_⟩
  · exact iff_of_true rfl rfl
  · refine iff_of_false nofun ?_
    rintro ⟨earlier, later, haccount, -⟩
    cases earlier <;> cases haccount

section Answers

variable {account : Account α} {t : ProcessTable α} (h : Agrees account t)
include h

/-! ### What is answered -/

theorem Agrees.due_newGroup : Due account .newGroup (t.answer .newGroup).1 := by
  unfold answer newGroup
  by_cases hroom : t.issuedGroups < ProcessError.limit
  · rw [if_pos hroom]
    refine ⟨h.issuedGroups ▸ hroom, ?_⟩
    rw [← h.issuedGroups]
    exact UInt16.toNat_ofNat_of_lt' hroom
  · rw [if_neg hroom]
    exact ⟨h.issuedGroups ▸ Nat.le_of_not_lt hroom, rfl⟩

theorem Agrees.due_add (group : UInt16) (handle : α) :
    Due account (.add group handle) (t.answer (.add group handle)).1 := by
  unfold answer
  dsimp only
  rw [add_eq]
  by_cases hroom : (t.groupD group).issued < ProcessError.limit
  · have hindex : (UInt16.ofNat (t.groupD group).issued).toNat =
        (handedOut group account).length := by
      rw [← h.issued]
      exact UInt16.toNat_ofNat_of_lt' hroom
    rw [if_pos hroom]
    refine ⟨h.issued group ▸ hroom, ?_, ?_, ?_⟩
    · rw [ProcessId.toNat_packed, hindex]
    · rw [ProcessId.ofPacked_packed]
    · rw [ProcessId.ofPacked_packed, hindex]
  · rw [if_neg hroom]
    exact ⟨h.issued group ▸ Nat.le_of_not_lt hroom, rfl⟩

theorem Agrees.due_remove (id : UInt32) :
    Due account (.remove id) (t.answer (.remove id)).1 := by
  have hholds : ∀ handle, t.handle? (.ofPacked id) = some handle ↔ Holds account id handle := by
    intro handle
    rw [h.holds, ProcessId.packed_ofPacked]
  unfold answer
  dsimp only
  rw [remove_eq]
  cases hhandle : t.handle? (.ofPacked id) with
  | none => exact fun handle => hhandle ▸ hholds handle
  | some held => exact fun handle => hhandle ▸ hholds handle

/-- The numbers of the members of a group, in increasing order. -/
theorem Agrees.members (group : UInt16) :
    Members account group
      ((t.groupD group).places.map fun index => (ProcessId.mk group index).packed) := by
  have hordered := h.ordered.groupD group
  refine ⟨?_, fun id => ?_⟩
  · rw [List.pairwise_map]
    refine hordered.sorted_places.imp fun hless => ?_
    rw [UInt16.lt_iff_toNat_lt] at hless
    rw [UInt32.lt_iff_toNat_lt, ProcessId.toNat_packed, ProcessId.toNat_packed]
    exact Nat.add_lt_add_left hless _
  · have hplace : ∀ index, index ∈ (t.groupD group).places ↔
        ∃ handle, Holds account (ProcessId.mk group index).packed handle := fun index => by
      rw [hordered.mem_places]
      simp only [← h.holds, handle?_eq_groupD]
    rw [List.mem_map]
    constructor
    · rintro ⟨index, hindex, rfl⟩
      rw [ProcessId.ofPacked_packed]
      exact ⟨rfl, (hplace index).1 hindex⟩
    · rintro ⟨rfl, hholds⟩
      refine ⟨(ProcessId.ofPacked id).index, (hplace _).2 ?_, ProcessId.packed_ofPacked id⟩
      rwa [← ProcessId.packed_ofPacked id] at hholds

theorem Agrees.dueMembers {β : Type} {fits : List UInt32 → β → Prop} (group : UInt16)
    (answer : ProcessGroup α → β)
    (hfits : fits ((t.groupD group).places.map fun index => (ProcessId.mk group index).packed)
      (answer (t.groupD group))) :
    DueMembers account group fits ((t.group? group).map answer) := by
  cases hgroup : t.group? group with
  | none => exact (h.gone group).1 hgroup
  | some g =>
      have hissued : handedOut group account ≠ [] := fun hnone => by
        rw [(h.gone group).2 hnone] at hgroup
        cases hgroup
      obtain rfl : t.groupD group = g := by rw [groupD, hgroup]; rfl
      exact ⟨hissued, _, h.members group, hfits⟩

theorem Agrees.due_size (group : UInt16) :
    DueMembers account group (fun ids n => n = ids.length) (t.groupSize? group) := by
  refine h.dueMembers group ProcessGroup.size ?_
  rw [List.length_map, ProcessGroup.places, List.length_map, List.length_reverse]
  rfl

theorem Agrees.due_handles (group : UInt16) :
    DueMembers account group (List.Forall₂ (Holds account)) (t.handles? group) := by
  refine h.dueMembers group ProcessGroup.handles ?_
  rw [List.forall₂_map_left_iff]
  refine (h.ordered.groupD group).forall₂_handles.imp fun index handle hhandle => ?_
  rw [← h.holds, handle?_eq_groupD]
  exact hhandle

/-- **Every answer is due.** -/
theorem Agrees.due_answer (c : Call α) : Due account c (t.answer c).1 := by
  cases c with
  | newGroup => exact h.due_newGroup
  | add group handle => exact h.due_add group handle
  | remove id => exact h.due_remove id
  | removeGroup group => exact h.due_size group
  | groupSize group => exact h.due_size group
  | handles group => exact h.due_handles group
  | groupIds =>
      refine ⟨List.pairwise_map.2 h.ordered.sorted, fun group => ?_⟩
      rw [mem_groupIds, Ne, h.gone]

/-! ### What is behind an answer -/

/-- A call that changes nothing leaves the table in agreement. -/
theorem Agrees.unchanged {entry : Call α × Reply α} (hgroups : groupsIssued [entry] = [])
    (hids : ∀ group ids, handOut group ids entry = ids)
    (hholds : ∀ id handle, Holds (account ++ [entry]) id handle ↔ Holds account id handle) :
    Agrees (account ++ [entry]) t := by
  refine ⟨h.ordered, ?_, fun group => ?_, fun group => ?_, fun p handle => ?_⟩
  · rw [groupsIssued_append, hgroups, List.append_nil]
    exact h.issuedGroups
  · rw [handedOut_append, hids]
    exact h.gone group
  · rw [handedOut_append, hids]
    exact h.issued group
  · rw [hholds]
    exact h.holds p handle

theorem Agrees.agrees_newGroup :
    Agrees (account ++ [(.newGroup, (t.answer .newGroup).1)]) (t.answer .newGroup).2 := by
  have hquiet : ∀ reply id handle, Holds (account ++ [(.newGroup, reply)]) id handle ↔
      Holds account id handle := fun reply id handle => by simp [holds_append]
  unfold answer newGroup
  by_cases hroom : t.issuedGroups < ProcessError.limit
  · rw [if_pos hroom]
    refine ⟨⟨h.ordered.sorted, h.ordered.group⟩, ?_, fun group => ?_, fun group => ?_,
      fun p handle => ?_⟩
    · rw [groupsIssued_append, List.length_append, ← h.issuedGroups]
      rfl
    · rw [handedOut_append]
      exact h.gone group
    · rw [handedOut_append]
      exact h.issued group
    · rw [hquiet]
      exact h.holds p handle
  · rw [if_neg hroom]
    exact h.unchanged rfl (fun _ _ => rfl) (hquiet _)

theorem Agrees.agrees_add (group : UInt16) (handle : α) :
    Agrees (account ++ [(.add group handle, (t.answer (.add group handle)).1)])
      (t.answer (.add group handle)).2 := by
  unfold answer
  dsimp only
  rw [add_eq]
  by_cases hroom : (t.groupD group).issued < ProcessError.limit
  · rw [if_pos hroom]
    refine ⟨h.ordered.withGroup ((h.ordered.groupD group).push hroom handle), ?_, fun other => ?_,
      fun other => ?_, fun p handle' => ?_⟩
    · rw [groupsIssued_append]
      exact h.issuedGroups.trans (by simp [groupsIssued])
    · rw [handedOut_append, handOut]
      by_cases hother : group = other
      · subst hother
        rw [if_pos rfl, group?_withGroup]
        simp
      · rw [if_neg hother, group?_withGroup_of_ne (Ne.symm hother)]
        exact h.gone other
    · rw [handedOut_append, handOut]
      by_cases hother : group = other
      · subst hother
        rw [if_pos rfl, groupD, group?_withGroup, List.length_append, ← h.issued]
        rfl
      · rw [if_neg hother, groupD, group?_withGroup_of_ne (Ne.symm hother)]
        exact h.issued other
    · rw [holds_append, h.ordered.handle?_push hroom, ← h.holds, ProcessId.ofPacked_packed]
      simp only [Prod.mk.injEq, Call.add.injEq, Reply.add.injEq, Except.ok.injEq,
        ProcessId.packed_inj, ne_eq, reduceCtorEq, not_false_eq_true, and_true]
      refine or_congr_left ⟨?_, ?_⟩
      · rintro ⟨rfl, rfl⟩
        exact ⟨⟨rfl, rfl⟩, rfl⟩
      · rintro ⟨⟨-, rfl⟩, rfl⟩
        exact ⟨rfl, rfl⟩
  · rw [if_neg hroom]
    exact h.unchanged rfl (fun _ _ => rfl) fun id handle => by simp [holds_append]

theorem Agrees.agrees_remove (id : UInt32) :
    Agrees (account ++ [(.remove id, (t.answer (.remove id)).1)]) (t.answer (.remove id)).2 := by
  obtain ⟨p, rfl⟩ : ∃ p : ProcessId, p.packed = id := ⟨.ofPacked id, ProcessId.packed_ofPacked id⟩
  have hremoved : ∀ reply q handle, Holds (account ++ [(.remove p.packed, reply)]) q handle ↔
      q ≠ p.packed ∧ Holds account q handle := fun reply q handle => by
    simp [holds_append, eq_comm, and_comm]
  unfold answer
  dsimp only
  rw [remove_eq, ProcessId.ofPacked_packed]
  cases hhandle : t.handle? p with
  | none =>
      refine h.unchanged rfl (fun _ _ => rfl) fun q handle => ?_
      rw [hremoved, and_iff_right_iff_imp]
      rintro hholds rfl
      rw [← h.holds, hhandle] at hholds
      cases hholds
  | some held =>
      dsimp only [Option.map_some]
      have hsome : t.group? p.group = some (t.groupD p.group) := by
        unfold handle? at hhandle
        unfold groupD
        cases hgroup : t.group? p.group with
        | none => rw [hgroup] at hhandle; cases hhandle
        | some g => rfl
      refine ⟨h.ordered.withGroup ((h.ordered.groupD p.group).remove p.index), ?_, fun other => ?_,
        fun other => ?_, fun q handle => ?_⟩
      · rw [groupsIssued_append]
        exact h.issuedGroups.trans (by simp [groupsIssued])
      · rw [handedOut_append]
        show _ ↔ handedOut other account = []
        rw [← h.gone]
        by_cases hother : other = p.group
        · subst hother
          rw [group?_withGroup, hsome]
          simp
        · rw [group?_withGroup_of_ne hother]
      · rw [handedOut_append]
        show _ = (handedOut other account).length
        rw [← h.issued]
        by_cases hother : other = p.group
        · subst hother
          rw [groupD, group?_withGroup]
          rfl
        · rw [groupD, group?_withGroup_of_ne hother]
          rfl
      · rw [hremoved, handle?_taken, ← h.holds, ne_eq, ProcessId.packed_inj]
        by_cases hq : q = p
        · simp [hq]
        · simp [hq]

theorem Agrees.agrees_removeGroup (group : UInt16) :
    Agrees (account ++ [(.removeGroup group, (t.answer (.removeGroup group)).1)])
      (t.answer (.removeGroup group)).2 := by
  refine ⟨h.ordered.removeGroup group, ?_, fun other => ?_, fun other => ?_, fun p handle => ?_⟩
  · rw [groupsIssued_append]
    exact h.issuedGroups.trans (by simp [groupsIssued])
  · rw [handedOut_append, handOut]
    by_cases hother : group = other
    · subst hother
      rw [if_pos rfl]
      exact iff_of_true (group?_removeGroup t group) rfl
    · rw [if_neg hother, ← h.gone]
      rw [← group?_removeGroup_of_ne t (Ne.symm hother)]
      rfl
  · rw [handedOut_append, handOut]
    by_cases hother : group = other
    · subst hother
      rw [if_pos rfl, groupD]
      exact congrArg (fun g => (Option.getD g .empty).issued) (group?_removeGroup t group)
    · rw [if_neg hother, ← h.issued, groupD, groupD,
        ← group?_removeGroup_of_ne t (Ne.symm hother)]
      rfl
  · rw [holds_append]
    show (t.removeGroup group).2.handle? p = some handle ↔ _
    rw [handle?_removeGroup, ← h.holds, ProcessId.ofPacked_packed]
    by_cases hgroup : p.group = group
    · simp [hgroup]
    · simp [hgroup, Ne.symm hgroup]

/-- **Tables stay in agreement with their accounts.** -/
theorem Agrees.agrees_answer (c : Call α) :
    Agrees (account ++ [(c, (t.answer c).1)]) (t.answer c).2 := by
  cases c with
  | newGroup => exact h.agrees_newGroup
  | add group handle => exact h.agrees_add group handle
  | remove id => exact h.agrees_remove id
  | removeGroup group => exact h.agrees_removeGroup group
  | groupSize group =>
      exact h.unchanged rfl (fun _ _ => rfl) fun id handle => by simp [holds_append]
  | handles group =>
      exact h.unchanged rfl (fun _ _ => rfl) fun id handle => by simp [holds_append]
  | groupIds =>
      exact h.unchanged rfl (fun _ _ => rfl) fun id handle => by simp [holds_append]

end Answers

/-! ## Accounts whose answers are due -/

/-- Every answer of an account is due after those before it. -/
def AllDue (account : Account α) : Prop :=
  ∀ earlier c reply later, account = earlier ++ (c, reply) :: later → Due earlier c reply

section AllDue

variable {account : Account α} {entry : Call α × Reply α}

theorem AllDue.append (h : AllDue account) (hentry : Due account entry.1 entry.2) :
    AllDue (account ++ [entry]) := by
  intro earlier c reply later hsplit
  rcases List.eq_nil_or_concat later with rfl | ⟨later', last, rfl⟩
  · obtain ⟨rfl, hlast⟩ := List.append_inj' hsplit rfl
    obtain rfl := List.singleton_inj.1 hlast
    exact hentry
  · rw [List.concat_eq_append, ← List.cons_append, ← List.append_assoc] at hsplit
    exact h earlier c reply later' (List.append_inj' hsplit rfl).1

theorem AllDue.init (h : AllDue (account ++ [entry])) :
    AllDue account ∧ Due account entry.1 entry.2 := by
  refine ⟨fun earlier c reply later hsplit => ?_, h account entry.1 entry.2 [] rfl⟩
  refine h earlier c reply (later ++ [entry]) ?_
  rw [hsplit, List.append_assoc, List.cons_append]

/-- **Group numbers are handed out without gaps**, from zero on. -/
theorem AllDue.map_toNat_groupsIssued (h : AllDue account) :
    (groupsIssued account).map UInt16.toNat = List.range (groupsIssued account).length := by
  induction account using List.reverseRecOn with
  | nil => rfl
  | append_singleton account entry ih =>
      obtain ⟨hinit, hentry⟩ := h.init
      have hissued : groupsIssued [entry] = [] ∨
          ∃ group, entry = (.newGroup, .newGroup (.ok group)) := by
        unfold groupsIssued
        rw [List.filterMap_cons]
        split
        · exact Or.inl rfl
        · next hsome =>
            split at hsome
            · exact Or.inr ⟨_, rfl⟩
            · cases hsome
      rw [groupsIssued_append]
      rcases hissued with hnone | ⟨group, rfl⟩
      · rw [hnone, List.append_nil]
        exact ih hinit
      · show List.map UInt16.toNat (groupsIssued account ++ [group]) =
          List.range (groupsIssued account ++ [group]).length
        rw [List.map_append, ih hinit, List.length_append, List.length_singleton,
          List.range_succ, ← hentry.2]
        rfl

/-- **The numbers of a group are handed out without gaps.** -/
theorem AllDue.map_toNat_handedOut (h : AllDue account) (group : UInt16) :
    (handedOut group account).map UInt32.toNat =
      List.range' (group.toNat * 65536) (handedOut group account).length := by
  induction account using List.reverseRecOn with
  | nil => rfl
  | append_singleton account entry ih =>
      obtain ⟨hinit, hentry⟩ := h.init
      have hbefore := ih hinit
      rw [handedOut_append]
      unfold handOut
      split
      · next other handle id =>
          split
          · next hother =>
              subst hother
              rw [List.map_append, hbefore, List.length_append, List.length_singleton,
                List.range'_concat, Nat.one_mul, ← hentry.2.1]
              rfl
          · exact hbefore
      · split
        · rfl
        · exact hbefore
      · exact hbefore

end AllDue

/-- Whatever comes after an account, its answers are due. -/
theorem Agrees.serve {account : Account α} {t : ProcessTable α} (h : Agrees account t)
    (hdue : AllDue account) (calls : List (Call α)) :
    Agrees (account ++ (t.serve calls).1) (t.serve calls).2 ∧
      AllDue (account ++ (t.serve calls).1) := by
  induction calls generalizing account t with
  | nil =>
      rw [show (t.serve []).1 = [] from rfl, List.append_nil]
      exact ⟨h, hdue⟩
  | cons c rest ih =>
      have hrest := ih (h.agrees_answer c) (hdue.append (h.due_answer c))
      rwa [List.append_assoc] at hrest

theorem allDue_nil : AllDue ([] : Account α) :=
  fun earlier c reply later hsplit => by simp at hsplit

theorem agrees_serve (calls : List (Call α)) :
    Agrees (empty.serve calls).1 (empty.serve calls).2 :=
  (agrees_empty.serve allDue_nil calls).1

/-! ## The register -/

/-- **The table is a faithful register of handles**, whatever it is asked for in whatever order.

    Each answer is the one that is due after those before it. Group numbers are handed out from zero
    on, and the numbers of a group from 65536 times the group on, both without gaps, none twice, and
    65536 of each; then there are errors. What is taken out under a number is what was put in under
    it, if that was not taken out yet. Sizes and lists are those of what is there.

    A call that is refused changes nothing at all. Neither it nor a call that names another group
    makes any difference to what is answered about a group from then on. -/
theorem answers_due (calls : List (Call α)) :
    let account := ((empty : ProcessTable α).serve calls).1
    let t := ((empty : ProcessTable α).serve calls).2
    AllDue account ∧
      (groupsIssued account).map UInt16.toNat = List.range (groupsIssued account).length ∧
      (∀ group, (handedOut group account).map UInt32.toNat =
        List.range' (group.toNat * 65536) (handedOut group account).length) ∧
      (∀ c, (t.answer c).1.isRefusal → (t.answer c).2 = t) ∧
      ∀ c group, c.group? ≠ some group → Alike group t (t.answer c).2 := by
  intro account t
  have hdue : AllDue account := (agrees_empty.serve allDue_nil calls).2
  exact ⟨hdue, hdue.map_toNat_groupsIssued, hdue.map_toNat_handedOut,
    fun c => answer_of_isRefusal, fun c group => alike_answer_of_ne⟩

/-- What was taken out leaves its number behind, until the group is removed. -/
example : ((empty : ProcessTable String).serve [.newGroup, .add 0 "a", .add 0 "b", .remove 0,
    .add 0 "c", .handles 0, .removeGroup 0, .add 0 "d"]).1.map Prod.snd =
    [.newGroup (.ok 0), .add (.ok 0), .add (.ok 1), .handle (some "a"), .add (.ok 2),
      .handles (some ["b", "c"]), .size (some 2), .add (.ok 0)] :=
  rfl

end Promptline.ProcessTable
