import Promptline.Proofs.Process.Places

set_option autoImplicit false

/-! # Calls of the process table

The table is asked for one thing after another (`serve`). A call that is refused changes nothing
(`answer_of_isRefusal`), and what is answered about a group hangs on what was asked about that group
alone: a call that names another one makes no difference to it, whatever is asked from then on
(`alike_answer_of_ne`). -/

namespace Promptline.ProcessTable

variable {α : Type}

/-! ## Calls and answers -/

/-- What the table can be asked. -/
inductive Call (α : Type) where
  | newGroup
  | add (group : UInt16) (handle : α)
  /-- To take out what stands under a packed number. -/
  | remove (id : UInt32)
  | removeGroup (group : UInt16)
  | groupSize (group : UInt16)
  | handles (group : UInt16)
  | groupIds

/-- What the table answers. -/
inductive Reply (α : Type) where
  | newGroup (answer : Except ProcessError UInt16)
  | add (answer : Except ProcessError UInt32)
  | handle (answer : Option α)
  | size (answer : Option Nat)
  | handles (answer : Option (List α))
  | groups (answer : List UInt16)

/-- The answer to a call, and the table behind it. -/
def answer (t : ProcessTable α) : Call α → Reply α × ProcessTable α
  | .newGroup =>
    match t.newGroup with
    | .ok (group, t') => (.newGroup (.ok group), t')
    | .error e => (.newGroup (.error e), t)
  | .add group handle =>
    match t.add group handle with
    | .ok (id, t') => (.add (.ok id.packed), t')
    | .error e => (.add (.error e), t)
  | .remove id =>
    match t.remove (.ofPacked id) with
    | some (handle, t') => (.handle (some handle), t')
    | none => (.handle none, t)
  | .removeGroup group => (.size (t.removeGroup group).1, (t.removeGroup group).2)
  | .groupSize group => (.size (t.groupSize? group), t)
  | .handles group => (.handles (t.handles? group), t)
  | .groupIds => (.groups t.groupIds, t)

/-- What was asked, and what was answered. -/
abbrev Account (α : Type) := List (Call α × Reply α)

/-- The account of some calls, and the table behind them. -/
def serve (t : ProcessTable α) : List (Call α) → Account α × ProcessTable α
  | [] => ([], t)
  | c :: rest =>
    let (account, t') := serve (t.answer c).2 rest
    ((c, (t.answer c).1) :: account, t')

/-! ## Calls that leave a group alone -/

/-- The group that a call names. -/
def Call.group? : Call α → Option UInt16
  | .newGroup => none
  | .add group _ => some group
  | .remove id => some (ProcessId.ofPacked id).group
  | .removeGroup group => some group
  | .groupSize group => some group
  | .handles group => some group
  | .groupIds => none

/-- Whether an answer is an error, or that there is nothing. -/
def Reply.isRefusal : Reply α → Bool
  | .newGroup (.error _) => true
  | .add (.error _) => true
  | .handle none => true
  | .size none => true
  | .handles none => true
  | _ => false

/-- Two tables cannot be told apart by what they answer about a group, whatever is asked. -/
def Alike (group : UInt16) (t t' : ProcessTable α) : Prop :=
  (group ∈ t.groupIds ↔ group ∈ t'.groupIds) ∧
    ∀ calls : List (Call α), (∀ c ∈ calls, c.group? = some group) →
      (t.serve calls).1 = (t'.serve calls).1

section Groups

variable {t t' : ProcessTable α} {group : UInt16}

/-- **A call that is refused changes nothing.** -/
theorem answer_of_isRefusal {c : Call α} (h : (t.answer c).1.isRefusal) : (t.answer c).2 = t := by
  cases c with
  | newGroup =>
      unfold answer at h ⊢
      cases hnew : t.newGroup with
      | ok issued => rw [hnew] at h; cases h
      | error e => rfl
  | add group handle =>
      unfold answer at h ⊢
      dsimp only at h ⊢
      cases hadd : t.add group handle with
      | ok issued => rw [hadd] at h; cases h
      | error e => rfl
  | remove id =>
      unfold answer at h ⊢
      dsimp only at h ⊢
      cases hremove : t.remove (.ofPacked id) with
      | some taken => rw [hremove] at h; cases h
      | none => rfl
  | removeGroup group =>
      show (t.removeGroup group).2 = t
      have hnone : t.groups.lookup group = none := by
        cases hgroup : t.groups.lookup group with
        | none => rfl
        | some g =>
            change (Reply.size ((t.groups.lookup group).map ProcessGroup.size)).isRefusal at h
            rw [hgroup] at h
            cases h
      have hsame : (t.groups.filter fun entry => entry.1 != group) = t.groups := by
        refine List.filter_eq_self.2 fun entry hentry => ?_
        rw [bne_comm]
        exact List.lookup_eq_none_iff.1 hnone entry hentry
      unfold removeGroup
      rw [hsame]
  | groupSize group => rfl
  | handles group => rfl
  | groupIds => rfl

/-- **A call that names another group** leaves a group as it is. -/
theorem group?_answer_of_ne {c : Call α} (h : c.group? ≠ some group) :
    (t.answer c).2.group? group = t.group? group := by
  cases c with
  | newGroup =>
      unfold answer newGroup
      by_cases hroom : t.issuedGroups < ProcessError.limit
      · rw [if_pos hroom]
        rfl
      · rw [if_neg hroom]
  | add other handle =>
      have hother : group ≠ other := fun heq => h (congrArg some heq.symm)
      unfold answer
      dsimp only
      split
      · next hadd => exact group?_add_of_ne hadd hother
      · rfl
  | remove id =>
      have hother : group ≠ (ProcessId.ofPacked id).group := fun heq => h (congrArg some heq.symm)
      unfold answer
      dsimp only
      rw [remove_eq]
      cases t.handle? (.ofPacked id) with
      | none => rfl
      | some handle => exact group?_withGroup_of_ne hother
  | removeGroup other =>
      have hother : group ≠ other := fun heq => h (congrArg some heq.symm)
      exact group?_removeGroup_of_ne t hother
  | groupSize other => rfl
  | handles other => rfl
  | groupIds => rfl

/-- What is answered about a group hangs on that group alone. -/
theorem answer_congr {c : Call α} (hc : c.group? = some group)
    (h : t.group? group = t'.group? group) :
    (t.answer c).1 = (t'.answer c).1 ∧
      (t.answer c).2.group? group = (t'.answer c).2.group? group := by
  have hD : t.groupD group = t'.groupD group := by unfold groupD; rw [h]
  cases c with
  | newGroup => cases hc
  | groupIds => cases hc
  | add other handle =>
      obtain rfl := Option.some.inj hc
      unfold answer
      dsimp only
      rw [add_eq, add_eq, hD]
      by_cases hroom : (t'.groupD other).issued < ProcessError.limit
      · simp [hroom]
      · rw [if_neg hroom, if_neg hroom]
        exact ⟨rfl, h⟩
  | remove id =>
      obtain rfl := Option.some.inj hc
      have hhandle : t.handle? (.ofPacked id) = t'.handle? (.ofPacked id) := by
        rw [handle?_eq_groupD, handle?_eq_groupD, hD]
      unfold answer
      dsimp only
      rw [remove_eq, remove_eq, hhandle, hD]
      cases t'.handle? (.ofPacked id) with
      | none => exact ⟨rfl, h⟩
      | some handle => simp
  | removeGroup other =>
      obtain rfl := Option.some.inj hc
      refine ⟨?_, (group?_removeGroup t _).trans (group?_removeGroup t' _).symm⟩
      show Reply.size ((t.group? other).map ProcessGroup.size) = _
      rw [h]
      rfl
  | groupSize other =>
      obtain rfl := Option.some.inj hc
      refine ⟨?_, h⟩
      show Reply.size ((t.group? other).map ProcessGroup.size) = _
      rw [h]
      rfl
  | handles other =>
      obtain rfl := Option.some.inj hc
      refine ⟨?_, h⟩
      show Reply.handles ((t.group? other).map ProcessGroup.handles) = _
      rw [h]
      rfl

theorem alike_of_group?_eq (h : t.group? group = t'.group? group) : Alike group t t' := by
  constructor
  · rw [mem_groupIds, mem_groupIds, h]
  · intro calls hcalls
    induction calls generalizing t t' with
    | nil => rfl
    | cons c rest ih =>
        obtain ⟨hreply, hgroup⟩ := answer_congr (hcalls c List.mem_cons_self) h
        have hrest := ih hgroup fun d hd => hcalls d (List.mem_cons_of_mem _ hd)
        show (c, (t.answer c).1) :: _ = (c, (t'.answer c).1) :: _
        rw [hreply, hrest]

theorem alike_answer_of_ne {c : Call α} (h : c.group? ≠ some group) :
    Alike group t (t.answer c).2 :=
  alike_of_group?_eq (group?_answer_of_ne h).symm

end Groups

end Promptline.ProcessTable
