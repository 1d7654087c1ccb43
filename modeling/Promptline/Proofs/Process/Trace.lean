import Promptline.Process.Execution

set_option autoImplicit false

/-! # What a host was asked

A host is traced by keeping, beside its state, what it was asked and what it said (`Host.traced`).
All claims about the order in which things happen are claims about such traces.

A host is relied on for little. It starts a command, or does not; from then on the process may exit
at any moment, and it stays exited, with the same code. Asking tells whether it has. Which process
exits when, with what code, and whether stopping has any effect is up to the host
(`Host.Steady`). -/

namespace Promptline

/-- What a host was asked, and what it said. -/
inductive Asked where
  | start (c : Command) (answer : Except ProcessError Handle)
  | poll (h : Handle) (answer : Option Int)
  | terminate (h : Handle)

namespace Host

variable {σ : Type}

/-- The host, and what it was asked. -/
def traced (host : Host σ) : Host (σ × List Asked) where
  start c t s :=
    let (answer, state) := host.start c t s.1
    (answer, state, s.2 ++ [.start c answer])
  poll h s :=
    let (answer, state) := host.poll h s.1
    (answer, state, s.2 ++ [.poll h answer])
  terminate h s := (host.terminate h s.1, s.2 ++ [.terminate h])

theorem traced_start {host : Host σ} {c : Command} {t : ProcessTable Handle} {s : σ × List Asked}
    {answer : Except ProcessError Handle} {state : σ} (h : host.start c t s.1 = (answer, state)) :
    host.traced.start c t s = (answer, state, s.2 ++ [.start c answer]) := by
  simp only [traced, h]

theorem traced_poll {host : Host σ} {handle : Handle} {s : σ × List Asked} {answer : Option Int}
    {state : σ} (h : host.poll handle s.1 = (answer, state)) :
    host.traced.poll handle s = (answer, state, s.2 ++ [.poll handle answer]) := by
  simp only [traced, h]

theorem asked_start {host : Host σ} {c : Command} {t : ProcessTable Handle} {s s' : σ × List Asked}
    {answer : Except ProcessError Handle} (h : host.traced.start c t s = (answer, s')) :
    s'.2 = s.2 ++ [.start c answer] := by
  obtain ⟨rfl, rfl⟩ := Prod.mk.inj h
  rfl

theorem asked_poll {host : Host σ} {handle : Handle} {s s' : σ × List Asked} {answer : Option Int}
    (h : host.traced.poll handle s = (answer, s')) : s'.2 = s.2 ++ [.poll handle answer] := by
  obtain ⟨rfl, rfl⟩ := Prod.mk.inj h
  rfl

/-- Processes that have exited stay so, with the same code. -/
def Later (exit? : Handle → σ → Option Int) (s s' : σ) : Prop :=
  ∀ h code, exit? h s = some code → exit? h s' = some code

/-- What is relied on: whatever is asked, no process that has exited changes, and asking for a
    process tells whether it has exited. -/
structure Steady (host : Host σ) (exit? : Handle → σ → Option Int) : Prop where
  start : ∀ c t s, Later exit? s (host.start c t s).2
  poll : ∀ h s, Later exit? s (host.poll h s).2
  terminate : ∀ h s, Later exit? s (host.terminate h s)
  answer : ∀ h s, (host.poll h s).1 = exit? h (host.poll h s).2

variable {exit? : Handle → σ → Option Int}

theorem Later.refl (s : σ) : Later exit? s s :=
  fun _ _ => id

theorem Later.trans {s s' s'' : σ} (h : Later exit? s s') (h' : Later exit? s' s'') :
    Later exit? s s'' :=
  fun handle code hcode => h' handle code (h handle code hcode)

/-- A process that runs still has run before. -/
theorem Later.eq_none {s s' : σ} (h : Later exit? s s') {handle : Handle}
    (hnone : exit? handle s' = none) : exit? handle s = none := by
  cases hexit : exit? handle s with
  | none => rfl
  | some code => exact absurd (hnone.symm.trans (h handle code hexit)) nofun

/-- To be stopped is nothing to a process that has exited. -/
theorem Steady.terminateAll {host : Host σ} (hhost : host.Steady exit?) (handles : List Handle)
    (state : σ) : Later exit? state (host.terminateAll handles state) := by
  induction handles generalizing state with
  | nil => exact .refl _
  | cons handle rest ih => exact (hhost.terminate handle state).trans (ih _)

/-- A traced host is as steady as the host is. -/
theorem Steady.traced {host : Host σ} (hhost : host.Steady exit?) :
    host.traced.Steady fun h s => exit? h s.1 where
  start c t s := hhost.start c t s.1
  poll h s := hhost.poll h s.1
  terminate h s := hhost.terminate h s.1
  answer h s := hhost.answer h s.1

end Host

/-! ## Traces -/

namespace Asked

/-- The commands that were to be started, whether or not they could be. -/
def starts (trace : List Asked) : List Command :=
  trace.filterMap fun
    | start c _ => some c
    | _ => none

/-- The processes that came of that, in the order in which they were started. -/
def spawned (trace : List Asked) : List Handle :=
  trace.filterMap fun
    | start _ (.ok h) => some h
    | _ => none

/-- Every command that was to be started was started. -/
def AllStarted (trace : List Asked) : Prop :=
  ∀ c e, start c (.error e) ∉ trace

/-- Nothing was to be started. -/
def NoStarts (trace : List Asked) : Prop :=
  ∀ c answer, start c answer ∉ trace

/-- A command was started, and its process was then found to have exited. -/
def Exited (c : Command) (trace : List Asked) : Prop :=
  ∃ h code, [start c (.ok h), poll h (some code)].Sublist trace

section Append

variable {trace more : List Asked}

@[simp]
theorem starts_append : starts (trace ++ more) = starts trace ++ starts more :=
  List.filterMap_append

@[simp]
theorem spawned_append : spawned (trace ++ more) = spawned trace ++ spawned more :=
  List.filterMap_append

@[simp]
theorem starts_start (c : Command) (answer : Except ProcessError Handle) :
    starts [start c answer] = [c] :=
  rfl

@[simp]
theorem starts_poll (h : Handle) (answer : Option Int) : starts [poll h answer] = [] :=
  rfl

@[simp]
theorem spawned_start_ok (c : Command) (h : Handle) : spawned [start c (.ok h)] = [h] :=
  rfl

@[simp]
theorem spawned_start_error (c : Command) (e : ProcessError) :
    spawned [start c (.error e)] = [] :=
  rfl

@[simp]
theorem spawned_poll (h : Handle) (answer : Option Int) : spawned [poll h answer] = [] :=
  rfl

theorem mem_starts {c : Command} : c ∈ starts trace ↔ ∃ answer, start c answer ∈ trace := by
  simp only [starts, List.mem_filterMap]
  constructor
  · rintro ⟨asked, hmem, hasked⟩
    cases asked with
    | start c' answer =>
        obtain rfl := Option.some.inj hasked
        exact ⟨answer, hmem⟩
    | poll => cases hasked
    | terminate => cases hasked
  · rintro ⟨answer, hmem⟩
    exact ⟨_, hmem, rfl⟩

theorem mem_spawned {h : Handle} : h ∈ spawned trace ↔ ∃ c, start c (.ok h) ∈ trace := by
  simp only [spawned, List.mem_filterMap]
  constructor
  · rintro ⟨asked, hmem, hasked⟩
    match asked, hasked with
    | start c (.ok h'), hasked =>
        obtain rfl := Option.some.inj hasked
        exact ⟨c, hmem⟩
  · rintro ⟨c, hmem⟩
    exact ⟨_, hmem, rfl⟩

theorem NoStarts.starts (h : NoStarts trace) : starts trace = [] :=
  List.eq_nil_iff_forall_not_mem.2 fun c hc => by
    obtain ⟨answer, hmem⟩ := mem_starts.1 hc
    exact h c answer hmem

theorem NoStarts.spawned (h : NoStarts trace) : spawned trace = [] :=
  List.eq_nil_iff_forall_not_mem.2 fun handle hmem => by
    obtain ⟨c, hstart⟩ := mem_spawned.1 hmem
    exact h c _ hstart

theorem allStarted_nil : AllStarted [] :=
  fun _ _ => List.not_mem_nil

theorem NoStarts.allStarted (h : NoStarts trace) : AllStarted trace :=
  fun c e => h c (.error e)

theorem NoStarts.append (h : NoStarts trace) (hmore : NoStarts more) :
    NoStarts (trace ++ more) := by
  intro c answer hmem
  rcases List.mem_append.1 hmem with hmem | hmem
  · exact h c answer hmem
  · exact hmore c answer hmem

theorem noStarts_poll (h : Handle) (answer : Option Int) : NoStarts [poll h answer] := by
  intro c answer' hmem
  cases List.mem_singleton.1 hmem

/-- What has exited stays so. -/
theorem Exited.append {c : Command} (h : Exited c trace) (more : List Asked) :
    Exited c (trace ++ more) := by
  obtain ⟨handle, code, hsub⟩ := h
  exact ⟨handle, code, hsub.trans (List.sublist_append_left trace more)⟩

theorem exited_of_poll {c : Command} {h : Handle} (hstart : start c (.ok h) ∈ trace) (code : Int) :
    Exited c (trace ++ [poll h (some code)]) :=
  ⟨h, code, (List.singleton_sublist.2 hstart).append (List.Sublist.refl [poll h (some code)])⟩

theorem AllStarted.append (h : AllStarted trace) (hmore : AllStarted more) :
    AllStarted (trace ++ more) := by
  intro c e hmem
  rcases List.mem_append.1 hmem with hmem | hmem
  · exact h c e hmem
  · exact hmore c e hmem

/-- A command that is not to be started twice has one answer. -/
theorem start_unique {c : Command} {answer answer' : Except ProcessError Handle}
    (honce : (starts trace).Nodup) (h : start c answer ∈ trace) (h' : start c answer' ∈ trace) :
    answer = answer' := by
  induction trace with
  | nil => cases h
  | cons asked rest ih =>
      have honce' : (starts ([asked] ++ rest)).Nodup := honce
      rw [starts_append] at honce'
      obtain ⟨-, hrest, hapart⟩ := List.nodup_append.1 honce'
      rcases List.mem_cons.1 h with rfl | hmem
      · rcases List.mem_cons.1 h' with heq | hmem'
        · exact (start.inj heq).2.symm
        · exact absurd rfl (hapart c List.mem_cons_self c (mem_starts.2 ⟨answer', hmem'⟩))
      · rcases List.mem_cons.1 h' with rfl | hmem'
        · exact absurd rfl (hapart c List.mem_cons_self c (mem_starts.2 ⟨answer, hmem⟩))
        · exact ih hrest hmem hmem'

/-- There are no more processes than starts. -/
theorem length_spawned_le (trace : List Asked) :
    (spawned trace).length ≤ (starts trace).length := by
  induction trace with
  | nil => exact Nat.le_refl _
  | cons asked rest ih =>
      match asked with
      | start _ (.ok _) => exact Nat.succ_le_succ ih
      | start _ (.error _) => exact Nat.le_succ_of_le ih
      | poll _ _ => exact ih
      | terminate _ => exact ih

/-- Where everything could be started, there are as many processes as starts. -/
theorem AllStarted.length_spawned (h : AllStarted trace) :
    (spawned trace).length = (starts trace).length := by
  induction trace with
  | nil => rfl
  | cons asked rest ih =>
      have hrest := ih fun c e hmem => h c e (List.mem_cons_of_mem _ hmem)
      match asked with
      | start c (.ok handle) =>
          show (spawned rest).length + 1 = (starts rest).length + 1
          rw [hrest]
      | start c (.error e) => exact absurd List.mem_cons_self (h c e)
      | poll _ _ => exact hrest
      | terminate _ => exact hrest

end Append

end Asked

end Promptline
