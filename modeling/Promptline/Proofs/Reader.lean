import Promptline.Proofs.Editor.Input
import Promptline.Reader

set_option autoImplicit false

/-! # Reading lines refines acting on input

A reader returns in the middle of what it has read, whenever there is an outcome, and goes on from
there in the next call; in between it may be told to stop, or reading may fail. The *synchronous*
run knows none of this: it acts on each chunk of bytes as a whole. Both come to the same
(`calls_refine_synchronous`): successive calls return the outcomes of the synchronous run one by
one, write what it writes, and leave the editor that it leaves.

To compare them, the synchronous run is cut behind each of its answers (`cuts`). One call is then
the first of the cuts that are left (`await_eq_cut`), and by induction all calls are all cuts. -/

namespace Promptline.Reader

open Terminal Edit

/-! ## Successive calls -/

/-- The first `n` calls, each of which goes on where the one before it returned. -/
def calls (files : FileTree) : Nat → Editor → Sink → List Delivery → List Reading
  | 0, _, _, _ => []
  | n + 1, e, sink, deliveries =>
    let r := read files e sink deliveries
    r :: calls files n r.editor r.sink r.remaining

/-! ## The synchronous run -/

/-- What deliveries come to when each chunk is acted on as a whole. -/
structure Run where
  answers : List (Except ReadError Outcome)
  written : List Char
  editor : Editor

namespace Run

/-- A run in front of which there is one more answer. -/
def answering (answer : Except ReadError Outcome) (run : Run) : Run :=
  { run with answers := answer :: run.answers }

end Run

/-- Acts on each chunk as a whole, and answers every other delivery, and the end of the input, by
    what it is. -/
def synchronous (files : FileTree) (e : Editor) : List Delivery → Run
  | [] => { answers := [.ok .endOfInput], written := [], editor := e }
  | .failure message :: rest => (synchronous files e rest).answering (.error (.io message))
  | .shutdown :: rest => (synchronous files e rest).answering (.error .closed)
  | .bytes [] :: rest => (synchronous files e rest).answering (.ok .endOfInput)
  | .bytes (b :: bs) :: rest =>
    let acted := (processInput files (b :: bs)).run e .working
    let later := synchronous files acted.editor rest
    { answers := (acted.value.getD []).map .ok ++ later.answers
      written := acted.output ++ later.written
      editor := later.editor }

/-! ## Cuts -/

/-- The part of a run that ends with one answer: what it writes, the answer, and the editor then. -/
structure Cut where
  written : List Char
  answer : Except ReadError Outcome
  editor : Editor

/-- Acting on queued events, cut behind each outcome, and then going on; `carry` was written since
    the last answer. -/
def cutsOfEvents (files : FileTree) (go : List Char → Editor → List Cut) :
    List Event → List Char → Editor → List Cut
  | [], carry, e => go carry e
  | event :: rest, carry, e =>
    let next := applyNext files event rest
    match (next e).value with
    | none => cutsOfEvents files go rest (carry ++ next.written e) (next e).editor
    | some outcome =>
      { written := carry ++ next.written e, answer := .ok outcome, editor := (next e).editor } ::
        cutsOfEvents files go rest [] (next e).editor

/-- The synchronous run, cut behind each answer. -/
def cuts (files : FileTree) : List Delivery → List Char → Editor → List Cut
  | [], carry, e => [{ written := carry, answer := .ok .endOfInput, editor := e }]
  | .failure message :: rest, carry, e =>
    { written := carry, answer := .error (.io message), editor := e } :: cuts files rest [] e
  | .shutdown :: rest, carry, e =>
    { written := carry, answer := .error .closed, editor := e } :: cuts files rest [] e
  | .bytes [] :: rest, carry, e =>
    { written := carry, answer := .ok .endOfInput, editor := e } :: cuts files rest [] e
  | .bytes (b :: bs) :: rest, carry, e =>
    let decoded := (enqueue (b :: bs) e).editor
    cutsOfEvents files (cuts files rest) decoded.queue carry decoded

section Cuts

variable (files : FileTree)

/-- The cuts of events hold the outcomes and the text of acting on all of them. -/
theorem cutsOfEvents_eq (go : List Char → Editor → List Cut) (events : List Event)
    (carry : List Char) (e : Editor) :
    ∃ front carry',
      cutsOfEvents files go events carry e =
          front ++ go carry' (applyAll files events e).editor ∧
        front.map Cut.answer = (applyAll files events e).value.map .ok ∧
        front.flatMap Cut.written ++ carry' = carry ++ (applyAll files events).written e := by
  induction events generalizing carry e with
  | nil => exact ⟨[], carry, rfl, rfl, (List.append_nil carry).symm⟩
  | cons event rest ih =>
      rw [cutsOfEvents, value_applyAll_cons, editor_applyAll_cons, written_applyAll_cons]
      cases hvalue : (applyNext files event rest e).value with
      | none =>
          obtain ⟨front, carry', hcuts, hanswers, hwritten⟩ :=
            ih (carry ++ (applyNext files event rest).written e)
              (applyNext files event rest e).editor
          refine ⟨front, carry', hcuts, hanswers, ?_⟩
          rw [hwritten, List.append_assoc]
      | some outcome =>
          obtain ⟨front, carry', hcuts, hanswers, hwritten⟩ :=
            ih [] (applyNext files event rest e).editor
          refine ⟨_ :: front, carry', by rw [hcuts]; rfl, ?_, ?_⟩
          · rw [List.map_cons, hanswers]
            rfl
          · rw [List.flatMap_cons, List.append_assoc, hwritten, List.nil_append,
              List.append_assoc]

/-- Cuts that hold the answers and the text of a run, behind `carry`, the last of which is the end
    of the input and has the editor of the run. -/
structure Cover (cs : List Cut) (carry : List Char) (run : Run) : Prop where
  answers : cs.map Cut.answer = run.answers
  written : cs.flatMap Cut.written = carry ++ run.written
  ends : ∃ front written, cs = front ++ [⟨written, .ok .endOfInput, run.editor⟩]

theorem Cover.answering {cs : List Cut} {run : Run} (h : Cover cs [] run) (c : Cut) :
    Cover (c :: cs) c.written (run.answering c.answer) where
  answers := by
    rw [List.map_cons, h.answers]
    rfl
  written := by
    rw [List.flatMap_cons, h.written]
    rfl
  ends := by
    obtain ⟨front, written, hends⟩ := h.ends
    exact ⟨c :: front, written, congrArg (c :: ·) hends⟩

/-- The cuts of a script cover the synchronous run. -/
theorem cover_cuts (deliveries : List Delivery) (carry : List Char) (e : Editor) :
    Cover (cuts files deliveries carry e) carry (synchronous files e deliveries) := by
  induction deliveries generalizing carry e with
  | nil => exact ⟨rfl, by simp [cuts, synchronous], [], carry, rfl⟩
  | cons delivery rest ih =>
      cases delivery with
      | failure message => exact (ih [] e).answering ⟨carry, .error (.io message), e⟩
      | shutdown => exact (ih [] e).answering ⟨carry, .error .closed, e⟩
      | bytes bs =>
          cases bs with
          | nil => exact (ih [] e).answering ⟨carry, .ok .endOfInput, e⟩
          | cons b bs =>
              rw [cuts, synchronous, run_working_value, run_working_editor, run_working_output,
                value_processInput, editor_processInput, written_processInput]
              generalize (enqueue (b :: bs) e).editor = decoded
              obtain ⟨front, carry', hcuts, hanswers, hwritten⟩ :=
                cutsOfEvents_eq files (cuts files rest) decoded.queue carry decoded
              have hlater := ih carry' (applyAll files decoded.queue decoded).editor
              rw [hcuts]
              refine ⟨?_, ?_, ?_⟩
              · rw [List.map_append, hanswers, hlater.answers]
                rfl
              · rw [List.flatMap_append, hlater.written, ← List.append_assoc, hwritten,
                  List.append_assoc]
              · obtain ⟨front', written, hends⟩ := hlater.ends
                refine ⟨front ++ front', written, ?_⟩
                rw [List.append_assoc, ← hends]

end Cuts

/-! ## One call -/

/-- Whether an answer ends the line. -/
def endsLine : Except ReadError Outcome → Bool
  | .ok outcome => outcome.endsLine
  | .error _ => false

instance : Sound prompt := by
  unfold prompt
  infer_instance

instance : Sound finish := by
  unfold finish
  infer_instance

instance (bs : List UInt8) : Sound (take bs) := by
  unfold take
  infer_instance

instance (files : FileTree) : Sound (applyQueued files) := by
  unfold applyQueued
  infer_instance

section Calls

variable (files : FileTree)

/-- Acting on the queue up to the first outcome arrives at the first cut of the queue, or at the
    end of the queue if there is none. -/
theorem applyUntilOutcome_eq_cut (go : List Char → Editor → List Cut) {events : List Event}
    {e : Editor} (hqueue : e.queue = events) (due : Bool) (carry : List Char) :
    (∃ e', (applyUntilOutcome files events (withDue e due)).value = none ∧
      (applyUntilOutcome files events (withDue e due)).editor = withDue e' due ∧ e'.queue = [] ∧
      cutsOfEvents files go events carry e =
        go (carry ++ (applyUntilOutcome files events).written (withDue e due)) e') ∨
    (∃ outcome e', (applyUntilOutcome files events (withDue e due)).value = some outcome ∧
      (applyUntilOutcome files events (withDue e due)).editor =
        withDue e' (due || outcome.endsLine) ∧
      cutsOfEvents files go events carry e =
        ⟨carry ++ (applyUntilOutcome files events).written (withDue e due), .ok outcome, e'⟩ ::
          cutsOfEvents files go e'.queue [] e') := by
  induction events generalizing e due carry with
  | nil =>
      refine Or.inl ⟨e, rfl, rfl, hqueue, ?_⟩
      rw [cutsOfEvents]
      exact congrArg (go · e) (List.append_nil carry).symm
  | cons event rest ih =>
      obtain ⟨hvalue, heditor, hwritten⟩ := applyUntilOutcome_cons (withDue e due) files event rest
      obtain ⟨hvalue', heditor', hwritten'⟩ := applyNext_due e files due event rest
      -- the first step is the same for both, but for the prompt, which is not looked at
      rw [hvalue, heditor, hwritten, hvalue', heditor', hwritten', cutsOfEvents]
      cases hnext : (applyNext files event rest e).value with
      | none =>
          have hrest := ih (queue_applyNext e files event rest) due
            (carry ++ (applyNext files event rest).written e)
          rw [List.append_assoc] at hrest
          simpa [orElse, hnext] using hrest
      | some outcome =>
          refine Or.inr ⟨outcome, (applyNext files event rest e).editor, rfl, rfl, ?_⟩
          rw [queue_applyNext]
          simp [orElse]

/-- The same for the queue of an editor. -/
theorem applyQueued_eq_cut (go : List Char → Editor → List Cut) (e : Editor) (due : Bool)
    (carry : List Char) :
    (∃ e', (applyQueued files (withDue e due)).value = none ∧
      (applyQueued files (withDue e due)).editor = withDue e' due ∧ e'.queue = [] ∧
      cutsOfEvents files go e.queue carry e =
        go (carry ++ (applyQueued files).written (withDue e due)) e') ∨
    (∃ outcome e', (applyQueued files (withDue e due)).value = some outcome ∧
      (applyQueued files (withDue e due)).editor = withDue e' (due || outcome.endsLine) ∧
      cutsOfEvents files go e.queue carry e =
        ⟨carry ++ (applyQueued files).written (withDue e due), .ok outcome, e'⟩ ::
          cutsOfEvents files go e'.queue [] e') :=
  applyUntilOutcome_eq_cut files go (e := e) rfl due carry

/-- What a call owes to cuts: it is the first of them, and the others are those of what it leaves.
    `carry` was written before it. -/
structure IsCut (r : Reading) (due : Bool) (carry : List Char) (cs : List Cut) : Prop where
  sink : r.sink = .working
  split : ∃ e', r.editor = withDue e' (due || endsLine r.answer) ∧
    cs = ⟨carry ++ r.output, r.answer, e'⟩ ::
      if r.exhausted then [] else cutsOfEvents files (cuts files r.remaining) e'.queue [] e'

/-- The same call, with something performed before it. -/
theorem IsCut.behind {r : Reading} {due : Bool} {carry : List Char} {cs : List Cut} {α : Type}
    {p : Performed α} (h : IsCut files r due (carry ++ p.output) cs) :
    IsCut files (r.behind p) due carry cs := by
  obtain ⟨hsink, e', heditor, hcs⟩ := h
  refine ⟨hsink, e', heditor, ?_⟩
  rw [hcs, List.append_assoc]
  rfl

/-- A call that ends with a sound edit on a working terminal. -/
theorem IsCut.ending {α : Type} {x : Edit α} [Sound x] {e e' : Editor} {due : Bool}
    {carry : List Char} {answer : Except ReadError Outcome} {deliveries : List Delivery}
    (heditor : (x e).editor = withDue e' (due || endsLine answer)) :
    IsCut files (.ending (x.run e .working) answer deliveries) due carry
      (⟨carry ++ x.written e, answer, e'⟩ ::
        cutsOfEvents files (cuts files deliveries) e'.queue [] e') where
  sink := run_working_sink x e
  split := by
    refine ⟨e', ?_, ?_⟩
    · rw [Reading.ending, run_working_editor]
      exact heditor
    · rw [Reading.ending, run_working_output]
      rfl

/-- A call returns the first outcome of what is queued, and reads nothing then. -/
theorem await_of_outcome {e : Editor} {outcome : Outcome}
    (h : (applyQueued files e).value = some outcome) (deliveries : List Delivery) :
    await files e .working deliveries =
      .ending ((applyQueued files).run e .working) (.ok outcome) deliveries := by
  cases deliveries <;> simp only [await, run_working_value, h]

/-! Where nothing that is queued has an outcome, the call goes by what is delivered. -/

section Idle

variable {e : Editor} (h : (applyQueued files e).value = none)
include h

theorem await_nil :
    await files e .working [] =
      { (Reading.ending (finish.run (applyQueued files e).editor .working) (.ok .endOfInput)
          []).behind ((applyQueued files).run e .working) with exhausted := true } := by
  simp only [await, run_working_value, h, run_working_editor, run_working_sink]

variable (rest : List Delivery)

theorem await_failure (message : String) :
    await files e .working (.failure message :: rest) =
      .ending ((applyQueued files).run e .working) (.error (.io message)) rest := by
  simp only [await, run_working_value, h]

theorem await_shutdown :
    await files e .working (.shutdown :: rest) =
      .ending ((applyQueued files).run e .working) (.error .closed) rest := by
  simp only [await, run_working_value, h]

theorem await_empty :
    await files e .working (.bytes [] :: rest) =
      (Reading.ending (finish.run (applyQueued files e).editor .working) (.ok .endOfInput)
        rest).behind ((applyQueued files).run e .working) := by
  simp only [await, run_working_value, h, run_working_editor, run_working_sink]

theorem await_bytes (b : UInt8) (bs : List UInt8) :
    await files e .working (.bytes (b :: bs) :: rest) =
      ((await files (take (b :: bs) (applyQueued files e).editor).editor .working rest).behind
        ((take (b :: bs)).run (applyQueued files e).editor .working)).behind
        ((applyQueued files).run e .working) := by
  simp only [await, run_working_value, h, run_working_editor, run_working_sink]

end Idle

theorem editor_finish (e : Editor) : (finish e).editor = withDue e true := by
  simp [finish, withDue]

theorem written_finish (e : Editor) : finish.written e = [] := by
  simp [finish]

theorem editor_take (bs : List UInt8) (e : Editor) :
    (take bs e).editor = (enqueue bs e).editor := by
  simp [take]

theorem written_take (bs : List UInt8) (e : Editor) : (take bs).written e = [] := by
  simp [take, written_enqueue]

/-- A call that finds no bytes. -/
theorem IsCut.finishing (e' : Editor) (due : Bool) (carry : List Char)
    (deliveries : List Delivery) :
    IsCut files (.ending (finish.run (withDue e' due) .working) (.ok .endOfInput) deliveries) due
      carry (⟨carry, .ok .endOfInput, e'⟩ ::
        cutsOfEvents files (cuts files deliveries) e'.queue [] e') := by
  have heditor : (finish (withDue e' due)).editor =
      withDue e' (due || endsLine (.ok .endOfInput)) := by
    simp [editor_finish, endsLine, Outcome.endsLine, withDue]
  have hending : IsCut files
      (.ending (finish.run (withDue e' due) .working) (.ok .endOfInput) deliveries) due carry _ :=
    IsCut.ending files heditor
  rw [written_finish, List.append_nil] at hending
  exact hending

/-- **A call is a cut.** Waiting for an outcome comes to the first cut of what is queued and then
    of what is delivered. -/
theorem await_eq_cut (deliveries : List Delivery) (e : Editor) (due : Bool) (carry : List Char) :
    IsCut files (await files (withDue e due) .working deliveries) due carry
      (cutsOfEvents files (cuts files deliveries) e.queue carry e) := by
  induction deliveries generalizing e carry with
  | nil =>
      rcases applyQueued_eq_cut files (cuts files []) e due carry with
        ⟨e', hvalue, heditor, hqueue, hcuts⟩ | ⟨outcome, e', hvalue, heditor, hcuts⟩
      · rw [await_nil files hvalue, heditor, hcuts]
        refine ⟨run_working_sink _ _, e', ?_, ?_⟩
        · simp only [Reading.behind, Reading.ending, run_working_editor, editor_finish, endsLine,
            Outcome.endsLine, Bool.or_true]
          rfl
        · simp only [Reading.behind, Reading.ending, run_working_output, written_finish,
            List.append_nil, if_true]
          rfl
      · rw [await_of_outcome files hvalue, hcuts]
        exact IsCut.ending files heditor
  | cons delivery rest ih =>
      rcases applyQueued_eq_cut files (cuts files (delivery :: rest)) e due carry with
        ⟨e', hvalue, heditor, hqueue, hcuts⟩ | ⟨outcome, e', hvalue, heditor, hcuts⟩
      · rw [hcuts]
        -- nothing is queued any more, so the delivery decides
        have hgo : cuts files rest [] e' =
            cutsOfEvents files (cuts files rest) e'.queue [] e' := by
          rw [hqueue]
          rfl
        cases delivery with
        | failure message =>
            rw [await_failure files hvalue, cuts, hgo]
            exact IsCut.ending files (by rw [heditor]; simp [endsLine])
        | shutdown =>
            rw [await_shutdown files hvalue, cuts, hgo]
            exact IsCut.ending files (by rw [heditor]; simp [endsLine])
        | bytes bs =>
            cases bs with
            | nil =>
                rw [await_empty files hvalue, heditor]
                refine IsCut.behind files ?_
                rw [run_working_output, cuts, hgo]
                exact IsCut.finishing files e' due _ rest
            | cons b bs =>
                rw [await_bytes files hvalue, heditor]
                refine IsCut.behind files (IsCut.behind files ?_)
                have hlater := ih (enqueue (b :: bs) e').editor
                  (carry ++ (applyQueued files).written (withDue e due))
                have htaken : (take (b :: bs) (withDue e' due)).editor =
                    withDue (enqueue (b :: bs) e').editor due := by
                  rw [editor_take, editor_enqueue, editor_enqueue]
                  rfl
                rw [run_working_output, run_working_output, written_take, List.append_nil, htaken]
                exact hlater
      · rw [await_of_outcome files hvalue, hcuts]
        exact IsCut.ending files heditor

/-! ## All calls -/

/-- The prompt and the line, and what moves the cursor from the end of the line to its place. -/
def promptAndLine (e : Editor) : List Char :=
  e.prompt ++ e.line.text ++ backward e.line.widthAfter

/-- What calls write: the text of their cuts, behind prompt and line in the first call, if they are
    due, and in every call behind an answer that ends the line. -/
def outputs (due : Bool) (e : Editor) : List Cut → List (List Char)
  | [] => []
  | c :: rest =>
    ((if due then promptAndLine e else []) ++ c.written) ::
      outputs (endsLine c.answer) c.editor rest

theorem editor_prompt (e : Editor) (due : Bool) :
    (prompt (withDue e due)).editor = withDue e false := by
  cases due <;> simp [prompt, withDue, editor_renderPrompt]

theorem written_prompt (e : Editor) (due : Bool) :
    prompt.written (withDue e due) = if due then promptAndLine e else [] := by
  cases due <;> simp [prompt, withDue, written_renderPrompt, promptAndLine]

/-- A call shows the prompt where it is due, and then waits. -/
theorem read_eq (e : Editor) (due : Bool) (deliveries : List Delivery) :
    read files (withDue e due) .working deliveries =
      (await files (withDue e false) .working deliveries).behind
        (prompt.run (withDue e due) .working) := by
  rw [read, run_working_value, run_working_editor, run_working_sink, editor_prompt]

/-- As many calls as there are cuts are these cuts one by one, and the last of them finds the end of
    the input. -/
theorem calls_eq_cuts {cs : List Cut} {deliveries : List Delivery} {e : Editor} (due : Bool)
    (hcs : cutsOfEvents files (cuts files deliveries) e.queue [] e = cs) :
    (calls files cs.length (withDue e due) .working deliveries).map Reading.answer =
        cs.map Cut.answer ∧
      (calls files cs.length (withDue e due) .working deliveries).map Reading.output =
        outputs due e cs ∧
      ∃ r c, (calls files cs.length (withDue e due) .working deliveries).getLast? = some r ∧
        cs.getLast? = some c ∧ r.exhausted = true ∧
        r.editor = withDue c.editor (endsLine c.answer) := by
  induction cs generalizing deliveries e due with
  | nil =>
      -- a call is a cut, so there is one
      obtain ⟨_, _, _, hsplit⟩ := await_eq_cut files deliveries e false []
      rw [hcs] at hsplit
      exact absurd hsplit (by simp)
  | cons c rest ih =>
      obtain ⟨hsink, e', heditor, hsplit⟩ := await_eq_cut files deliveries e false []
      rw [hcs] at hsplit
      obtain ⟨rfl, hrest⟩ := List.cons.inj hsplit
      rw [List.length_cons, calls]
      simp only [read_eq, outputs, List.map_cons, written_prompt, Reading.behind,
        run_working_output, List.nil_append, hsink, heditor, Bool.false_or]
      by_cases hexhausted : (await files (withDue e false) .working deliveries).exhausted = true
      · rw [if_pos hexhausted] at hrest
        subst hrest
        exact ⟨rfl, rfl, _, _, rfl, rfl, hexhausted, rfl⟩
      · rw [if_neg hexhausted] at hrest
        obtain ⟨hanswers, houtputs, r, c, hr, hc, hlast, hlastEditor⟩ :=
          ih (endsLine (await files (withDue e false) .working deliveries).answer) hrest.symm
        rw [hanswers, houtputs]
        refine ⟨rfl, rfl, r, c, ?_, ?_, hlast, hlastEditor⟩
        · rw [List.getLast?_cons, hr]
          rfl
        · rw [List.getLast?_cons, hc]
          rfl

/-- **Reading refines acting on input.** However the input is delivered, and wherever reading fails
    or is told to stop, successive calls on a working terminal return the answers of the
    synchronous run in order. Each of them writes what that run writes up to the answer, behind
    prompt and line if it is the first call or the answer before it ended the line. At the end of
    the input the editor is that of the synchronous run, with a prompt due. -/
theorem calls_refine_synchronous {e : Editor} (hqueue : e.queue = []) (hdue : e.needsPrompt = true)
    (deliveries : List Delivery) :
    let run := synchronous files e deliveries
    let readings := calls files run.answers.length e .working deliveries
    readings.map Reading.answer = run.answers ∧
      readings.map Reading.output = outputs true e (cuts files deliveries [] e) ∧
      (cuts files deliveries [] e).map Cut.answer = run.answers ∧
      (cuts files deliveries [] e).flatMap Cut.written = run.written ∧
      ∃ last, readings.getLast? = some last ∧ last.exhausted = true ∧
        last.editor = { run.editor with needsPrompt := true } := by
  have hcover := cover_cuts files deliveries [] e
  -- with nothing queued, the first call has the cuts of the deliveries before it
  have hcuts : cutsOfEvents files (cuts files deliveries) e.queue [] e =
      cuts files deliveries [] e := by
    rw [hqueue]
    rfl
  have he : withDue e true = e := by
    rw [withDue, ← hdue]
  have hlength : (synchronous files e deliveries).answers.length =
      (cuts files deliveries [] e).length := by
    rw [← hcover.answers, List.length_map]
  obtain ⟨hanswers, houtputs, r, c, hr, hc, hexhausted, heditor⟩ := calls_eq_cuts files true hcuts
  rw [he] at hanswers houtputs hr
  dsimp only
  rw [hlength, hanswers, houtputs]
  refine ⟨hcover.answers, rfl, hcover.answers, hcover.written, r, hr, hexhausted, ?_⟩
  obtain ⟨front, written, hends⟩ := hcover.ends
  rw [hends, List.getLast?_concat] at hc
  rw [heditor, ← Option.some.inj hc]
  rfl

end Calls

/-- Two lines in three chunks, with a failure and a shutdown in between. -/
theorem calls_refine_two_lines :
    (calls .empty 6 (.start ['>'] ⟨[], [], .tableOnly⟩ (.empty 10) (80, 24)) .working
        [.bytes [0x6C, 0x73, 0x0D, 0x78], .failure "lost", .bytes [], .shutdown,
          .bytes [0x79, 0x0D]]).map Reading.answer =
      [.ok (.line ['l', 's'] 2), .error (.io "lost"), .ok .endOfInput, .error .closed,
        .ok (.line ['x', 'y'] 2), .ok .endOfInput] :=
  (calls_refine_synchronous .empty
    (e := .start ['>'] ⟨[], [], .tableOnly⟩ (.empty 10) (80, 24)) rfl rfl
    [.bytes [0x6C, 0x73, 0x0D, 0x78], .failure "lost", .bytes [], .shutdown,
      .bytes [0x79, 0x0D]]).1

end Promptline.Reader
