import P2PNetwork.Core.Handler

/-!
# Runs and event loops

Finite runs of a labelled transition relation, and the transition relation of
a task that takes inputs one at a time and handles each by a computation with
awaited operations.  A ghost value can be carried along to record the history.
-/

namespace P2PNetwork.EventLoop

open P2PNetwork.Handler

/-! ## Runs -/

section Runs

variable {State Label : Type}

/-- Finite runs, with the labels of their steps in order. -/
inductive Run (step : State → Label → State → Prop) :
    State → List Label → State → Prop where
  | refl (first : State) : Run step first [] first
  | tail {first middle last : State} {labels : List Label} {label : Label}
      (run : Run step first labels middle) (last_step : step middle label last) :
      Run step first (labels ++ [label]) last

/-- The steps of a relation that meet a condition on the state before the
step and on its label. -/
def Restrict (step : State → Label → State → Prop)
    (condition : State → Label → Prop) (before : State) (label : Label)
    (after : State) : Prop :=
  condition before label ∧ step before label after

/-- None of the steps that a system makes of its own can be taken. -/
def Quiescent (step : State → Label → State → Prop) (internal : Label → Prop)
    (state : State) : Prop :=
  ∀ label next, internal label → ¬ step state label next

/-- An invariant of the initial state that every step preserves holds at the
end of every run. -/
theorem Run.invariant {step : State → Label → State → Prop}
    {first last : State} {labels : List Label}
    (run : Run step first labels last) (invariant : State → Prop)
    (hfirst : invariant first)
    (hstep : ∀ before label after, invariant before →
      step before label after → invariant after) : invariant last := by
  induction run with
  | refl => exact hfirst
  | tail _ last_step ih => exact hstep _ _ _ ih last_step

/-- What an invariant forbids does not happen in a run. -/
theorem Run.forall_labels {step : State → Label → State → Prop}
    {first last : State} {labels : List Label}
    (run : Run step first labels last) (invariant : State → Prop)
    (hfirst : invariant first)
    (hstep : ∀ before label after, invariant before →
      step before label after → invariant after)
    {allowed : Label → Prop}
    (hallowed : ∀ before label after, invariant before →
      step before label after → allowed label) :
    ∀ label ∈ labels, allowed label := by
  induction run with
  | refl => exact nofun
  | tail run last_step ih =>
      intro label hlabel
      obtain hlabel | hlabel := List.mem_append.mp hlabel
      · exact ih label hlabel
      · rw [List.mem_singleton.mp hlabel]
        exact hallowed _ _ _ (run.invariant invariant hfirst hstep) last_step

theorem Run.trans {step : State → Label → State → Prop}
    {first middle last : State} {left right : List Label}
    (hleft : Run step first left middle) (hright : Run step middle right last) :
    Run step first (left ++ right) last := by
  induction hright with
  | refl => simpa using hleft
  | tail _ last_step ih =>
      rw [← List.append_assoc]
      exact ih.tail last_step

theorem Run.head {step : State → Label → State → Prop}
    {first middle last : State} {label : Label} {labels : List Label}
    (first_step : step first label middle) (run : Run step middle labels last) :
    Run step first (label :: labels) last :=
  Run.trans (Run.tail (Run.refl first) first_step) run

/-- A weaker relation has at least the same runs. -/
theorem Run.mono {step step' : State → Label → State → Prop}
    {first last : State} {labels : List Label}
    (run : Run step first labels last)
    (hstep : ∀ before label after,
      step before label after → step' before label after) :
    Run step' first labels last := by
  induction run with
  | refl => exact .refl _
  | tail _ last_step ih => exact ih.tail (hstep _ _ _ last_step)

theorem Run.of_restrict {step : State → Label → State → Prop}
    {condition : State → Label → Prop} {first last : State}
    {labels : List Label}
    (run : Run (Restrict step condition) first labels last) :
    Run step first labels last :=
  run.mono fun _ _ _ hstep => hstep.2

/-- A run whose labels meet a condition in any state is a run under it. -/
theorem Run.restrict {step : State → Label → State → Prop}
    {condition : State → Label → Prop} {first last : State}
    {labels : List Label} (run : Run step first labels last)
    (hlabels : ∀ label ∈ labels, ∀ before, condition before label) :
    Run (Restrict step condition) first labels last := by
  induction run with
  | refl => exact .refl _
  | tail _ last_step ih =>
      have hearlier := ih fun label hlabel =>
        hlabels label (List.mem_append_left _ hlabel)
      exact hearlier.tail ⟨hlabels _ (by simp) _, last_step⟩

/-- A weight that every step of a kind takes from bounds the number of such
steps in a row. -/
theorem Run.length_le {step : State → Label → State → Prop}
    {kind : Label → Prop} {first last : State} {labels : List Label}
    (run : Run (Restrict step fun _ label => kind label) first labels last)
    (invariant : State → Prop) (weight : State → ℕ) (hfirst : invariant first)
    (hstep : ∀ before label after, invariant before →
      step before label after → invariant after)
    (hweight : ∀ before label after, invariant before → kind label →
      step before label after → weight after < weight before) :
    weight last + labels.length ≤ weight first := by
  induction run with
  | refl => exact le_refl _
  | tail run last_step ih =>
      have hmiddle := run.of_restrict.invariant invariant hfirst hstep
      have hless := hweight _ _ _ hmiddle last_step.1 last_step.2
      rw [List.length_append, List.length_singleton]
      omega

/-- If so, every state comes to rest by steps of the kind. -/
theorem exists_quiescent {step : State → Label → State → Prop}
    {kind : Label → Prop} (invariant : State → Prop) (weight : State → ℕ)
    (hstep : ∀ before label after, invariant before →
      step before label after → invariant after)
    (hweight : ∀ before label after, invariant before → kind label →
      step before label after → weight after < weight before)
    (first : State) (hfirst : invariant first) :
    ∃ labels last, Run (Restrict step fun _ label => kind label) first labels
      last ∧ Quiescent step kind last := by
  induction hbound : weight first using Nat.strong_induction_on
    generalizing first with
  | _ bound ih =>
      by_cases hquiescent : Quiescent step kind first
      · exact ⟨[], first, .refl first, hquiescent⟩
      · simp only [Quiescent, not_forall, not_not] at hquiescent
        obtain ⟨label, next, hkind, hnext⟩ := hquiescent
        have hless := hweight _ _ _ hfirst hkind hnext
        obtain ⟨labels, last, run, hrest⟩ :=
          ih (weight next) (hbound ▸ hless) next (hstep _ _ _ hfirst hnext) rfl
        exact ⟨label :: labels, last, Run.head ⟨hkind, hnext⟩ run, hrest⟩

/-- The steps of a relation, with what is recorded of them on the way. -/
def Traced {Trace : Type} (step : State → Label → State → Prop)
    (extend : Trace → State → Label → Trace) (before : State × Trace)
    (label : Label) (after : State × Trace) : Prop :=
  step before.1 label after.1 ∧ after.2 = extend before.2 before.1 label

/-- Every run can be recorded. -/
theorem Run.traced {Trace : Type} {step : State → Label → State → Prop}
    {first last : State} {labels : List Label}
    (run : Run step first labels last) (extend : Trace → State → Label → Trace)
    (trace : Trace) :
    ∃ trace', Run (Traced step extend) (first, trace) labels (last, trace') := by
  induction run with
  | refl => exact ⟨trace, .refl _⟩
  | tail run last_step ih =>
      obtain ⟨reached, hrun⟩ := ih
      exact ⟨_, hrun.tail ⟨last_step, rfl⟩⟩

end Runs

/-! ## Event loops -/

section Loops

variable {σ ι ε ζ ρ γ : Type}

/-- A step of an event loop: it takes an input, or the operation it awaits is
answered. -/
inductive LoopLabel (ι ε ζ : Type) where
  | take (input : ι)
  | answer (operation : ε) (reply : ζ)

/-- How the ghost value follows the steps of a loop. -/
structure Ghost (γ σ ι ε ζ : Type) where
  take : γ → σ → ι → γ
  answer : γ → ε → ζ → γ

/-- No history is recorded. -/
def noHistory : Ghost Unit σ ι ε ζ where
  take _ _ _ := ()
  answer _ _ _ := ()

/-- The steps of an event loop whose turns are the handlers `turn`. -/
inductive LoopStep (turn : ι → σ → Await σ ε ζ (Flow ρ))
    (ghost : Ghost γ σ ι ε ζ) :
    Await σ ε ζ (Flow ρ) × γ → LoopLabel ι ε ζ →
      Await σ ε ζ (Flow ρ) × γ → Prop where
  | take {state : σ} {history : γ} (input : ι) :
      LoopStep turn ghost (.done state .next, history) (.take input)
        (turn input state, ghost.take history state input)
  | answer {state : σ} {operation : ε}
      {resume : ζ → Await σ ε ζ (Flow ρ)} {history : γ} (reply : ζ) :
      LoopStep turn ghost (.issue state operation resume, history)
        (.answer operation reply)
        (resume reply, ghost.answer history operation reply)

/-- The same run of a loop with another history recorded. -/
theorem LoopStep.with_ghost {γ' : Type} {turn : ι → σ → Await σ ε ζ (Flow ρ)}
    {ghost : Ghost γ σ ι ε ζ} {first last : Await σ ε ζ (Flow ρ) × γ}
    {labels : List (LoopLabel ι ε ζ)}
    (run : Run (LoopStep turn ghost) first labels last)
    (ghost' : Ghost γ' σ ι ε ζ) (history : γ') :
    ∃ history', Run (LoopStep turn ghost') (first.1, history) labels
      (last.1, history') := by
  induction run with
  | refl => exact ⟨history, .refl _⟩
  | tail run last_step ih =>
      obtain ⟨reached, hrun⟩ := ih
      cases last_step with
      | take input => exact ⟨_, hrun.tail (.take input)⟩
      | answer reply => exact ⟨_, hrun.tail (.answer reply)⟩

/-- What a loop promises at the end of a turn, when it promises `head`
between two turns and `exit` on leaving; a promising loop does not panic. -/
def Finish (head : γ → σ → Prop) (exit : γ → σ → ρ → Prop) (history : γ)
    (state : σ) : Flow ρ → Prop
  | .next => head history state
  | .leave result => exit history state result
  | .panicked => False

/-- What every turn promises at its stops and at its end, provided it starts
where a turn may end with `next` and its input meets the condition of the run,
holds in every state the run of the loop reaches. -/
theorem LoopStep.holds_restrict {turn : ι → σ → Await σ ε ζ (Flow ρ)}
    {ghost : Ghost γ σ ι ε ζ} {stop : γ → σ → ε → Prop}
    {finish : γ → σ → Flow ρ → Prop}
    {condition : Await σ ε ζ (Flow ρ) × γ → LoopLabel ι ε ζ → Prop}
    (hturn : ∀ history state input,
      condition (.done state .next, history) (.take input) →
        finish history state .next →
          (turn input state).Holds ghost.answer stop finish
            (ghost.take history state input))
    {first last : Await σ ε ζ (Flow ρ) × γ} {labels : List (LoopLabel ι ε ζ)}
    (run : Run (Restrict (LoopStep turn ghost) condition) first labels last)
    (hfirst : first.1.Holds ghost.answer stop finish first.2) :
    last.1.Holds ghost.answer stop finish last.2 := by
  refine run.invariant (fun reached =>
    reached.1.Holds ghost.answer stop finish reached.2) hfirst ?_
  rintro before label after hbefore ⟨hcondition, hstep⟩
  cases hstep with
  | take input => exact hturn _ _ _ hcondition hbefore
  | answer reply => exact hbefore.2 reply

/-- The same for the runs of the loop without a condition. -/
theorem LoopStep.holds_run {turn : ι → σ → Await σ ε ζ (Flow ρ)}
    {ghost : Ghost γ σ ι ε ζ} {stop : γ → σ → ε → Prop}
    {finish : γ → σ → Flow ρ → Prop}
    (hturn : ∀ history state input, finish history state .next →
      (turn input state).Holds ghost.answer stop finish
        (ghost.take history state input))
    {state : σ} {history : γ} (hinit : finish history state .next)
    {labels : List (LoopLabel ι ε ζ)} {last : Await σ ε ζ (Flow ρ) × γ}
    (run : Run (LoopStep turn ghost) (.done state .next, history) labels last) :
    last.1.Holds ghost.answer stop finish last.2 := by
  have hrestricted : Run (Restrict (LoopStep turn ghost) fun _ _ => True)
      (.done state .next, history) labels last :=
    run.mono fun _ _ _ hstep => ⟨trivial, hstep⟩
  apply LoopStep.holds_restrict (fun past state input _ => hturn past state input)
    hrestricted
  exact hinit

/-- If every turn that starts in a good state keeps the promises at its stops
and at its end, they hold in every state a run of the loop reaches. -/
theorem LoopStep.holds {turn : ι → σ → Await σ ε ζ (Flow ρ)}
    {ghost : Ghost γ σ ι ε ζ} {head : γ → σ → Prop}
    {stop : γ → σ → ε → Prop} {exit : γ → σ → ρ → Prop}
    (hturn : ∀ history state input, head history state →
      (turn input state).Holds ghost.answer stop (Finish head exit)
        (ghost.take history state input))
    {state : σ} {history : γ} (hinit : head history state)
    {labels : List (LoopLabel ι ε ζ)} {last : Await σ ε ζ (Flow ρ) × γ}
    (run : Run (LoopStep turn ghost) (.done state .next, history) labels last) :
    last.1.Holds ghost.answer stop (Finish head exit) last.2 := by
  have hhead : Finish head exit history state .next := hinit
  exact LoopStep.holds_run hturn hhead run

theorem LoopStep.reached_moves {turn : ι → σ → Await σ ε ζ (Flow ρ)}
    {ghost : Ghost γ σ ι ε ζ} {relation : σ → σ → Prop}
    (hturn : ∀ state input, (turn input state).Moves relation)
    {first last : Await σ ε ζ (Flow ρ) × γ}
    {labels : List (LoopLabel ι ε ζ)}
    (run : Run (LoopStep turn ghost) first labels last)
    (hfirst : first.1.Moves relation) : last.1.Moves relation := by
  refine run.invariant (fun reached => reached.1.Moves relation) hfirst ?_
  intro before label after hbefore hstep
  cases hstep with
  | take input => exact hturn _ _
  | answer reply => exact (hbefore reply).2

/-- If answers move the visible state along a preorder, and so do the inputs
of a run, then the run as a whole does. -/
theorem LoopStep.moved {turn : ι → σ → Await σ ε ζ (Flow ρ)}
    {ghost : Ghost γ σ ι ε ζ} {relation : σ → σ → Prop}
    (hrefl : ∀ state, relation state state)
    (htrans : ∀ first middle last,
      relation first middle → relation middle last → relation first last)
    (hturn : ∀ state input, (turn input state).Moves relation)
    {first last : Await σ ε ζ (Flow ρ) × γ}
    {labels : List (LoopLabel ι ε ζ)}
    (run : Run (LoopStep turn ghost) first labels last)
    (hfirst : first.1.Moves relation)
    (hinputs : ∀ input, .take input ∈ labels →
      ∀ state, relation state (turn input state).state) :
    relation first.1.state last.1.state := by
  induction run with
  | refl => exact hrefl _
  | tail run last_step ih =>
      have hmoved := ih fun input hinput => hinputs input (by simp [hinput])
      have hmiddle := LoopStep.reached_moves hturn run hfirst
      cases last_step with
      | take input => exact htrans _ _ _ hmoved (hinputs input (by simp) _)
      | answer reply => exact htrans _ _ _ hmoved (hmiddle reply).1

/-! ## Loops whose operations have known answers -/

/-- The run of a loop over a list of inputs: the operations issued, the state
and how the last turn ended. -/
def runLoop (turn : ι → σ → Await σ ε ζ (Flow ρ)) (answer : ε → ζ)
    (handler : Await σ ε ζ (Flow ρ)) : List ι → List ε × σ × Flow ρ
  | [] => handler.runWith answer
  | input :: inputs =>
      match handler.runWith answer with
      | (operations, state, .next) =>
          let rest := runLoop turn answer (turn input state) inputs
          (operations ++ rest.1, rest.2)
      | ended => ended

/-- The inputs taken in a run of a loop. -/
def inputsOf (labels : List (LoopLabel ι ε ζ)) : List ι :=
  labels.filterMap fun
    | .take input => some input
    | .answer _ _ => none

/-- The operations answered in a run of a loop. -/
def operationsOf (labels : List (LoopLabel ι ε ζ)) : List ε :=
  labels.filterMap fun
    | .take _ => none
    | .answer operation _ => some operation

variable {turn : ι → σ → Await σ ε ζ (Flow ρ)} {answer : ε → ζ}

theorem runLoop_of_next {handler : Await σ ε ζ (Flow ρ)}
    {operations : List ε} {state : σ}
    (hrun : handler.runWith answer = (operations, state, .next))
    (inputs : List ι) :
    runLoop turn answer handler inputs =
      (operations ++ (runLoop turn answer (.done state .next) inputs).1,
        (runLoop turn answer (.done state .next) inputs).2) := by
  cases inputs with
  | nil => simp [runLoop, hrun]
  | cons input inputs => simp [runLoop, hrun]

theorem runLoop_of_end {handler : Await σ ε ζ (Flow ρ)}
    {operations : List ε} {state : σ} {flow : Flow ρ}
    (hrun : handler.runWith answer = (operations, state, flow))
    (hflow : flow ≠ .next) (inputs : List ι) :
    runLoop turn answer handler inputs = (operations, state, flow) := by
  cases inputs with
  | nil => exact hrun
  | cons input inputs =>
      cases flow with
      | next => exact absurd rfl hflow
      | leave result => simp only [runLoop, hrun]
      | panicked => simp only [runLoop, hrun]

@[simp]
theorem runLoop_next_cons (state : σ) (input : ι) (inputs : List ι) :
    runLoop turn answer (.done state .next) (input :: inputs) =
      runLoop turn answer (turn input state) inputs := by
  simp [runLoop]

theorem runLoop_issue (state : σ) (operation : ε)
    (resume : ζ → Await σ ε ζ (Flow ρ)) (inputs : List ι) :
    runLoop turn answer (.issue state operation resume) inputs =
      (operation ::
          (runLoop turn answer (resume (answer operation)) inputs).1,
        (runLoop turn answer (resume (answer operation)) inputs).2) := by
  cases inputs with
  | nil => rfl
  | cons input inputs =>
      simp only [runLoop, Await.runWith_issue]
      generalize (resume (answer operation)).runWith answer = ended
      obtain ⟨operations, state, flow⟩ := ended
      cases flow <;> rfl

/-- A run of the steps of a loop in which every operation is answered as
foreseen is the run over its inputs. -/
theorem LoopStep.runLoop_append {ghost : Ghost γ σ ι ε ζ}
    {first last : Await σ ε ζ (Flow ρ) × γ}
    {labels : List (LoopLabel ι ε ζ)}
    (run : Run (LoopStep turn ghost) first labels last)
    (hanswers : ∀ operation reply, .answer operation reply ∈ labels →
      reply = answer operation) (inputs : List ι) :
    runLoop turn answer first.1 (inputsOf labels ++ inputs) =
      (operationsOf labels ++ (runLoop turn answer last.1 inputs).1,
        (runLoop turn answer last.1 inputs).2) := by
  induction run generalizing inputs with
  | refl => rfl
  | tail run last_step ih =>
      have hearlier := ih fun operation reply hmem =>
        hanswers operation reply (List.mem_append_left _ hmem)
      cases last_step with
      | @take state history input =>
          have hnext := hearlier (input :: inputs)
          simpa [inputsOf, operationsOf] using hnext
      | @answer state operation resume history reply =>
          obtain rfl := hanswers operation reply (by simp)
          have hnext := hearlier inputs
          rw [runLoop_issue] at hnext
          simpa [inputsOf, operationsOf] using hnext

/-- The operations of a run that ends between two turns, and its last state,
are those of the run over its inputs. -/
theorem LoopStep.runLoop_eq {ghost : Ghost γ σ ι ε ζ} {state state' : σ}
    {flow : Flow ρ} {history history' : γ} {labels : List (LoopLabel ι ε ζ)}
    (run : Run (LoopStep turn ghost) (.done state .next, history) labels
      (.done state' flow, history'))
    (hanswers : ∀ operation reply, .answer operation reply ∈ labels →
      reply = answer operation) :
    runLoop turn answer (.done state .next) (inputsOf labels) =
      (operationsOf labels, state', flow) := by
  simpa [runLoop] using LoopStep.runLoop_append run hanswers []

end Loops

end P2PNetwork.EventLoop
