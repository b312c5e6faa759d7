import Mathlib.Tactic

/-!
# Computations that stop at awaited operations

An asynchronous handler runs until it awaits an operation of its environment,
such as a send into a channel, and goes on with the answer.  `Await` is the
tree of all continuations of such a handler, with the handler's state visible
at every point where another task can run.
-/

namespace P2PNetwork.Handler

/-- A handler over the state `σ` that issues operations `ε`, receives answers
`ζ` and returns an `α`. -/
inductive Await (σ ε ζ α : Type) where
  | done (state : σ) (value : α)
  | issue (state : σ) (operation : ε) (resume : ζ → Await σ ε ζ α)

/-- How one turn of an event loop ends: with the next turn, by leaving the
loop, or by a panic of the task. -/
inductive Flow (ρ : Type) where
  | next
  | leave (result : ρ)
  | panicked
  deriving DecidableEq

variable {σ τ ε ζ α β γ : Type}

namespace Await

/-- The state another task would observe. -/
def state : Await σ ε ζ α → σ
  | .done state _ => state
  | .issue state _ _ => state

def bind : Await σ ε ζ α → (σ → α → Await σ ε ζ β) → Await σ ε ζ β
  | .done state value, next => next state value
  | .issue state operation resume, next =>
      .issue state operation fun answer => (resume answer).bind next

@[simp]
theorem state_done (state : σ) (value : α) :
    (Await.done state value : Await σ ε ζ α).state = state := rfl

@[simp]
theorem state_issue (state : σ) (operation : ε) (resume : ζ → Await σ ε ζ α) :
    (Await.issue state operation resume).state = state := rfl

/-- Answer the operation a handler awaits. -/
def answered (reply : ζ) : Await σ ε ζ α → Await σ ε ζ α
  | .done state value => .done state value
  | .issue _ _ resume => resume reply

/-- Run a handler of a component inside the state it is a component of. -/
def within (embed : σ → τ) : Await σ ε ζ α → Await τ ε ζ α
  | .done state value => .done (embed state) value
  | .issue state operation resume =>
      .issue (embed state) operation fun answer => (resume answer).within embed

/-- The operations issued, the final state and the value when every operation
is answered by `answer`. -/
def runWith (answer : ε → ζ) : Await σ ε ζ α → List ε × σ × α
  | .done state value => ([], state, value)
  | .issue _ operation resume =>
      let rest := (resume (answer operation)).runWith answer
      (operation :: rest.1, rest.2)

@[simp]
theorem bind_done (state : σ) (value : α) (next : σ → α → Await σ ε ζ β) :
    (Await.done state value).bind next = next state value := rfl

@[simp]
theorem bind_issue (state : σ) (operation : ε) (resume : ζ → Await σ ε ζ α)
    (next : σ → α → Await σ ε ζ β) :
    (Await.issue state operation resume).bind next =
      .issue state operation fun answer => (resume answer).bind next := rfl

@[simp]
theorem within_done (embed : σ → τ) (state : σ) (value : α) :
    (Await.done state value : Await σ ε ζ α).within embed =
      .done (embed state) value := rfl

@[simp]
theorem within_issue (embed : σ → τ) (state : σ) (operation : ε)
    (resume : ζ → Await σ ε ζ α) :
    (Await.issue state operation resume).within embed =
      .issue (embed state) operation
        fun answer => (resume answer).within embed := rfl

@[simp]
theorem runWith_done (answer : ε → ζ) (state : σ) (value : α) :
    (Await.done state value).runWith answer = ([], state, value) := rfl

@[simp]
theorem runWith_issue (answer : ε → ζ) (state : σ) (operation : ε)
    (resume : ζ → Await σ ε ζ α) :
    (Await.issue state operation resume).runWith answer =
      (operation :: ((resume (answer operation)).runWith answer).1,
        ((resume (answer operation)).runWith answer).2) := rfl

theorem runWith_bind (answer : ε → ζ) (handler : Await σ ε ζ α)
    (next : σ → α → Await σ ε ζ β) {operations : List ε} {state : σ} {value : α}
    (hrun : handler.runWith answer = (operations, state, value)) :
    (handler.bind next).runWith answer =
      (operations ++ ((next state value).runWith answer).1,
        ((next state value).runWith answer).2) := by
  induction handler generalizing operations with
  | done state' value' =>
      simp only [runWith_done, Prod.mk.injEq] at hrun
      obtain ⟨rfl, rfl, rfl⟩ := hrun
      simp
  | issue state' operation resume ih =>
      simp only [runWith_issue, Prod.mk.injEq] at hrun
      obtain ⟨rfl, hrest⟩ := hrun
      simp [ih (answer operation) (Prod.ext rfl hrest)]

theorem runWith_within (answer : ε → ζ) (embed : σ → τ)
    (handler : Await σ ε ζ α) :
    (handler.within embed).runWith answer =
      ((handler.runWith answer).1, embed (handler.runWith answer).2.1,
        (handler.runWith answer).2.2) := by
  induction handler with
  | done state value => rfl
  | issue state operation resume ih => simp [ih]

/-- What holds at every stop of a handler and at its end.  The ghost value
`γ` records the history: it starts as given and is extended by every operation
with its answer. -/
def Holds (extend : γ → ε → ζ → γ) (stop : γ → σ → ε → Prop)
    (finish : γ → σ → α → Prop) : γ → Await σ ε ζ α → Prop
  | ghost, .done state value => finish ghost state value
  | ghost, .issue state operation resume =>
      stop ghost state operation ∧
        ∀ answer, (resume answer).Holds extend stop finish
          (extend ghost operation answer)

variable {extend : γ → ε → ζ → γ} {stop : γ → σ → ε → Prop}
variable {finish : γ → σ → α → Prop}

@[simp]
theorem holds_done {ghost : γ} {state : σ} {value : α} :
    (Await.done state value).Holds extend stop finish ghost ↔
      finish ghost state value := Iff.rfl

@[simp]
theorem holds_issue {ghost : γ} {state : σ} {operation : ε}
    {resume : ζ → Await σ ε ζ α} :
    (Await.issue state operation resume).Holds extend stop finish ghost ↔
      stop ghost state operation ∧
        ∀ answer, (resume answer).Holds extend stop finish
          (extend ghost operation answer) := Iff.rfl

/-- Weaken what holds at the stops and at the end. -/
theorem Holds.mono {stop' : γ → σ → ε → Prop} {finish' : γ → σ → α → Prop}
    {handler : Await σ ε ζ α} {ghost : γ}
    (hholds : handler.Holds extend stop finish ghost)
    (hstop : ∀ ghost state operation,
      stop ghost state operation → stop' ghost state operation)
    (hfinish : ∀ ghost state value,
      finish ghost state value → finish' ghost state value) :
    handler.Holds extend stop' finish' ghost := by
  induction handler generalizing ghost with
  | done state value => exact hfinish _ _ _ hholds
  | issue state operation resume ih =>
      exact ⟨hstop _ _ _ hholds.1, fun answer => ih answer (hholds.2 answer)⟩

/-- What holds for one history holds for a later one, when the promises are
kept as time goes by. -/
theorem Holds.later {le : γ → γ → Prop} {handler : Await σ ε ζ α}
    {ghost ghost' : γ} (hholds : handler.Holds extend stop finish ghost)
    (hle : le ghost ghost')
    (hextend : ∀ ghost ghost' operation answer, le ghost ghost' →
      le (extend ghost operation answer) (extend ghost' operation answer))
    (hstop : ∀ ghost ghost' state operation, le ghost ghost' →
      stop ghost state operation → stop ghost' state operation)
    (hfinish : ∀ ghost ghost' state value, le ghost ghost' →
      finish ghost state value → finish ghost' state value) :
    handler.Holds extend stop finish ghost' := by
  induction handler generalizing ghost ghost' with
  | done state value => exact hfinish _ _ _ _ hle hholds
  | issue state operation resume ih =>
      exact ⟨hstop _ _ _ _ hle hholds.1, fun answer =>
        ih answer (hholds.2 answer) (hextend _ _ _ _ hle)⟩

/-- A history that is part of a longer one. -/
theorem Holds.map {δ : Type} {extend' : δ → ε → ζ → δ} {stop' : δ → σ → ε → Prop}
    {finish' : δ → σ → α → Prop} {handler : Await σ ε ζ α} {ghost : γ}
    (embed : γ → δ) (hholds : handler.Holds extend stop finish ghost)
    (hextend : ∀ ghost operation answer,
      embed (extend ghost operation answer) =
        extend' (embed ghost) operation answer)
    (hstop : ∀ ghost state operation,
      stop ghost state operation → stop' (embed ghost) state operation)
    (hfinish : ∀ ghost state value,
      finish ghost state value → finish' (embed ghost) state value) :
    handler.Holds extend' stop' finish' (embed ghost) := by
  induction handler generalizing ghost with
  | done state value => exact hfinish _ _ _ hholds
  | issue state operation resume ih =>
      refine ⟨hstop _ _ _ hholds.1, fun answer => ?_⟩
      rw [← hextend]
      exact ih answer (hholds.2 answer)

/-- Sequencing: the second handler starts from what the first one ends with. -/
theorem Holds.bind {finish' : γ → σ → β → Prop} {handler : Await σ ε ζ α}
    {next : σ → α → Await σ ε ζ β} {ghost : γ}
    (hholds : handler.Holds extend stop finish ghost)
    (hnext : ∀ ghost state value, finish ghost state value →
      (next state value).Holds extend stop finish' ghost) :
    (handler.bind next).Holds extend stop finish' ghost := by
  induction handler generalizing ghost with
  | done state value => exact hnext _ _ _ hholds
  | issue state operation resume ih =>
      exact ⟨hholds.1, fun answer => ih answer (hholds.2 answer)⟩

/-- What holds of the operation at every stop holds of every operation that a
run issues. -/
theorem Holds.operations {issued : ε → Prop} {handler : Await σ ε ζ α}
    {ghost : γ}
    (hholds : handler.Holds extend (fun _ _ operation => issued operation)
      finish ghost) (answer : ε → ζ) :
    ∀ operation ∈ (handler.runWith answer).1, issued operation := by
  induction handler generalizing ghost with
  | done state value => exact nofun
  | issue state operation resume ih =>
      intro other hother
      obtain rfl | hother := List.mem_cons.mp hother
      · exact hholds.1
      · exact ih (answer operation) (hholds.2 (answer operation)) other hother

/-- A handler of a component, seen in the enclosing state. -/
theorem holds_within {stop : γ → τ → ε → Prop} {finish : γ → τ → α → Prop}
    {embed : σ → τ} {handler : Await σ ε ζ α} {ghost : γ} :
    (handler.within embed).Holds extend stop finish ghost ↔
      handler.Holds extend (fun ghost state => stop ghost (embed state))
        (fun ghost state => finish ghost (embed state)) ghost := by
  induction handler generalizing ghost with
  | done state value => exact Iff.rfl
  | issue state operation resume ih => simp [ih]

/-- A handler that issues at most one operation. -/
def SingleSend : Await σ ε ζ α → Prop
  | .done _ _ => True
  | .issue _ _ resume => ∀ answer, ∃ state value, resume answer = .done state value

@[simp]
theorem singleSend_done {state : σ} {value : α} :
    (Await.done state value : Await σ ε ζ α).SingleSend := trivial

@[simp]
theorem singleSend_issue {state : σ} {operation : ε}
    {resume : ζ → Await σ ε ζ α} :
    (Await.issue state operation resume).SingleSend ↔
      ∀ answer, ∃ state value, resume answer = .done state value := Iff.rfl

theorem SingleSend.resume {state : σ} {operation : ε}
    {resume : ζ → Await σ ε ζ α}
    (hsingle : (Await.issue state operation resume).SingleSend) (answer : ζ) :
    (resume answer).SingleSend := by
  obtain ⟨state', value, hdone⟩ := hsingle answer
  simp [hdone]

/-- However its operations are answered, the handler ends with a value in
`allowed`. -/
def Yields (allowed : α → Prop) : Await σ ε ζ α → Prop
  | .done _ value => allowed value
  | .issue _ _ resume => ∀ answer, (resume answer).Yields allowed

@[simp]
theorem yields_done {allowed : α → Prop} {state : σ} {value : α} :
    (Await.done state value : Await σ ε ζ α).Yields allowed ↔ allowed value :=
  Iff.rfl

@[simp]
theorem yields_issue {allowed : α → Prop} {state : σ} {operation : ε}
    {resume : ζ → Await σ ε ζ α} :
    (Await.issue state operation resume).Yields allowed ↔
      ∀ answer, (resume answer).Yields allowed := Iff.rfl

/-- What every continuation ends with, the sequence ends with. -/
theorem yields_bind {allowed : β → Prop} {next : σ → α → Await σ ε ζ β}
    (handler : Await σ ε ζ α)
    (hnext : ∀ state value, (next state value).Yields allowed) :
    (handler.bind next).Yields allowed := by
  induction handler with
  | done state value => exact hnext state value
  | issue state operation resume ih => exact ih

/-- The most that a handler comes to, over all answers: `price` for every
operation and `rest` for its end. -/
def cost (price : ε → ℕ) (rest : σ → α → ℕ) : Await σ ε Bool α → ℕ
  | .done state value => rest state value
  | .issue _ operation resume =>
      price operation +
        max ((resume true).cost price rest) ((resume false).cost price rest)

@[simp]
theorem cost_done (price : ε → ℕ) (rest : σ → α → ℕ) (state : σ) (value : α) :
    (Await.done state value).cost price rest = rest state value := rfl

@[simp]
theorem cost_issue (price : ε → ℕ) (rest : σ → α → ℕ) (state : σ)
    (operation : ε) (resume : Bool → Await σ ε Bool α) :
    (Await.issue state operation resume).cost price rest =
      price operation +
        max ((resume true).cost price rest) ((resume false).cost price rest) :=
  rfl

/-- An answer takes the price of the operation off. -/
theorem cost_resume_le (price : ε → ℕ) (rest : σ → α → ℕ) (state : σ)
    (operation : ε) (resume : Bool → Await σ ε Bool α) (answer : Bool) :
    price operation + (resume answer).cost price rest ≤
      (Await.issue state operation resume).cost price rest := by
  cases answer
  · exact Nat.add_le_add_left (le_max_right _ _) _
  · exact Nat.add_le_add_left (le_max_left _ _) _

theorem cost_bind (price : ε → ℕ) (rest : σ → β → ℕ)
    (handler : Await σ ε Bool α) (next : σ → α → Await σ ε Bool β) :
    (handler.bind next).cost price rest =
      handler.cost price fun state value => (next state value).cost price rest := by
  induction handler with
  | done state value => rfl
  | issue state operation resume ih => simp [ih]

theorem cost_within (price : ε → ℕ) (rest : τ → α → ℕ) (embed : σ → τ)
    (handler : Await σ ε Bool α) :
    (handler.within embed).cost price rest =
      handler.cost price fun state => rest (embed state) := by
  induction handler with
  | done state value => rfl
  | issue state operation resume ih => simp [ih]

theorem cost_mono {price : ε → ℕ} {rest rest' : σ → α → ℕ}
    (handler : Await σ ε Bool α)
    (hrest : ∀ state value, rest state value ≤ rest' state value) :
    handler.cost price rest ≤ handler.cost price rest' := by
  induction handler with
  | done state value => exact hrest state value
  | issue state operation resume ih =>
      exact Nat.add_le_add_left (max_le_max (ih true) (ih false)) _

/-- Every answer moves the visible state along `relation`. -/
def Moves (relation : σ → σ → Prop) : Await σ ε ζ α → Prop
  | .done _ _ => True
  | .issue state _ resume =>
      ∀ answer, relation state (resume answer).state ∧
        (resume answer).Moves relation

@[simp]
theorem moves_done {relation : σ → σ → Prop} {state : σ} {value : α} :
    (Await.done state value : Await σ ε ζ α).Moves relation := trivial

@[simp]
theorem moves_issue {relation : σ → σ → Prop} {state : σ} {operation : ε}
    {resume : ζ → Await σ ε ζ α} :
    (Await.issue state operation resume).Moves relation ↔
      ∀ answer, relation state (resume answer).state ∧
        (resume answer).Moves relation := Iff.rfl

@[simp]
theorem state_within {embed : σ → τ} {handler : Await σ ε ζ α} :
    (handler.within embed).state = embed handler.state := by
  cases handler <;> rfl

theorem state_bind {handler : Await σ ε ζ α}
    {next : σ → α → Await σ ε ζ β}
    (hnext : ∀ state value, (next state value).state = state) :
    (handler.bind next).state = handler.state := by
  cases handler with
  | done state value => exact hnext state value
  | issue state operation resume => rfl

theorem Moves.bind {relation : σ → σ → Prop} {handler : Await σ ε ζ α}
    {next : σ → α → Await σ ε ζ β} (hmoves : handler.Moves relation)
    (hstate : ∀ state value, (next state value).state = state)
    (hnext : ∀ state value, (next state value).Moves relation) :
    (handler.bind next).Moves relation := by
  induction handler with
  | done state value => exact hnext state value
  | issue state operation resume ih =>
      intro answer
      rw [state_bind hstate]
      exact ⟨(hmoves answer).1, ih answer (hmoves answer).2⟩

theorem moves_within {relation : τ → τ → Prop} {embed : σ → τ}
    {handler : Await σ ε ζ α} :
    (handler.within embed).Moves relation ↔
      handler.Moves fun before after =>
        relation (embed before) (embed after) := by
  induction handler with
  | done state value => simp
  | issue state operation resume ih => simp [ih]

theorem Moves.mono {relation relation' : σ → σ → Prop}
    {handler : Await σ ε ζ α} (hmoves : handler.Moves relation)
    (hrelation : ∀ before after, relation before after →
      relation' before after) : handler.Moves relation' := by
  induction handler with
  | done state value => trivial
  | issue state operation resume ih =>
      exact fun answer =>
        ⟨hrelation _ _ (hmoves answer).1, ih answer (hmoves answer).2⟩

end Await

end P2PNetwork.Handler
