import MagpieTts.Library.Run

/-!
# Threads that interact with their surroundings

A thread is a program that performs operations on things it shares with others, and goes on with the
reply of each. What the reply is depends on the surroundings; a thread that is right for every reply
is right in every interleaving.

A thread repeats the body of a loop, whose value is the phase that the next pass starts from.

## Main definitions

* `Program Op Reply α`: the programs that perform operations of `Op` and return a value of `α`.
* `Discipline Op Reply γ`: a ledger of the operations performed so far, and the operations that it
  allows.
* `Program.Keeps`: whatever the replies are, the program performs allowed operations only, and the
  ledger has a given property when it returns.
* `Thread`, `Thread.advance`: a program in the middle of its loop, with the trace of its operations.

## Main results

* `Program.keeps_bind`, `Program.Keeps.mono`: the rules of sequencing and of consequence.
* `Thread.disciplined_advance`: a body that keeps the discipline keeps it in every pass.
-/

namespace MagpieTts.Library

universe u

variable {Op : Type u} {Reply : Op → Type u} {α β φ γ : Type u}

/-- A program: it has returned, or it performs an operation and goes on with the reply. -/
inductive Program (Op : Type u) (Reply : Op → Type u) (α : Type u) where
  | done (value : α)
  | perform (operation : Op) (next : Reply operation → Program Op Reply α)

namespace Program

/-- Sequencing. -/
def bind : Program Op Reply α → (α → Program Op Reply β) → Program Op Reply β
  | done value, f => f value
  | perform operation next, f => perform operation fun reply => (next reply).bind f

instance : Monad (Program Op Reply) where
  pure := done
  bind := bind

/-- The program that performs one operation and returns its reply. -/
def call (operation : Op) : Program Op Reply (Reply operation) := perform operation done

end Program

/-- An operation and its reply. -/
abbrev Performed (Op : Type u) (Reply : Op → Type u) := (operation : Op) × Reply operation

/-- A ledger of the operations performed, and the operations it allows. -/
structure Discipline (Op : Type u) (Reply : Op → Type u) (γ : Type u) where
  step : γ → Performed Op Reply → γ
  Allows : γ → Op → Prop

namespace Program

variable {discipline : Discipline Op Reply γ} {ledger : γ}

/-- The program keeps the discipline whatever the replies are, and it returns a value and leaves a
ledger that meet `post`. -/
def Keeps (discipline : Discipline Op Reply γ) (post : α → γ → Prop) :
    Program Op Reply α → γ → Prop
  | done value, ledger => post value ledger
  | perform operation next, ledger => discipline.Allows ledger operation ∧
      ∀ reply, (next reply).Keeps discipline post (discipline.step ledger ⟨operation, reply⟩)

section Rules

variable {post : α → γ → Prop}

@[simp] theorem keeps_done (value : α) :
    (done value : Program Op Reply α).Keeps discipline post ledger ↔ post value ledger := Iff.rfl

@[simp] theorem keeps_pure (value : α) :
    (pure value : Program Op Reply α).Keeps discipline post ledger ↔ post value ledger := Iff.rfl

theorem keeps_perform (operation : Op) (next : Reply operation → Program Op Reply α) :
    (perform operation next).Keeps discipline post ledger ↔ discipline.Allows ledger operation ∧
      ∀ reply, (next reply).Keeps discipline post (discipline.step ledger ⟨operation, reply⟩) :=
  Iff.rfl

@[simp] theorem keeps_call (operation : Op) {post : Reply operation → γ → Prop} :
    (call operation : Program Op Reply _).Keeps discipline post ledger ↔
      discipline.Allows ledger operation ∧
        ∀ reply, post reply (discipline.step ledger ⟨operation, reply⟩) := Iff.rfl

/-- The rule of sequencing. -/
@[simp] theorem keeps_bind (program : Program Op Reply α) (f : α → Program Op Reply β)
    {post : β → γ → Prop} :
    (program >>= f).Keeps discipline post ledger ↔
      program.Keeps discipline (fun value => (f value).Keeps discipline post) ledger := by
  change (program.bind f).Keeps discipline post ledger ↔ _
  induction program generalizing ledger with
  | done value => exact Iff.rfl
  | perform operation next ih =>
    rw [bind, keeps_perform, keeps_perform]
    exact and_congr_right fun _ => forall_congr' fun reply => ih reply

/-- The rule of consequence. -/
theorem Keeps.mono {program : Program Op Reply α} {post' : α → γ → Prop}
    (h : program.Keeps discipline post ledger) (hpost : ∀ value ledger, post value ledger →
      post' value ledger) : program.Keeps discipline post' ledger := by
  induction program generalizing ledger with
  | done value => exact hpost value ledger h
  | perform operation next ih => exact ⟨h.1, fun reply => ih reply (h.2 reply)⟩

end Rules

end Program

/-! ### Threads -/

/-- A thread: what is left of the current pass, and the operations performed so far. -/
structure Thread (Op : Type u) (Reply : Op → Type u) (φ : Type u) where
  residual : Program Op Reply φ
  trace : List (Performed Op Reply)

namespace Thread

/-- One step of a thread. At the end of a pass the next one begins. An operation that gets no reply
blocks. -/
def advance (body : φ → Program Op Reply φ) (answer : (operation : Op) → Option (Reply operation))
    (thread : Thread Op Reply φ) : Thread Op Reply φ :=
  match thread.residual with
  | .done phase => { thread with residual := body phase }
  | .perform operation next =>
    match answer operation with
    | none => thread
    | some reply => ⟨next reply, thread.trace ++ [⟨operation, reply⟩]⟩

variable {discipline : Discipline Op Reply γ} {first : γ} {Inv : φ → γ → Prop}
  {body : φ → Program Op Reply φ} {thread : Thread Op Reply φ}

/-- The ledger of the operations performed so far. -/
def ledger (discipline : Discipline Op Reply γ) (first : γ) (thread : Thread Op Reply φ) : γ :=
  run discipline.step first thread.trace

/-- The trace keeps the discipline, and so will what is left of the pass. -/
structure Disciplined (discipline : Discipline Op Reply γ) (first : γ) (Inv : φ → γ → Prop)
    (thread : Thread Op Reply φ) : Prop where
  trace_allowed : StepsMeet discipline.step (fun ledger entry => discipline.Allows ledger entry.1)
    first thread.trace
  residual_keeps : thread.residual.Keeps discipline Inv (thread.ledger discipline first)

/-- **The rule of loops.** When every pass that starts from the invariant keeps the discipline and
restores the invariant, every step of the thread keeps the discipline. -/
theorem disciplined_advance (h : thread.Disciplined discipline first Inv)
    (hbody : ∀ phase ledger, Inv phase ledger → (body phase).Keeps discipline Inv ledger)
    (answer : (operation : Op) → Option (Reply operation)) :
    (thread.advance body answer).Disciplined discipline first Inv := by
  obtain ⟨residual, trace⟩ := thread
  obtain ⟨hallowed, hkeeps⟩ := h
  cases residual with
  | done phase => exact ⟨hallowed, hbody phase _ hkeeps⟩
  | perform operation next =>
    rcases hanswer : answer operation with _ | reply
    · simp only [advance, hanswer]
      exact ⟨hallowed, hkeeps⟩
    · simp only [advance, hanswer]
      refine ⟨?_, ?_⟩
      · rw [stepsMeet_append]
        exact ⟨hallowed, hkeeps.1, trivial⟩
      · rw [ledger, run_concat]
        exact hkeeps.2 reply

end Thread

end MagpieTts.Library
