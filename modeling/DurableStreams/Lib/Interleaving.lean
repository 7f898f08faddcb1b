import DurableStreams.Lib.Execution
import Mathlib.Algebra.BigOperators.Group.List.Basic

/-!
# Interleaved threads

A machine runs threads against a shared state. A thread is given by its control state; one step of a
thread looks at the whole system and changes the shared state and its own control state, or is
blocked. An execution is a list of actions, in which threads are started and take steps in any order.
`execute_invariant` carries a fact about every action to whole executions, and `act_cases` says what
one action can do. `Turn` is a condition on the thread whose turn it is; `shared_invariant` carries
facts about the shared state along the executions that meet it.
-/

namespace DurableStreams.Lib

/-- A shared state and the threads that work on it. -/
structure System (σ τ : Type) where
  shared : σ
  threads : List τ

/-- Start a thread for a task, or let a thread take a step. The choice settles what the step leaves
open. -/
inductive Action (ι χ : Type) where
  | spawn (task : ι)
  | run (index : Nat) (choice : χ)

/-- How threads start and what their steps are. A step that is not possible is `none`. -/
structure Machine (σ τ ι χ : Type) where
  start : ι → τ
  next : χ → System σ τ → τ → Option (σ × τ)

namespace Machine

variable {σ τ ι χ : Type} (machine : Machine σ τ ι χ)

/-- The system after one action. A step that is not possible does nothing. -/
def act (system : System σ τ) : Action ι χ → System σ τ
  | .spawn task => ⟨system.shared, system.threads ++ [machine.start task]⟩
  | .run index choice =>
      match system.threads[index]? with
      | none => system
      | some thread =>
          match machine.next choice system thread with
          | none => system
          | some (shared, after) => ⟨shared, system.threads.set index after⟩

/-- The system after a list of actions. -/
def execute (actions : List (Action ι χ)) (system : System σ τ) : System σ τ :=
  actions.foldl machine.act system

variable {machine} {system : System σ τ}

/-- The thread with a number, between those in front of it and those behind it. -/
theorem split_at {threads : List τ} {thread : τ} {index : Nat} (h : threads[index]? = some thread) :
    ∃ front back, threads = front ++ thread :: back ∧ front.length = index := by
  obtain ⟨hindex, rfl⟩ := List.getElem?_eq_some_iff.mp h
  refine ⟨threads.take index, threads.drop (index + 1), ?_, ?_⟩
  · rw [List.cons_getElem_drop_succ, List.take_append_drop]
  · rw [List.length_take]
    omega

/-- Replacing the thread between them. -/
theorem set_split {front back : List τ} {before after : τ} :
    (front ++ before :: back).set front.length after = front ++ after :: back := by
  rw [List.set_append_right _ _ (Nat.le_refl _), Nat.sub_self]
  rfl

/-- What one action can do: nothing, start a thread, or let one of the threads take a step. -/
theorem act_cases (action : Action ι χ) (system : System σ τ) :
    machine.act system action = system ∨
    (∃ task, machine.act system action =
      ⟨system.shared, system.threads ++ [machine.start task]⟩) ∨
    ∃ front thread back choice shared after, system.threads = front ++ thread :: back ∧
      machine.next choice system thread = some (shared, after) ∧
      machine.act system action = ⟨shared, front ++ after :: back⟩ := by
  cases action with
  | spawn task => exact .inr (.inl ⟨task, rfl⟩)
  | run index choice =>
      rw [act]
      cases hthread : system.threads[index]? with
      | none => exact .inl rfl
      | some thread =>
          dsimp only
          cases hnext : machine.next choice system thread with
          | none => exact .inl rfl
          | some result =>
              obtain ⟨shared, after⟩ := result
              obtain ⟨front, back, hsplit, rfl⟩ := split_at hthread
              refine .inr (.inr ⟨front, thread, back, choice, shared, after, hsplit, hnext, ?_⟩)
              dsimp only
              rw [hsplit, set_split]

/-- Which thread has which number does not change, but for the thread that takes the step. -/
theorem get_replaced {front back : List τ} {before after : τ} (index : Nat) :
    (front ++ after :: back)[index]? =
      if index = front.length then some after else (front ++ before :: back)[index]? := by
  split
  · next heq => rw [heq, List.getElem?_append_right (Nat.le_refl _), Nat.sub_self, List.getElem?_cons_zero]
  · next hne =>
      rcases Nat.lt_or_gt_of_ne hne with hlt | hgt
      · rw [List.getElem?_append_left hlt, List.getElem?_append_left hlt]
      · obtain ⟨rest, rfl⟩ := Nat.exists_eq_add_of_lt hgt
        rw [List.getElem?_append_right (by omega), List.getElem?_append_right (by omega)]
        have hrest : front.length + rest + 1 - front.length = rest + 1 := by omega
        rw [hrest, List.getElem?_cons_succ, List.getElem?_cons_succ]

/-- The threads after one of them was replaced. -/
theorem get_set {threads : List τ} {before after : τ} {index : Nat}
    (h : threads[index]? = some before) (other : Nat) :
    (threads.set index after)[other]? = if other = index then some after else threads[other]? := by
  obtain ⟨front, back, rfl, rfl⟩ := split_at h
  rw [set_split, get_replaced]

/-- A thread is one of those there were before, or the last one. -/
theorem get_concat {threads : List τ} {thread other : τ} {index : Nat}
    (h : (threads ++ [thread])[index]? = some other) :
    threads[index]? = some other ∨ (index = threads.length ∧ other = thread) := by
  rcases Nat.lt_or_ge index threads.length with hlt | hge
  · rw [List.getElem?_append_left hlt] at h
    exact .inl h
  · rw [List.getElem?_append_right hge, List.getElem?_singleton] at h
    split at h
    · exact .inr ⟨by omega, (Option.some.inj h).symm⟩
    · cases h

/-- A property that every action keeps holds after every execution. -/
theorem execute_invariant {invariant : System σ τ → Prop}
    (hact : ∀ system action, invariant system → invariant (machine.act system action))
    (actions : List (Action ι χ)) (h : invariant system) :
    invariant (machine.execute actions system) := by
  induction actions generalizing system with
  | nil => exact h
  | cons action actions ih => exact ih (hact system action h)

/-! ## Conditions on turns -/

variable (machine) in
/-- An action as the step of a service without outputs. -/
def step (action : Action ι χ) (system : System σ τ) : Unit × System σ τ :=
  ((), machine.act system action)

/-- The thread that takes a step meets a condition on the shared state and itself. -/
def Turn (permits : σ → τ → Prop) (action : Action ι χ) (system : System σ τ) : Prop :=
  match action with
  | .spawn _ => True
  | .run index _ => ∀ thread ∈ system.threads[index]?, permits system.shared thread

instance (permits : σ → τ → Prop) [∀ shared thread, Decidable (permits shared thread)]
    (action : Action ι χ) (system : System σ τ) : Decidable (Turn permits action system) :=
  match action with
  | .spawn _ => isTrue trivial
  | .run _ _ => inferInstanceAs (Decidable (∀ _ ∈ _, _))

/-- A property of the shared state that every permitted step keeps holds after every execution of
such steps. -/
theorem shared_invariant {permits : σ → τ → Prop} {invariant : σ → Prop}
    (hnext : ∀ choice system thread shared after, permits system.shared thread →
      machine.next choice system thread = some (shared, after) → invariant system.shared →
        invariant shared)
    {actions : List (Action ι χ)} (halong : Along machine.step (Turn permits) actions system)
    (h : invariant system.shared) : invariant (exec machine.step actions system).2.shared := by
  have hstep : ∀ action system, Turn permits action system → invariant system.shared →
      invariant (machine.step action system).2.shared := by
    intro action system hturn h
    cases action with
    | spawn task => exact h
    | run index choice =>
        simp only [step, act]
        cases hthread : system.threads[index]? with
        | none => exact h
        | some thread =>
            dsimp only
            cases hresult : machine.next choice system thread with
            | none => exact h
            | some result =>
                exact hnext choice system thread result.1 result.2 (hturn thread hthread) hresult h
  exact exec_invariant hstep halong h

end Machine

end DurableStreams.Lib
