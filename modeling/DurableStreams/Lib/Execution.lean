/-!
# Runs of deterministic services

A service answers an input in a state with an output and the next state. `exec` runs a list of
inputs. Three rules carry a fact about one step to whole runs: `exec_invariant` for invariants,
`exec_history` for properties of the inputs so far, and `exec_simulation` for two services that answer
alike. `Along` says that every input of a run meets a condition in the state it arrives in; all of
them may use it.
-/

namespace DurableStreams.Lib

variable {σ τ ι ο : Type}

/-- Run a list of inputs, collecting the outputs. -/
def exec (step : ι → σ → ο × σ) : List ι → σ → List ο × σ
  | [], state => ([], state)
  | input :: inputs, state =>
      let (output, next) := step input state
      let (outputs, final) := exec step inputs next
      (output :: outputs, final)

/-- Every input of the run satisfies the condition in the state it arrives in. -/
def Along (step : ι → σ → ο × σ) (condition : ι → σ → Prop) : List ι → σ → Prop
  | [], _ => True
  | input :: inputs, state =>
      condition input state ∧ Along step condition inputs (step input state).2

/-- Whether it does can be found out by running. -/
instance instDecidableAlong (step : ι → σ → ο × σ) (condition : ι → σ → Prop)
    [∀ input state, Decidable (condition input state)] (inputs : List ι) (state : σ) :
    Decidable (Along step condition inputs state) :=
  match inputs with
  | [] => isTrue trivial
  | input :: inputs =>
      have := instDecidableAlong step condition inputs (step input state).2
      inferInstanceAs (Decidable (_ ∧ _))

variable {step : ι → σ → ο × σ} {condition : ι → σ → Prop}

/-- Running no input. -/
@[simp] theorem exec_nil (state : σ) : exec step [] state = ([], state) := rfl

/-- Running one input and then the others. -/
@[simp] theorem exec_cons (input : ι) (inputs : List ι) (state : σ) :
    exec step (input :: inputs) state =
      ((step input state).1 :: (exec step inputs (step input state).2).1,
        (exec step inputs (step input state).2).2) := rfl

/-- A run of two parts is the run of the first followed by the run of the second. -/
theorem exec_append (first second : List ι) (state : σ) :
    exec step (first ++ second) state =
      ((exec step first state).1 ++ (exec step second (exec step first state).2).1,
        (exec step second (exec step first state).2).2) := by
  induction first generalizing state with
  | nil => rfl
  | cons input inputs ih => simp [ih]

/-- The condition holds along a run exactly when it holds along both of its parts. -/
theorem along_append {first second : List ι} {state : σ} :
    Along step condition (first ++ second) state ↔
      Along step condition first state ∧
        Along step condition second (exec step first state).2 := by
  induction first generalizing state with
  | nil => simp [Along]
  | cons input inputs ih => simp [Along, ih, and_assoc]

/-- A condition on inputs alone holds along every run of such inputs. -/
theorem along_of_forall {inputs : List ι} {state : σ}
    (h : ∀ input ∈ inputs, ∀ state, condition input state) :
    Along step condition inputs state := by
  induction inputs generalizing state with
  | nil => trivial
  | cons input inputs ih =>
      exact ⟨h input (by simp) state, ih fun other hmem => h other (by simp [hmem])⟩

/-- A condition along a run may be weakened, input by input. -/
theorem Along.imp {weaker : ι → σ → Prop} {inputs : List ι} {state : σ}
    (h : Along step condition inputs state)
    (himp : ∀ input ∈ inputs, ∀ state, condition input state → weaker input state) :
    Along step weaker inputs state := by
  induction inputs generalizing state with
  | nil => trivial
  | cons input inputs ih =>
      exact ⟨himp input (by simp) state h.1, ih h.2 fun other hmem => himp other (by simp [hmem])⟩

/-- An invariant kept by every admissible step holds at the end of every admissible run. -/
theorem exec_invariant {invariant : σ → Prop}
    (hstep : ∀ input state, condition input state → invariant state →
      invariant (step input state).2)
    {inputs : List ι} {state : σ} (halong : Along step condition inputs state)
    (h : invariant state) : invariant (exec step inputs state).2 := by
  induction inputs generalizing state with
  | nil => exact h
  | cons input inputs ih => exact ih halong.2 (hstep input state halong.1 h)

/-- The state after a run and one more input. -/
theorem exec_concat (inputs : List ι) (input : ι) (state : σ) :
    (exec step (inputs ++ [input]) state).2 = (step input (exec step inputs state).2).2 := by
  rw [exec_append]
  rfl

/-- A property of the inputs so far that every admissible input extends holds of every admissible
run. -/
theorem exec_history {property : List ι → Prop} {start : σ} (hstart : property [])
    (hstep : ∀ past input, condition input (exec step past start).2 → property past →
      property (past ++ [input]))
    {inputs : List ι} (halong : Along step condition inputs start) : property inputs := by
  suffices hfrom : ∀ past, property past → Along step condition inputs (exec step past start).2 →
      property (past ++ inputs) from hfrom [] hstart halong
  clear halong
  induction inputs with
  | nil => exact fun past hpast _ => by simpa using hpast
  | cons input inputs ih =>
      intro past hpast halong
      rw [List.append_cons]
      exact ih (past ++ [input]) (hstep past input halong.1 hpast) (by rw [exec_concat]; exact halong.2)

/-- An element of a list with one more at its end is that one or was there before. -/
theorem concat_split {front before after : List ι} {new element : ι}
    (h : front ++ [new] = before ++ element :: after) :
    (after = [] ∧ front = before ∧ new = element) ∨
      ∃ rest, after = rest ++ [new] ∧ front = before ++ element :: rest := by
  rcases after.eq_nil_or_concat with rfl | ⟨rest, other, rfl⟩
  · obtain ⟨hfront, hnew⟩ := List.append_inj' h rfl
    exact .inl ⟨rfl, hfront, List.singleton_inj.mp hnew⟩
  · have hassoc : front ++ [new] = (before ++ element :: rest) ++ [other] := by simpa using h
    obtain ⟨hfront, hnew⟩ := List.append_inj' hassoc rfl
    exact .inr ⟨rest, by rw [List.singleton_inj.mp hnew, List.concat_eq_append], hfront⟩

/-- Two services that start related and answer alike, staying related, give the same outputs
along every admissible run and end related. -/
theorem exec_simulation {other : ι → τ → ο × τ} (related : σ → τ → Prop)
    (hstep : ∀ input left right, condition input left → related left right →
      (step input left).1 = (other input right).1 ∧
        related (step input left).2 (other input right).2)
    {inputs : List ι} {left : σ} {right : τ} (halong : Along step condition inputs left)
    (h : related left right) :
    (exec step inputs left).1 = (exec other inputs right).1 ∧
      related (exec step inputs left).2 (exec other inputs right).2 := by
  induction inputs generalizing left right with
  | nil => exact ⟨rfl, h⟩
  | cons input inputs ih =>
      obtain ⟨houtput, hnext⟩ := hstep input left right halong.1 h
      obtain ⟨houtputs, hfinal⟩ := ih halong.2 hnext
      exact ⟨by simp [houtput, houtputs], hfinal⟩

end DurableStreams.Lib
