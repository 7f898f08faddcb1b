import DurableStreams.Lib.Execution

/-!
# Programs that call a service

A program returns or makes a call and goes on with the answer. A server runs the programs of any
number of requests against one shared state: a request is accepted, and from then on its program
makes one call at a time, in any order with those of the others. The run of a server is an `exec`,
whose outputs are the calls in the order in which they were made. `serve_cases` says what one event
can do, `serve_obeys` carries what every program is allowed to call to every call of a run, and
`serve_answers` what every program returns to the answers its calls were given.
-/

namespace DurableStreams.Lib

/-- A program that calls a service with inputs in `ι` and outputs in `ο`. -/
inductive Program (ι ο α : Type) where
  | done (result : α)
  | call (input : ι) (resume : ο → Program ι ο α)

namespace Program

variable {ι ο α β : Type}

/-- Run a program and then another one, which depends on its result. -/
def bind : Program ι ο α → (α → Program ι ο β) → Program ι ο β
  | .done result, after => after result
  | .call input resume, after => .call input fun output => (resume output).bind after

/-- Change the result of a program. -/
def map (convert : α → β) (program : Program ι ο α) : Program ι ο β :=
  program.bind fun result => .done (convert result)

/-- The call a program makes next. -/
def next : Program ι ο α → Option ι
  | .done _ => none
  | .call input _ => some input

/-- What a program has returned. -/
def result : Program ι ο α → Option α
  | .done result => some result
  | .call _ _ => none

/-- Run a program alone, with a choice for each of its calls. The result is `none` if the choices do
not suffice. -/
def run {σ κ : Type} (step : κ → ι → σ → ο × σ) : Program ι ο α → List κ → σ → Option α × σ
  | .done result, _, state => (some result, state)
  | .call _ _, [], state => (none, state)
  | .call input resume, choice :: choices, state =>
      (resume (step choice input state).1).run step choices (step choice input state).2

/-- Changing the result changes nothing else. -/
theorem run_map {σ κ : Type} (step : κ → ι → σ → ο × σ) (convert : α → β) (program : Program ι ο α)
    (choices : List κ) (state : σ) :
    ((program.map convert).run step choices state).1 =
      (program.run step choices state).1.map convert := by
  induction program generalizing choices state with
  | done result => rfl
  | call input resume ih =>
      cases choices with
      | nil => rfl
      | cons choice choices => exact ih _ choices _

/-- Every call a program can make is allowed. -/
def Calls (allowed : ι → Prop) : Program ι ο α → Prop
  | .done _ => True
  | .call input resume => allowed input ∧ ∀ output, (resume output).Calls allowed

/-- The calls of two programs, one after the other. -/
theorem Calls.bind {allowed : ι → Prop} {program : Program ι ο α} {after : α → Program ι ο β}
    (h : program.Calls allowed) (hafter : ∀ result, (after result).Calls allowed) :
    (program.bind after).Calls allowed := by
  induction program with
  | done result => exact hafter result
  | call input resume ih => exact ⟨h.1, fun output => ih output (h.2 output)⟩

/-- Changing the result changes no call. -/
theorem Calls.map {allowed : ι → Prop} {program : Program ι ο α} {convert : α → β}
    (h : program.Calls allowed) : (program.map convert).Calls allowed :=
  h.bind fun _ => trivial

/-- As long as the service gives proper answers, the program returns something good. -/
def Ensures (proper : ι → ο → Prop) (good : α → Prop) : Program ι ο α → Prop
  | .done result => good result
  | .call input resume => ∀ output, proper input output → (resume output).Ensures proper good

/-- A change of the result that makes good results better. -/
theorem Ensures.map {proper : ι → ο → Prop} {good : α → Prop} {better : β → Prop} {convert : α → β}
    {program : Program ι ο α} (h : program.Ensures proper good)
    (hbetter : ∀ result, good result → better (convert result)) :
    (program.map convert).Ensures proper better := by
  induction program with
  | done result => exact hbetter result h
  | call input resume ih => exact fun output hproper => ih output (h output hproper)

/-- As long as the service gives proper answers, the program returns something that fits them. The
flag says whether one of the answers so far counts. -/
def Reports (proper : ι → ο → Prop) (counts : ο → Bool) (fits : Bool → α → Prop) :
    Program ι ο α → Bool → Prop
  | .done result, counted => fits counted result
  | .call input resume, counted => ∀ output, proper input output →
      (resume output).Reports proper counts fits (counted || counts output)

/-- Everything may fit. -/
theorem Reports.of_forall {proper : ι → ο → Prop} {counts : ο → Bool} {fits : Bool → α → Prop}
    (h : ∀ counted result, fits counted result) (program : Program ι ο α) (counted : Bool) :
    program.Reports proper counts fits counted := by
  induction program generalizing counted with
  | done result => exact h counted result
  | call input resume ih => exact fun output _ => ih output _

/-- A change of the result that keeps it fitting. -/
theorem Reports.map {proper : ι → ο → Prop} {counts : ο → Bool} {fits : Bool → α → Prop}
    {better : Bool → β → Prop} {convert : α → β} {program : Program ι ο α} {counted : Bool}
    (h : program.Reports proper counts fits counted)
    (hbetter : ∀ counted result, fits counted result → better counted (convert result)) :
    (program.map convert).Reports proper counts better counted := by
  induction program generalizing counted with
  | done result => exact hbetter counted result h
  | call input resume ih => exact fun output hproper => ih output (h output hproper)

end Program

/-- A request and what is left of its program. -/
structure Running (ρ ι ο α : Type) where
  request : ρ
  program : Program ι ο α

/-- The shared state and the requests accepted so far. -/
structure Server (σ ρ ι ο α : Type) where
  state : σ
  running : List (Running ρ ι ο α)

/-- A server accepts a request, or lets a program make its next call. The choice settles what the
call leaves open. -/
inductive ServerEvent (ρ κ : Type) where
  | accept (request : ρ)
  | advance (index : Nat) (choice : κ)

/-- A call that was made, by which request, and its answer. -/
structure Served (ρ κ ι ο : Type) where
  index : Nat
  request : ρ
  choice : κ
  input : ι
  output : ο

section Serve

variable {σ ρ κ ι ο α : Type} (handler : ρ → Program ι ο α) (step : κ → ι → σ → ο × σ)

/-- One event of a server. A program that has returned makes no call. -/
def serve : ServerEvent ρ κ → Server σ ρ ι ο α → Option (Served ρ κ ι ο) × Server σ ρ ι ο α
  | .accept request, server =>
      (none, ⟨server.state, server.running ++ [⟨request, handler request⟩]⟩)
  | .advance index choice, server =>
      match server.running[index]? with
      | none => (none, server)
      | some ⟨_, .done _⟩ => (none, server)
      | some ⟨request, .call input resume⟩ =>
          let (output, state) := step choice input server.state
          (some ⟨index, request, choice, input, output⟩,
            ⟨state, server.running.set index ⟨request, resume output⟩⟩)

/-- What one event can do: nothing, accept a request, or make the next call of a program. -/
theorem serve_cases (event : ServerEvent ρ κ) (server : Server σ ρ ι ο α) :
    serve handler step event server = (none, server) ∨
    (∃ request, event = .accept request ∧ serve handler step event server =
      (none, ⟨server.state, server.running ++ [⟨request, handler request⟩]⟩)) ∨
    ∃ index choice request input resume, event = .advance index choice ∧
      server.running[index]? = some ⟨request, .call input resume⟩ ∧
      serve handler step event server =
        (some ⟨index, request, choice, input, (step choice input server.state).1⟩,
          ⟨(step choice input server.state).2,
            server.running.set index ⟨request, resume (step choice input server.state).1⟩⟩) := by
  cases event with
  | accept request => exact .inr (.inl ⟨request, rfl, rfl⟩)
  | advance index choice =>
      rw [serve]
      cases hrunning : server.running[index]? with
      | none => exact .inl rfl
      | some running =>
          obtain ⟨request, program⟩ := running
          cases program with
          | done result => exact .inl rfl
          | call input resume =>
              exact .inr (.inr ⟨index, choice, request, input, resume, rfl, hrunning, rfl⟩)

variable {handler step}

/-- Every program the server runs is allowed the calls of its request. -/
def Server.Obeys (allowed : ρ → ι → Prop) (server : Server σ ρ ι ο α) : Prop :=
  ∀ running ∈ server.running, running.program.Calls (allowed running.request)

/-- One event keeps to what is allowed, in the call it makes and in what is left. -/
theorem serve_obeys {allowed : ρ → ι → Prop}
    (hhandler : ∀ request, (handler request).Calls (allowed request))
    (event : ServerEvent ρ κ) {server : Server σ ρ ι ο α} (h : server.Obeys allowed) :
    (serve handler step event server).2.Obeys allowed ∧
      ∀ served, (serve handler step event server).1 = some served →
        allowed served.request served.input := by
  obtain heq | ⟨request, -, heq⟩ | ⟨index, choice, request, input, resume, -, hrunning, heq⟩ :=
    serve_cases handler step event server
  · rw [heq]
    exact ⟨h, by simp⟩
  · rw [heq]
    refine ⟨fun running hmem => ?_, by simp⟩
    obtain hold | hnew := List.mem_append.mp hmem
    · exact h running hold
    · rw [List.mem_singleton.mp hnew]
      exact hhandler request
  · have hcalls := h _ (List.mem_of_getElem? hrunning)
    rw [heq]
    refine ⟨fun running hmem => ?_, fun served hserved => ?_⟩
    · obtain hold | rfl := List.mem_or_eq_of_mem_set hmem
      · exact h running hold
      · exact hcalls.2 _
    · obtain rfl := Option.some.inj hserved
      exact hcalls.1

/-- Whether an answer to the request at an index counts. -/
def countedAt (counts : ο → Bool) (index : Nat) (log : List (Option (Served ρ κ ι ο))) : Bool :=
  log.any fun served => served.any fun served => served.index == index && counts served.output

/-- What every program returns fits the answers that its calls were given. -/
structure Server.Answers (proper : ι → ο → Prop) (counts : ο → Bool) (fits : ρ → Bool → α → Prop)
    (log : List (Option (Served ρ κ ι ο))) (server : Server σ ρ ι ο α) : Prop where
  fresh : ∀ index, server.running.length ≤ index → countedAt counts index log = false
  reports : ∀ (index : Nat) (running : Running ρ ι ο α), server.running[index]? = some running →
    running.program.Reports proper counts (fits running.request) (countedAt counts index log)

/-- One event keeps to that. -/
theorem serve_answers {proper : ι → ο → Prop} {counts : ο → Bool} {fits : ρ → Bool → α → Prop}
    (hhandler : ∀ request, (handler request).Reports proper counts (fits request) false)
    (event : ServerEvent ρ κ) {server : Server σ ρ ι ο α} {log : List (Option (Served ρ κ ι ο))}
    (h : server.Answers proper counts fits log)
    (hproper : ∀ served ∈ (serve handler step event server).1, proper served.input served.output) :
    (serve handler step event server).2.Answers proper counts fits
      (log ++ [(serve handler step event server).1]) := by
  obtain ⟨hfresh, hreports⟩ := h
  have hconcat (index : Nat) (served : Option (Served ρ κ ι ο)) :
      countedAt counts index (log ++ [served]) = (countedAt counts index log ||
        served.any fun served => served.index == index && counts served.output) := by
    simp [countedAt]
  obtain heq | ⟨request, -, heq⟩ | ⟨index, choice, request, input, resume, -, hrunning, heq⟩ :=
    serve_cases handler step event server <;> rw [heq] at hproper ⊢ <;> dsimp only at hproper ⊢
  · constructor <;> simpa only [hconcat, Option.any_none, Bool.or_false]
  · constructor <;> simp only [hconcat, Option.any_none, Bool.or_false]
    · intro other hother
      rw [List.length_append] at hother
      exact hfresh other (Nat.le_of_add_right_le hother)
    · intro other running hother
      rw [List.getElem?_append, List.getElem?_singleton] at hother
      split at hother
      · exact hreports other running hother
      · next hlength =>
        split at hother
        · obtain rfl := Option.some.inj hother
          rw [hfresh other (Nat.le_of_not_lt hlength)]
          exact hhandler request
        · cases hother
  · have hindex := (List.getElem?_eq_some_iff.mp hrunning).1
    constructor <;> simp only [hconcat, Option.any_some]
    · intro other hother
      rw [List.length_set] at hother
      rw [hfresh other hother, beq_false_of_ne (by omega), Bool.false_and, Bool.or_false]
    · intro other running hother
      rw [List.getElem?_set, if_pos hindex] at hother
      split at hother
      · next hsame =>
        subst hsame
        obtain rfl := Option.some.inj hother
        rw [beq_self_eq_true, Bool.true_and]
        exact hreports index _ hrunning _ (hproper _ rfl)
      · next hne =>
        rw [beq_false_of_ne hne, Bool.false_and, Bool.or_false]
        exact hreports other running hother

end Serve

end DurableStreams.Lib
