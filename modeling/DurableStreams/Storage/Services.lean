import DurableStreams.Storage.Acid.Representation
import DurableStreams.Storage.File.Refinement

/-!
# The backends as services

A `Service` is a backend as the handlers use it, together with the in-memory storage whose streams it
holds. All three backends are services, so what is proved from the laws of a service holds for each of
them. The file backend is followed as long as no file-system call fails.
-/

namespace DurableStreams

open Lib

/-- What a call does to the streams a backend holds: nothing, because it is refused or because the
in-memory storage would report no write either, or what it does in the in-memory storage. -/
inductive Follows (limits : Limits) (call : Call) (memory : Memory.InMemoryStorage) :
    Reply → Memory.InMemoryStorage → Prop
  | refused (error : Error) : Follows limits call memory (call.op.failure error) memory
  | quiet {reply : Reply} (hwrites : reply.writes = false)
      (hreply : reply.observed = (Memory.step limits call memory).1.observed) :
      Follows limits call memory reply memory
  | same {reply : Reply} (hreply : reply.observed = (Memory.step limits call memory).1.observed) :
      Follows limits call memory reply (Memory.step limits call memory).2

/-- A reply that is no receiver is observed as a whole. -/
theorem Reply.eq_of_observed {reply other : Reply} (h : reply.observed = other.observed)
    (hother : ∀ receiver, other ≠ .receiver receiver) : reply = other := by
  have hobserved : other.observed = other := by
    unfold Reply.observed
    split
    · exact absurd rfl (hother _)
    · rfl
  rw [hobserved] at h
  unfold Reply.observed at h
  split at h
  · exact absurd h.symm (hother _)
  · exact h

/-- A backend and the streams it holds. `Admits` says which calls are followed; in every other state
and for every other call nothing is claimed. -/
structure Service where
  State : Type
  limits : Limits
  start : State
  step : Call → State → Reply × State
  Admits : Call → State → Prop
  Backs : State → Memory.InMemoryStorage → Prop
  start_backs : Backs start .new
  backs_invariant : ∀ {state memory}, Backs state memory → Memory.Invariant limits memory
  step_backs : ∀ {call state memory}, Backs state memory → Admits call state →
    (∀ data ∈ call.op.messages, data ≠ []) →
    ∃ memory', Backs (step call state).2 memory' ∧
      Follows limits call memory (step call state).1 memory'
  head_backs : ∀ {state memory}, Backs state memory → ∀ clock name,
    (step ⟨clock, .head name⟩ state).1 = (Memory.step limits ⟨clock, .head name⟩ memory).1
  read_backs : ∀ {state memory}, Backs state memory → ∀ clock name offset,
    (step ⟨clock, .read name offset⟩ state).1 =
      (Memory.step limits ⟨clock, .read name offset⟩ memory).1

/-- The in-memory storage. -/
def Memory.service (limits : Limits) : Service where
  State := InMemoryStorage
  limits := limits
  start := .new
  step := Memory.step limits
  Admits _ _ := True
  Backs state memory := state = memory ∧ Invariant limits memory
  start_backs := ⟨rfl, .new limits⟩
  backs_invariant h := h.2
  step_backs := by
    rintro call state _ ⟨rfl, hinvariant⟩ - -
    exact ⟨_, ⟨rfl, step_invariant call hinvariant⟩, .same rfl⟩
  head_backs h _ _ := by rw [h.1]
  read_backs h _ _ _ := by rw [h.1]

/-- The file backend. It is followed for named streams, messages that fit the record format and totals
that fit in 64 bits. -/
def File.service (config : File.Config) : Service where
  State := FileStorage
  limits := config.limits
  start := .new
  step := File.step config .none
  Admits call file := call.op.name ≠ "" ∧ (∀ data ∈ call.op.messages, data.length < 2 ^ 32) ∧
    file.totalBytes + payloadBytes call.op.messages < 2 ^ 64 ∧ call.op ≠ .subscribe call.op.name
  Backs file memory := Memory.Invariant config.limits memory ∧ ∃ horizon, Related horizon memory file
  start_backs := ⟨.new config.limits, 0, .new 0⟩
  backs_invariant h := h.1
  step_backs := by
    rintro call file memory ⟨hinvariant, horizon, hrelated⟩ ⟨hnamed, hsizes, hfits, hop⟩ -
    -- The clock may show a later time than ever before.
    have hlater := hrelated.mono (le_max_left horizon call.clock.cleanup)
    rw [hrelated.total] at hfits
    obtain ⟨hreply, hnext⟩ := step_mirrors hinvariant hlater
      ⟨hnamed, hsizes, hfits, le_max_right _ _, hop⟩
    exact ⟨_, ⟨Memory.step_invariant call hinvariant, _, hnext⟩, .same (by rw [hreply])⟩
  head_backs h clock name := by
    obtain ⟨-, horizon, hrelated⟩ := h
    exact (head_mirrors clock name hrelated).symm
  read_backs h clock name offset := by
    obtain ⟨hinvariant, horizon, hrelated⟩ := h
    exact (read_mirrors clock name offset hinvariant hrelated).symm

namespace Acid

variable {config : Config} {storage : AcidStorage config} {memory : Memory.InMemoryStorage}

/-- A call that only looks at a stream is answered as by the in-memory storage. -/
theorem Represents.looks {call : Call} (h : Represents storage memory)
    (hmessages : call.op.messages = []) (hop : Memory.onStream call.op = true) :
    (Acid.step call storage).1.observed = (Memory.step config.limits call memory).1.observed := by
  have hcount : Countable call storage := by
    rw [Countable, Memory.on_stream_config hop, hmessages]
    cases hlookup : memory.streams.lookup call.op.name with
    | none =>
        have hmissing : (storage.shard call.op.name).streams.lookup call.op.name = none := by
          rw [h.streams, hlookup, Option.map_none]
        simp [messageCount, hmissing]
    | some stream =>
        rw [h.count_eq hlookup]
        exact h.counts hlookup
  have htrimmed := trimmed_on_stream hop
  obtain ⟨memory', -, htracks⟩ := h.step hcount
  generalize (Acid.step call storage).1 = reply at htracks
  cases htracks with
  | refused hroom =>
      rw [hmessages] at hroom
      exact absurd h.invariant.globalLimit (Nat.not_le.mpr hroom)
  | quiet _ hreply => rwa [htrimmed] at hreply
  | same hreply => rwa [htrimmed] at hreply

end Acid

/-- The transactional storage. It is followed as long as its streams have fewer than `2 ^ 64`
messages. -/
def Acid.service (config : Acid.Config) : Service where
  State := AcidStorage config
  limits := config.limits
  start := .new config
  step := Acid.step
  Admits := Countable
  Backs := Represents
  start_backs := .new config
  backs_invariant h := h.invariant
  step_backs := by
    intro call storage memory h hcount hmessages
    obtain ⟨memory', hafter, htracks⟩ := h.step hcount
    have htrimmed := trimmed_of_nonempty hmessages
    refine ⟨memory', hafter, ?_⟩
    generalize (Acid.step call storage).1 = reply at htracks
    cases htracks with
    | refused => exact .refused _
    | quiet hwrites hreply => exact .quiet hwrites (by rwa [htrimmed] at hreply)
    | same hreply =>
        rw [htrimmed] at hreply ⊢
        exact .same hreply
  head_backs h _ _ := Reply.eq_of_observed (h.looks rfl rfl) (by simp [Memory.step])
  read_backs h _ _ _ := Reply.eq_of_observed (h.looks rfl rfl) (by simp [Memory.step])

end DurableStreams
