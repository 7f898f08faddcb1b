import DurableStreams.Lib.Programs
import DurableStreams.Storage.Acid.Refinement
import DurableStreams.Storage.Acid.Reopening
import DurableStreams.Storage.File.Recovery
import DurableStreams.Storage.Services

/-!
# Servers that are stopped and started again

A durable backend is one that keeps its streams when it is opened again. A server runs the programs
of its requests against it, any number at a time, and a restart drops the requests it is working on
and opens the storage again. For its clients this is a server with the in-memory storage that never
loses anything but the requests under way, and that deletes the expired streams at every restart
(`Durable.serves`). Both durable backends are such backends.

The requests run concurrently, but a storage call is one step here: the calls of a run do not overlap,
each ends before the next one begins, and no stop falls inside a call.
-/

namespace DurableStreams.Memory

open Lib

/-- The streams that have expired. Each may see another time. -/
def InMemoryStorage.expiredNames (now : String → Timestamp) (memory : InMemoryStorage) :
    List String :=
  (memory.streams.keys.sort (· ≥ ·)).filter fun name =>
    (memory.streams.lookup name).any fun stream => isStreamExpired (now name) stream.config

/-- What a restart comes to: the streams that have expired are deleted. -/
def restart (now : String → Timestamp) (memory : InMemoryStorage) : InMemoryStorage :=
  purge (memory.expiredNames now) memory

section Restart

variable {limits : Limits} {horizon : Timestamp} {now : String → Timestamp}
  {memory left right : InMemoryStorage} {name : String}

/-- The streams that are left. -/
theorem restart_lookup (now : String → Timestamp) (memory : InMemoryStorage) (name : String) :
    (restart now memory).streams.lookup name =
      (memory.streams.lookup name).filter fun stream =>
        !isStreamExpired (now name) stream.config := by
  have hmem : name ∈ memory.expiredNames now ↔
      (memory.streams.lookup name).any (fun stream => isStreamExpired (now name) stream.config) =
        true := by
    unfold InMemoryStorage.expiredNames
    rw [List.mem_filter, Finset.mem_sort, Finmap.mem_keys, ← Finmap.lookup_isSome]
    cases memory.streams.lookup name <;> simp
  rw [restart, purge_lookup, if_congr hmem rfl rfl]
  cases memory.streams.lookup name with
  | none => rfl
  | some stream =>
      rw [Option.any_some, Option.filter_some]
      cases isStreamExpired (now name) stream.config <;> rfl

/-- The totals of storages are those of their streams. -/
theorem Similar.of_streams (hleft : Invariant limits left) (hright : Invariant limits right)
    (h : FiniteMap.Rel (Agrees horizon) left.streams right.streams) :
    Similar horizon left right := by
  refine ⟨?_, h⟩
  rw [hleft.total, hright.total]
  refine h.total_eq fun hagrees => ?_
  obtain ⟨producers, notify, rfl, -⟩ := hagrees
  rfl

/-- Similar storages are similar after a restart. -/
theorem Similar.restart (now : String → Timestamp) (h : Similar horizon left right)
    (hleft : Invariant limits left) (hright : Invariant limits right) :
    Similar horizon (restart now left) (restart now right) := by
  refine .of_streams (hleft.purge _) (hright.purge _) fun name => ?_
  rw [restart_lookup, restart_lookup]
  have hname := h.streams name
  generalize left.streams.lookup name = before at hname ⊢
  generalize right.streams.lookup name = after at hname ⊢
  cases hname with
  | none => exact .none
  | some hagrees =>
      rw [Option.filter_some, Option.filter_some, hagrees.shown.1]
      split
      · exact .some hagrees
      · exact .none

/-- Only a subscription is answered with a receiver. -/
theorem step_no_receiver {call : Call} (hop : call.op ≠ .subscribe call.op.name)
    (receiver : Option Receiver) : (step limits call memory).1 ≠ .receiver receiver := by
  obtain ⟨clock, op⟩ := call
  cases op with
  | subscribe name => exact absurd rfl hop
  | batchAppend =>
      simp only [step, batchAppend]
      split <;> simp
  | _ => simp [step]

end Restart

end DurableStreams.Memory

namespace DurableStreams

open Lib

/-! ## Durable backends -/

/-- A backend that can be opened again, in runs whose calls do not overlap: `step` is a whole call, and
`reopen` comes between two calls. `Stop` is what a restart leaves open, and `Shows` says which
in-memory storage the backend cannot be told from, where records of producers that are stale at the
time in front may differ. -/
structure Durable where
  State : Type
  Stop : Type
  limits : Limits
  start : State
  step : Call → State → Reply × State
  reopen : Stop → State → State
  now : Stop → String → Timestamp
  Admits : Call → State → Prop
  [decidableAdmits : ∀ call state, Decidable (Admits call state)]
  Opens : Stop → State → Prop
  [decidableOpens : ∀ stop state, Decidable (Opens stop state)]
  Shows : Timestamp → State → Memory.InMemoryStorage → Prop
  start_shows : ∀ horizon, Shows horizon start .new
  step_shows : ∀ {horizon call state memory}, Shows horizon state memory → Admits call state →
    horizon ≤ call.clock.cleanup → (step call state).1 = (Memory.step limits call memory).1 ∧
      Shows call.clock.cleanup (step call state).2 (Memory.step limits call memory).2
  reopen_shows : ∀ {horizon stop state memory}, Shows horizon state memory → Opens stop state →
    Shows horizon (reopen stop state) (Memory.restart (now stop) memory)

/-- The file backend as long as its calls do not overlap, none is cut short by a stop and no
file-system call fails. Calls that overlap share the position in the log file and may work on entries
that have been removed; they are not covered. A name has fewer than 192 bytes, since that of its
directory may have 255, each message fits the record format, and totals fit in 64 bits. A restart reads
the directories in some order. -/
def File.durable (config : File.Config) : Durable where
  State := FileStorage
  Stop := Timestamp × List String
  limits := config.limits
  start := .new
  step := File.step config .none
  reopen stop file := reopen stop.1 stop.2 file.disk
  now stop _ := stop.1
  Admits call file := call.op.name ≠ "" ∧ (strBytes call.op.name).length < 192 ∧
    (∀ data ∈ call.op.messages, data.length < 2 ^ 32) ∧
    file.totalBytes + payloadBytes call.op.messages < 2 ^ 64 ∧ call.op ≠ .subscribe call.op.name
  decidableAdmits _ _ := inferInstanceAs (Decidable (_ ∧ _ ∧ _ ∧ _ ∧ _))
  Opens stop file := Lists stop.2 file.disk
  decidableOpens _ _ := inferInstanceAs (Decidable (Lists _ _))
  Shows horizon file memory := Memory.Invariant config.limits memory ∧
    ∃ tracked, Memory.Invariant config.limits tracked ∧ Related horizon tracked file ∧
      Memory.Similar horizon tracked memory
  start_shows horizon :=
    ⟨.new config.limits, .new, .new config.limits, .new horizon, .refl horizon .new⟩
  step_shows := by
    rintro horizon call file memory ⟨hmemory, tracked, htracked, hrelated, hsimilar⟩
      ⟨hnamed, -, hsizes, hfits, hop⟩ hclock
    rw [hrelated.total] at hfits
    obtain ⟨hmirror, hnext⟩ := step_mirrors htracked (hrelated.mono hclock)
      ⟨hnamed, hsizes, hfits, le_rfl, hop⟩
    obtain ⟨hreply, hafter⟩ := Memory.step_similar config.limits hclock hsimilar
    refine ⟨Reply.eq_of_observed ?_ (Memory.step_no_receiver hop),
      Memory.step_invariant call hmemory, _, Memory.step_invariant call htracked, hnext, hafter⟩
    rw [← hmirror, hreply]
  reopen_shows := by
    rintro horizon ⟨now, listing⟩ file memory ⟨hmemory, tracked, htracked, hrelated, hsimilar⟩
      hlists
    obtain ⟨restarted, hinvariant, hreopened, hstreams⟩ :=
      reopen_related now htracked hrelated.recoverable hlists
    refine ⟨hmemory.purge _, restarted, hinvariant, hreopened, ?_⟩
    -- What has come back is what a restart leaves of the tracked streams, up to stale producers.
    have hback : Memory.Similar horizon restarted (Memory.restart (fun _ => now) tracked) := by
      refine .of_streams hinvariant (htracked.purge _) fun name => ?_
      have hname := hstreams name
      rw [Memory.restart_lookup]
      generalize tracked.streams.lookup name = before at hname ⊢
      generalize restarted.streams.lookup name = after at hname ⊢
      cases hname with
      | absent => exact .none
      | expired hexpired =>
          rw [Option.filter_some, hexpired]
          exact .none
      | @live stream producers hlive hproducers =>
          rw [Option.filter_some, hlive]
          exact .some ⟨stream.producers, stream.notify, rfl, hproducers.symm⟩
    exact hback.trans (hsimilar.restart _ htracked hmemory)

/-- The transactional storage as long as no call to the database fails, for streams without an expiry,
messages that are not empty and reservations that are granted. -/
def Acid.durable (config : Acid.Config) : Durable where
  State := AcidStorage config
  Stop := String → Timestamp
  limits := config.limits
  start := .new config
  step := Acid.step
  reopen now storage := storage.reopen now
  now stop := stop
  Admits call storage :=
    Ordinary call ∧ Granted call storage ∧ call.op ≠ .subscribe call.op.name
  decidableAdmits _ _ := inferInstanceAs (Decidable (_ ∧ _ ∧ _))
  Opens _ _ := True
  decidableOpens _ _ := inferInstanceAs (Decidable True)
  Shows horizon storage memory :=
    Memory.Invariant config.limits memory ∧ Refines horizon storage memory
  start_shows horizon := ⟨.new config.limits,
    ⟨.new, .new config, by simp [Plain, Memory.InMemoryStorage.new], .refl _ _⟩⟩
  step_shows := by
    rintro horizon call storage memory ⟨hmemory, hrefines⟩ ⟨hcall, hgranted, hop⟩ hclock
    obtain ⟨hreply, hnext⟩ := hrefines.step hclock hcall hgranted
    exact ⟨Reply.eq_of_observed hreply (Memory.step_no_receiver hop),
      Memory.step_invariant call hmemory, hnext⟩
  reopen_shows := by
    rintro horizon now storage memory ⟨hmemory, represented, hrep, hplain, hsimilar⟩ -
    -- The streams that are removed are those that have expired.
    have hback : Memory.Similar horizon (Memory.purge (storage.expiredNames now) represented)
        (Memory.restart now represented) := by
      refine .of_streams (hrep.invariant.purge _) (hrep.invariant.purge _) fun name => ?_
      rw [Memory.purge_lookup, if_congr hrep.mem_expired_names rfl rfl, Shard.expired, hrep.streams,
        Memory.restart_lookup]
      cases represented.streams.lookup name with
      | none => exact .none
      | some stream =>
          rw [Option.filter_some]
          change Option.Rel _
            (if isStreamExpired (now name) stream.config then none else some stream) _
          cases isStreamExpired (now name) stream.config with
          | true => exact .none
          | false => exact .some (.refl horizon stream)
    refine ⟨hmemory.purge _, _, hrep.reopen now, fun name stream hlookup => ?_,
      hback.trans (hsimilar.restart now hrep.invariant hmemory)⟩
    rw [Memory.purge_lookup] at hlookup
    split at hlookup
    · cases hlookup
    · exact hplain name stream hlookup

/-! ## Runs with restarts -/

namespace Durable

/-- A server serves an event, or is stopped and started again. -/
inductive Event (ρ π : Type) where
  | serve (event : ServerEvent ρ Clock)
  | restart (stop : π)

variable {ρ π σ α : Type} (handler : ρ → Program Op Reply α)

/-- One event, and what every request since the last restart has been answered so far. A restart
drops the requests under way. The server remembers the time of the last call. -/
def next (step : Call → σ → Reply × σ) (reopen : π → σ → σ) (event : Event ρ π)
    (server : Server (σ × Timestamp) ρ Op Reply α) :
    List (Option α) × Server (σ × Timestamp) ρ Op Reply α :=
  let after := match event with
    | .serve event => (serve handler (fun clock op state =>
        (step ⟨clock, op⟩ state.1).map id fun state => (state, clock.cleanup)) event server).2
    | .restart stop => ⟨server.state.map (reopen stop) id, []⟩
  (after.running.map (·.program.result), after)

variable (durable : Durable) (time : Timestamp) (events : List (Event ρ durable.Stop))

/-- The answers of a server with this backend that is first started at some time. -/
def answers : List (List (Option α)) :=
  (exec (next handler durable.step durable.reopen) events ⟨(durable.start, time), []⟩).1

/-- The answers of a server with the in-memory storage that deletes the expired streams at every
restart. -/
def expected : List (List (Option α)) :=
  (exec (next handler (Memory.step durable.limits) fun stop => Memory.restart (durable.now stop))
    events ⟨(.new, time), []⟩).1

/-- The call that an event makes, or the restart, is one the backend can deal with. The clock does
not go back. -/
def Allows (event : Event ρ durable.Stop)
    (server : Server (durable.State × Timestamp) ρ Op Reply α) : Prop :=
  match event with
  | .serve (.accept _) => True
  | .serve (.advance index clock) => ∀ op ∈ server.running[index]?.bind (·.program.next),
      server.state.2 ≤ clock.cleanup ∧ durable.Admits ⟨clock, op⟩ server.state.1
  | .restart stop => durable.Opens stop server.state.1

instance (event : Event ρ durable.Stop) (server : Server (durable.State × Timestamp) ρ Op Reply α) :
    Decidable (Allows durable event server) :=
  have := durable.decidableAdmits
  match event with
  | .serve (.accept _) => isTrue trivial
  | .serve (.advance _ _) => inferInstanceAs (Decidable (∀ _ ∈ _, _ ∧ _))
  | .restart stop => durable.decidableOpens stop server.state.1

/-- All events of the run are such events. -/
def Regular : Prop :=
  Along (next handler durable.step durable.reopen) (Allows durable) events
    ⟨(durable.start, time), []⟩

instance : Decidable (Regular handler durable time events) := inferInstanceAs (Decidable (Along ..))

variable {durable handler time events}

/-- Two servers that work on the same requests, where the backend of one shows the in-memory storage
of the other. -/
def Alike (server : Server (durable.State × Timestamp) ρ Op Reply α)
    (reference : Server (Memory.InMemoryStorage × Timestamp) ρ Op Reply α) : Prop :=
  server.running = reference.running ∧ server.state.2 = reference.state.2 ∧
    durable.Shows server.state.2 server.state.1 reference.state.1

/-- One event is served alike. -/
theorem next_alike (event : Event ρ durable.Stop)
    (server : Server (durable.State × Timestamp) ρ Op Reply α)
    (reference : Server (Memory.InMemoryStorage × Timestamp) ρ Op Reply α)
    (hallows : Allows durable event server) (h : Alike server reference) :
    let after := next handler durable.step durable.reopen event server
    let expected := next handler (Memory.step durable.limits)
      (fun stop => Memory.restart (durable.now stop)) event reference
    after.1 = expected.1 ∧ Alike after.2 expected.2 := by
  intro after expected
  -- The answers are those of the requests under way.
  suffices halike : Alike after.2 expected.2 from ⟨congrArg (List.map _) halike.1, halike⟩
  obtain ⟨⟨state, time⟩, running⟩ := server
  obtain ⟨⟨memory, _⟩, _⟩ := reference
  obtain ⟨rfl, rfl, hshows⟩ := h
  cases event with
  | restart stop => exact ⟨rfl, rfl, durable.reopen_shows hshows hallows⟩
  | serve event =>
      cases event with
      | accept request => exact ⟨rfl, rfl, hshows⟩
      | advance index clock =>
          simp only [after, expected, next, serve]
          cases hindex : running[index]? with
          | none => exact ⟨rfl, rfl, hshows⟩
          | some request =>
              obtain ⟨request, program⟩ := request
              cases program with
              | done result => exact ⟨rfl, rfl, hshows⟩
              | call op resume =>
                  -- The same reply comes back, so both programs go on in the same way.
                  obtain ⟨hclock, hadmits⟩ := hallows op (by rw [hindex]; rfl)
                  obtain ⟨hreply, hnext⟩ := durable.step_shows hshows hadmits hclock
                  exact ⟨congrArg (fun reply => running.set index ⟨request, resume reply⟩) hreply,
                    rfl, hnext⟩

/-- A server with a durable backend gives the answers of one with the in-memory storage, over every
regular run with restarts. -/
theorem serves (h : Regular handler durable time events) :
    answers handler durable time events = expected handler durable time events :=
  (exec_simulation Alike next_alike h ⟨rfl, rfl, durable.start_shows time⟩).1

end Durable

end DurableStreams
