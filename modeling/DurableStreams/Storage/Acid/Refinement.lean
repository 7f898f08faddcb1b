import DurableStreams.Storage.Acid.Representation
import DurableStreams.Storage.Memory.Agreement

/-!
# The transactional storage refines the in-memory storage

On streams without an expiry, with messages that are not empty and with room for every reservation,
the transactional storage answers every run of calls as the in-memory storage does, if the clock does
not go back (`acid_refines_memory`). The streams it represents are followed by `Represents.step`. The
in-memory storage forgets stale producers also on requests that fail, so its streams are only similar
to the represented ones.
-/

namespace DurableStreams.Acid

open Lib

variable {config : Config}

/-- The bytes that a call reserves. A create reserves nothing unless it finds room. -/
def reservation (call : Call) (storage : AcidStorage config) : Nat :=
  match call.op with
  | .createStreamWithData name _ messages _ _ =>
      match claimName call.clock name (storage.shard name) with
      | .occupied _ => 0
      | .vacant _ _ => batchBytes messages
  | op => batchBytes op.messages

/-- The reservation of a call is not refused. -/
def Granted (call : Call) (storage : AcidStorage config) : Prop :=
  storage.totalBytes + reservation call storage ≤ config.limits.maxTotalBytes.toNat

/-- Whether it is refused can be computed. -/
instance instDecidableGranted (call : Call) (storage : AcidStorage config) :
    Decidable (Granted call storage) := inferInstanceAs (Decidable (_ ≤ _))

/-- A call with an operation on streams without an expiry whose messages are not empty. -/
structure Ordinary (call : Call) : Prop where
  expiry : ∀ streamConfig ∈ call.op.config, streamConfig.expiresAt = none
  messages : ∀ data ∈ call.op.messages, data ≠ []

/-- Whether it is such a call can be computed. -/
instance instDecidableOrdinary (call : Call) : Decidable (Ordinary call) :=
  decidable_of_iff ((∀ streamConfig ∈ call.op.config, streamConfig.expiresAt = none) ∧
    ∀ data ∈ call.op.messages, data ≠ []) ⟨fun h => ⟨h.1, h.2⟩, fun h => ⟨h.1, h.2⟩⟩

/-- Streams without an expiry that hold no empty message. -/
def Plain (memory : Memory.InMemoryStorage) : Prop :=
  ∀ name stream, memory.streams.lookup name = some stream →
    stream.config.expiresAt = none ∧ ∀ data ∈ stream.payloads, data ≠ []

namespace Plain

variable {memory memory' : Memory.InMemoryStorage} {call : Call}

/-- New messages and new streams are ordinary. -/
theorem step (hcall : Ordinary call) (hinvariant : Memory.Invariant config.limits memory)
    (h : Plain memory) : Plain (Memory.step config.limits call memory).2 := by
  have heffect := Memory.step_effect call hinvariant
  generalize (Memory.step config.limits call memory).1 = reply at heffect
  generalize (Memory.step config.limits call memory).2 = memory' at heffect
  have hadded : ∀ data ∈ call.added reply, data ≠ [] := by
    intro data hdata
    rw [Call.added] at hdata
    split at hdata
    · exact hcall.messages data hdata
    · simp at hdata
  intro name stream hlookup
  cases heffect with
  | unchanged => exact h name stream hlookup
  | update hbefore houtcome =>
      rw [FiniteMap.lookup_insert_ite] at hlookup
      split at hlookup
      · obtain rfl := Option.some.inj hlookup
        obtain ⟨hexpiry, hpayloads⟩ := h _ _ hbefore
        refine ⟨houtcome.config ▸ hexpiry, fun data hdata => ?_⟩
        rw [houtcome.payloads] at hdata
        exact (List.mem_append.mp hdata).elim (hpayloads data) (hadded data)
      · exact h name stream hlookup
  | delete =>
      rw [Memory.removeStream, FiniteMap.lookup_erase_ite] at hlookup
      split at hlookup
      · cases hlookup
      · exact h name stream hlookup
  | claim _ hclaim =>
      rw [Memory.claim_name_lookup hclaim] at hlookup
      split at hlookup
      · cases hlookup
      · exact h name stream hlookup
  | create _ hclaim hconfig houtcome =>
      rw [FiniteMap.lookup_insert_ite] at hlookup
      split at hlookup
      · obtain rfl := Option.some.inj hlookup
        refine ⟨houtcome.config ▸ hcall.expiry _ hconfig, fun data hdata => ?_⟩
        rw [houtcome.payloads] at hdata
        exact hcall.messages data hdata
      · next hne =>
          rw [Memory.claim_name_lookup hclaim, if_neg hne] at hlookup
          exact h name stream hlookup

/-- A create finds room only where there is no stream. -/
theorem claim_vacant {clock : Clock} {name : String} {free : Memory.InMemoryStorage} (h : Plain memory)
    (hclaim : Memory.claimName clock memory name = .vacant free) : free = memory := by
  obtain ⟨-, rfl⟩ | ⟨old, hlookup, hexpired, -⟩ := Memory.claim_name_vacant hclaim
  · rfl
  · simp [isStreamExpired, (h name old hlookup).1] at hexpired

end Plain

/-! ## Following both storages -/

section Following

variable {storage : AcidStorage config} {memory represented : Memory.InMemoryStorage} {call : Call}
  {horizon : Timestamp}

/-- With room for its reservation a call leaves its stream with fewer than `2 ^ 64` messages. -/
theorem countable_of_granted (h : Represents storage represented) (hplain : Plain represented)
    (hcall : Ordinary call) (hgranted : Granted call storage) : Countable call storage := by
  have hlength := length_le_payload_bytes hcall.messages
  have hpayload := call.op.payload_lt
  have hmax := config.limits.maxTotalBytes.toNat_lt
  cases hconfig : call.op.config with
  | some streamConfig =>
      rw [Countable, hconfig, Option.isSome_some, if_pos rfl]
      omega
  | none =>
      have hbytes : reservation call storage = payloadBytes call.op.messages := by
        rw [← batch_bytes_eq hpayload, reservation]
        split
        · next hop => simp [hop, Op.config] at hconfig
        · rfl
      rw [Granted, hbytes, h.total] at hgranted
      have hcount : messageCount storage call.op.name ≤ represented.totalBytes := by
        cases hlookup : represented.streams.lookup call.op.name with
        | none =>
            rw [messageCount, h.streams, hlookup]
            exact Nat.zero_le _
        | some stream =>
            have hstream := length_le_payload_bytes (hplain _ _ hlookup).2
            rw [Memory.StreamEntry.payloads, List.length_map] at hstream
            rw [h.count_eq hlookup]
            refine hstream.trans (le_trans ?_ (h.invariant.stream_le_total hlookup))
            exact (h.invariant.wellFormed hlookup).totalBytes.ge
      rw [Countable, hconfig, Option.isSome_none, if_neg Bool.false_ne_true]
      omega

/-- A call whose reservation is granted is not refused for want of room. -/
theorem granted_not_refused (h : Represents storage represented) (hgranted : Granted call storage)
    (hroom : config.limits.maxTotalBytes.toNat <
      represented.totalBytes + batchBytes call.op.messages)
    (hreply : (step call storage).1 = call.op.failure .memoryLimitExceeded) : False := by
  rw [← h.total] at hroom
  rw [Granted, reservation] at hgranted
  split at hgranted
  · next name streamConfig messages shouldClose fits hop =>
      cases hclaim : claimName call.clock name (storage.shard name) with
      | occupied saved =>
          -- A create that finds a stream does not look at the counter.
          simp only [step, hop, createStreamWithData, hclaim, Op.failure] at hreply
          split at hreply <;> simp at hreply
      | vacant shard removed =>
          rw [hop] at hroom
          simp only [hclaim] at hgranted
          exact absurd hgranted (Nat.not_le.mpr hroom)
  · omega

/-- The transactional storage holds streams that are similar to those of the in-memory storage. -/
structure Refines (horizon : Timestamp) (storage : AcidStorage config)
    (memory : Memory.InMemoryStorage) : Prop where
  similar : ∃ represented, Represents storage represented ∧ Plain represented ∧
    Memory.Similar horizon represented memory

/-- Both storages answer a call alike and stay related. -/
theorem Refines.step (h : Refines horizon storage memory) (hclock : horizon ≤ call.clock.cleanup)
    (hcall : Ordinary call) (hgranted : Granted call storage) :
    (Acid.step call storage).1.observed = (Memory.step config.limits call memory).1.observed ∧
      Refines call.clock.cleanup (Acid.step call storage).2
        (Memory.step config.limits call memory).2 := by
  obtain ⟨represented, hrep, hplain, hsimilar⟩ := h.similar
  obtain ⟨hreply, hnext⟩ := Memory.step_similar config.limits hclock hsimilar
  obtain ⟨after, hafter, htracks⟩ := hrep.step (countable_of_granted hrep hplain hcall hgranted)
  generalize hanswer : (Acid.step call storage).1 = answer at htracks
  have htrimmed : (⟨call.clock, trimmed call.op⟩ : Call) = call := by
    rw [trimmed_of_nonempty hcall.messages]
  cases htracks with
  | refused hroom => exact (granted_not_refused hrep hgranted hroom hanswer).elim
  | quiet hwrites hsame =>
      rw [htrimmed] at hsame
      refine ⟨hsame.trans hreply.symm, ⟨represented, hafter, hplain, ?_⟩⟩
      have hquiet : (Memory.step config.limits call represented).1.writes = false := by
        rw [← Reply.observed_writes, ← hsame, Reply.observed_writes, hwrites]
      obtain ⟨rest, hrest, hleft⟩ := Memory.step_quiet hquiet
      obtain rfl : rest = represented := hrest.elim id hplain.claim_vacant
      exact hleft.trans hnext
  | same hsame =>
      rw [htrimmed] at hsame hafter
      exact ⟨hsame.trans hreply.symm, ⟨_, hafter, hplain.step hcall hrep.invariant, hnext⟩⟩

/-- Both storages answer a run alike. -/
theorem Refines.exec {calls : List Call} (h : Refines horizon storage memory)
    (hhorizon : ∀ call ∈ calls, horizon ≤ call.clock.cleanup)
    (hclock : calls.Pairwise fun earlier later => earlier.clock.cleanup ≤ later.clock.cleanup)
    (hcalls : ∀ call ∈ calls, Ordinary call) (hgranted : Along Acid.step Granted calls storage) :
    (Lib.exec Acid.step calls storage).1.map Reply.observed =
      (Lib.exec (Memory.step config.limits) calls memory).1.map Reply.observed := by
  induction calls generalizing horizon storage memory with
  | nil => rfl
  | cons call calls ih =>
      obtain ⟨hlater, hclock⟩ := List.pairwise_cons.mp hclock
      obtain ⟨hreply, hnext⟩ := h.step (hhorizon call (by simp)) (hcalls call (by simp)) hgranted.1
      have hrest := ih hnext hlater hclock (fun other hother => hcalls other (by simp [hother]))
        hgranted.2
      rw [exec_cons, exec_cons, List.map_cons, List.map_cons, hreply, hrest]

end Following

/-- Over every run on streams without an expiry, with messages that are not empty, reservations that
are all granted and a clock that does not go back, both storages give the same replies. -/
theorem acid_refines_memory (config : Config) (calls : List Call)
    (hcalls : ∀ call ∈ calls, Ordinary call)
    (hgranted : Along step Granted calls (.new config))
    (hclock : calls.Pairwise fun earlier later => earlier.clock.cleanup ≤ later.clock.cleanup) :
    (exec step calls (.new config)).1.map Reply.observed =
      (exec (Memory.step config.limits) calls .new).1.map Reply.observed := by
  cases calls with
  | nil => rfl
  | cons call calls =>
      have hnew : Refines call.clock.cleanup (.new config) .new :=
        ⟨.new, .new config, by simp [Plain, Memory.InMemoryStorage.new], .refl _ _⟩
      have hfirst := (List.pairwise_cons.mp hclock).1
      refine hnew.exec (fun other hother => ?_) hclock hcalls hgranted
      rcases List.mem_cons.mp hother with rfl | hrest
      · exact le_rfl
      · exact hfirst other hrest

/-- A producer append of one byte. -/
def producerCall (now : Timestamp) (id : String) (seq : Nat) : Call :=
  ⟨.at now, .appendWithProducer "s" [[1]] "text/plain" ⟨id, 0, seq⟩ false none (Size.fits .one)⟩

/-- A run with an accepted request, its retry, a gap, a read and a delete. -/
def mixedRun : List Call :=
  [⟨.at 0, .createStream "s" .plain⟩, producerCall 1 "p" 0, producerCall 2 "p" 0,
    producerCall 3 "p" 2, ⟨.at 4, .batchAppend "s" [[2, 3], [4]] "text/plain" (some "1") (by decide)⟩,
    ⟨.at 5, .read "s" .start⟩, ⟨.at 6, .delete "s"⟩, ⟨.at 7, .head "s"⟩]

theorem acid_refines_memory_mixed_run :
    (exec step mixedRun (.new crowded)).1.map Reply.observed =
      (exec (Memory.step crowded.limits) mixedRun .new).1.map Reply.observed :=
  acid_refines_memory crowded mixedRun (by decide) (by decide +kernel) (by decide)

/-- After eight days a request of another producer fails, and then the clock is two days behind. -/
def backwardRun : List Call :=
  [⟨.at 0, .createStream "s" .plain⟩, producerCall 0 "p" 0,
    producerCall (8 * 24 * 60 * 60 * 1000000000) "q" 5,
    producerCall (6 * 24 * 60 * 60 * 1000000000) "p" 0]

/-- With a clock that goes back the in-memory storage has forgotten a producer that the
transactional storage still knows. -/
theorem acid_refines_memory_clock_back :
    (∀ call ∈ backwardRun, Ordinary call) ∧ Along step Granted backwardRun (.new crowded) ∧
      (exec step backwardRun (.new crowded)).1.map Reply.observed ≠
        (exec (Memory.step crowded.limits) backwardRun .new).1.map Reply.observed := by
  decide +kernel

end DurableStreams.Acid
