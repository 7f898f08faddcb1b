import DurableStreams.Storage.Memory.Invariant

/-!
# What writes store

A create with data either reports a new stream, which then holds exactly its messages, or leaves no
new stream behind (`create_with_data_cases`). An append that reports success has stored its messages
behind the log of a stream whose content type it names (`append_cases`).
-/

namespace DurableStreams

/-- Whether a reply reports that a stream has been created with its data. -/
def Reply.createdStream : Reply → Bool
  | .createdWithData (.ok ⟨.created, _, _⟩) => true
  | _ => false

/-- It shows in what can be observed of the reply. -/
@[simp] theorem Reply.observed_created_stream (reply : Reply) :
    reply.observed.createdStream = reply.createdStream := by
  unfold Reply.observed
  split <;> rfl

/-- So does whether messages have been appended. -/
@[simp] theorem Reply.observed_appended (reply : Reply) :
    reply.observed.appended = reply.appended := by
  unfold Reply.observed
  split <;> rfl

/-- A create of a stream is a write. -/
theorem Reply.created_stream_of_not_writes {reply : Reply} (h : reply.writes = false) :
    reply.createdStream = false := by
  unfold Reply.writes at h
  unfold Reply.createdStream
  split <;> simp_all

/-- The content type an operation names. -/
def Op.contentType : Op → Option String
  | .append _ _ contentType _ | .batchAppend _ _ contentType _ _
  | .appendWithProducer _ _ contentType _ _ _ _ => some contentType
  | _ => none

end DurableStreams

namespace DurableStreams.Memory

variable {limits : Limits} {storage : InMemoryStorage} {name : String} {stream : StreamEntry}

/-- What a create with data leaves under its name. -/
theorem create_with_data_cases {clock : Clock} {config : StreamConfig} {messages : List Bytes}
    {shouldClose : Bool} {fits : payloadBytes messages < 2 ^ 64} (h : Invariant limits storage) :
    let outcome :=
      step limits ⟨clock, .createStreamWithData name config messages shouldClose fits⟩ storage
    outcome.1.appended = false ∧
    ((outcome.1.createdStream = true ∧ ∃ entry, outcome.2.streams.lookup name = some entry ∧
        entry.config = config ∧ entry.payloads = messages) ∨
      outcome.1.createdStream = false ∧
        (outcome.2.streams.lookup name = storage.streams.lookup name ∨
          outcome.2.streams.lookup name = none)) := by
  intro outcome
  refine ⟨rfl, ?_⟩
  simp only [outcome, step, createStreamWithData]
  cases hclaim : claimName clock storage name with
  | occupied found =>
      dsimp only
      split <;> exact .inr ⟨rfl, .inl rfl⟩
  | vacant free =>
      have hcommit := commit_messages_outcome (.new clock.stamp config) (Nat.zero_le _)
        (Nat.zero_le _) (h.claim hclaim).globalLimit fits
      dsimp only
      generalize commitMessages limits free.totalBytes (.new clock.stamp config) messages =
        committed at hcommit ⊢
      obtain ⟨result, total, entry⟩ := committed
      cases result with
      | error error =>
          refine .inr ⟨rfl, .inr ?_⟩
          exact (claim_name_lookup hclaim name).trans (if_pos rfl)
      | ok _ =>
          have hclosed := SameLog.closeIf shouldClose entry
          refine .inl ⟨rfl, _, Finmap.lookup_insert _, ?_, ?_⟩
          · exact hclosed.config.trans hcommit.config
          · exact hclosed.payloads.trans hcommit.payloads

/-- Messages of another content type are not appended. -/
theorem plan_mismatch {call : Call} {contentType : String}
    (hcontent : call.op.contentType = some contentType) (hmessages : call.op.messages ≠ [])
    (h : eqIgnoreAsciiCase contentType stream.config.contentType = false) :
    (plan call stream).Leaves fun reply _ => reply.appended = false := by
  have hvalidate : validateContentType stream.config.contentType contentType =
      .error (.contentTypeMismatch stream.config.contentType contentType) := by
    rw [validateContentType, h]
    rfl
  obtain ⟨clock, op⟩ := call
  cases op with
  | append name data requestType fits =>
      obtain rfl : requestType = contentType := Option.some.inj hcontent
      simp only [plan, appendPlan, hvalidate]
      split_ifs <;> rfl
  | batchAppend name messages requestType seq fits =>
      obtain rfl : requestType = contentType := Option.some.inj hcontent
      simp only [plan, batchAppendPlan, hvalidate]
      split_ifs <;> rfl
  | appendWithProducer name messages requestType producer shouldClose seq fits =>
      obtain rfl : requestType = contentType := Option.some.inj hcontent
      have hempty : messages.isEmpty = false := by simpa [Op.messages] using hmessages
      simp only [plan, producerPlan, hempty, Bool.false_eq_true, ↓reduceIte, StreamEntry.cleanup,
        hvalidate]
      split_ifs <;> rfl
  | createStream | read | delete | head | closeStream | createStreamWithData | «exists»
  | subscribe => cases hcontent

/-- What an operation on a stream leaves under its name. If it reports an append of messages, it has
named the content type of the stream. -/
theorem append_cases {call : Call} (h : Invariant limits storage)
    (hop : onStream call.op = true) (hlookup : storage.streams.lookup call.op.name = some stream) :
    ∃ after, (step limits call storage).2.streams.lookup call.op.name = some after ∧
      after.config = stream.config ∧
      after.payloads = stream.payloads ++ call.added (step limits call storage).1 ∧
      ∀ contentType, call.op.contentType = some contentType →
        (step limits call storage).1.appended = true → call.op.messages ≠ [] →
          eqIgnoreAsciiCase contentType stream.config.contentType = true := by
  obtain ⟨after, hafter, hconfig, hpayloads⟩ := step_on_stream_grows h hop hlookup
  refine ⟨after, hafter, hconfig, hpayloads, fun contentType hcontent happended hmessages => ?_⟩
  by_contra hdiffers
  have hrefused := (plan_mismatch hcontent hmessages (Bool.eq_false_iff.mpr hdiffers)).run limits
    storage.totalBytes
  rw [step_on_stream limits hop hlookup] at happended
  rw [hrefused] at happended
  exact nomatch happended

end DurableStreams.Memory
