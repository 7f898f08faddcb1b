import DurableStreams.Storage.Memory.Producers

/-!
# Streams only grow

A stream that is not removed keeps its configuration and its messages with their offsets, and a
closed stream stays as it is except for its producer records. Every plan does so (`plan_grows`), so
every run that keeps the stream does (`exec_grows`).
-/

namespace DurableStreams.Memory

open Lib

/-- What can become of a stream: its log is extended, and once it is closed nothing but its producer
records and its subscribers change. -/
structure Grows (before after : StreamEntry) : Prop where
  config : after.config = before.config
  createdAt : after.createdAt = before.createdAt
  messages : before.messages <+: after.messages
  frozen : before.closed = true →
    after.closed = true ∧ SameLog before after ∧ after.lastSeq = before.lastSeq

namespace Grows

variable {first second third stream after : StreamEntry}

theorem refl (stream : StreamEntry) : Grows stream stream :=
  ⟨rfl, rfl, List.prefix_rfl, fun hclosed => ⟨hclosed, .refl stream, rfl⟩⟩

theorem trans (h : Grows first second) (h' : Grows second third) : Grows first third := by
  refine ⟨h'.config.trans h.config, h'.createdAt.trans h.createdAt,
    h.messages.trans h'.messages, fun hclosed => ?_⟩
  obtain ⟨hclosed, hsame, hseq⟩ := h.frozen hclosed
  obtain ⟨hclosed, hsame', hseq'⟩ := h'.frozen hclosed
  exact ⟨hclosed, hsame.trans hsame', hseq'.trans hseq⟩

/-- Dropping stale records. -/
theorem cleanup (now : Timestamp) (stream : StreamEntry) : Grows stream (stream.cleanup now) :=
  ⟨rfl, rfl, List.prefix_rfl, fun hclosed => ⟨hclosed, .cleanup now stream, rfl⟩⟩

/-- Pushing extends the log. -/
theorem prefix_foldl_push (stream : StreamEntry) (messages : List Bytes) :
    stream.messages <+: (messages.foldl StreamEntry.push stream).messages := by
  induction messages generalizing stream with
  | nil => exact List.prefix_rfl
  | cons data messages ih => exact (List.prefix_append _ _).trans (ih (stream.push data))

/-- What happens to the log of an open stream. -/
theorem of_open (messages : List Bytes) (hopen : stream.closed = false)
    (h : SameLog (messages.foldl StreamEntry.push stream) after) : Grows stream after := by
  obtain ⟨hconfig, hcreated⟩ := foldl_push_config stream messages
  refine ⟨h.config.trans hconfig, h.createdAt.trans hcreated, ?_, fun hclosed => ?_⟩
  · rw [h.messages]
    exact prefix_foldl_push stream messages
  · rw [hopen] at hclosed
    cases hclosed

end Grows

/-- Every operation on a stream lets it grow. -/
theorem plan_grows (call : Call) (stream : StreamEntry) :
    (plan call stream).Leaves fun _ after => Grows stream after := by
  have hsame : Grows stream stream := .refl stream
  have hcase := plan_cases call stream
  generalize plan call stream = planned at hcase ⊢
  cases hcase with
  | same => exact hsame
  | append hopen => exact ⟨fun _ => hsame, .of_open [_] hopen (.refl _)⟩
  | @batch _ _ messages _ _ _ pending hopen =>
      refine ⟨fun _ => hsame, .of_open messages hopen ?_⟩
      exact (SameLog.notifyAll _).trans (.recordSeq pending _)
  | close => exact ⟨rfl, rfl, List.prefix_rfl, fun _ => ⟨rfl, ⟨rfl, rfl, rfl, rfl, rfl, rfl⟩, rfl⟩⟩
  | @producer clock _ messages _ producer shouldClose _ _ _ hcase =>
      have hclean := Grows.cleanup clock.cleanup stream
      cases hcase with
      | expired => exact hsame
      | refused => exact hclean
      | closeOnly pending _ hcheck =>
          have hopen := (check_producer_accept_iff.mp hcheck).1
          exact hclean.trans (.of_open [] hopen (.accept clock producer shouldClose pending _))
      | store pending hcheck =>
          have hopen := (check_producer_accept_iff.mp hcheck).1
          refine ⟨fun _ => hclean, hclean.trans (.of_open messages hopen ?_)⟩
          exact (SameLog.notifyAll _).trans (.accept clock producer shouldClose pending _)

section Runs

variable {storage : InMemoryStorage} {name : String} {stream : StreamEntry}

/-- A call that keeps a stream lets it grow. -/
theorem step_grows (limits : Limits) {call : Call} (hlookup : storage.streams.lookup name = some stream)
    (hkeeps : Keeps name stream.config call) :
    ∃ after, (step limits call storage).2.streams.lookup name = some after ∧ Grows stream after := by
  obtain ⟨-, -, -, hafter⟩ | ⟨-, hsame⟩ := step_lookup limits hlookup hkeeps
  · exact ⟨_, hafter, (plan_grows call stream).run limits storage.totalBytes⟩
  · exact ⟨stream, hsame, .refl stream⟩

/-- A plan that adds no messages, going by its reply, leaves the log alone. -/
theorem Plan.Respects.sameLog {call : Call} {plan : Plan} (h : plan.Respects call stream) :
    plan.Leaves fun reply after => call.added reply = [] → SameLog stream after := by
  cases plan with
  | finish reply after => exact fun _ => h.1
  | commit messages checked refused reply committed =>
      obtain ⟨⟨rfl, hchecked, hcommitted⟩, -, hreply⟩ := h
      refine ⟨fun _ _ => hchecked, fun hadded => hchecked.trans ?_⟩
      rw [Call.added, hreply, if_pos rfl] at hadded
      rwa [hadded] at hcommitted

/-- A call that keeps a stream and adds no messages to it leaves its log alone. -/
theorem step_same_log (limits : Limits) {call : Call}
    (hlookup : storage.streams.lookup name = some stream) (hkeeps : Keeps name stream.config call)
    (hquiet : call.op.name = name → call.added (step limits call storage).1 = []) :
    ∃ after, (step limits call storage).2.streams.lookup name = some after ∧
      Grows stream after ∧ SameLog stream after := by
  obtain ⟨hname, -, hreply, hafter⟩ | ⟨-, hsame⟩ := step_lookup limits hlookup hkeeps
  · rw [hreply] at hquiet
    exact ⟨_, hafter, (plan_grows call stream).run limits storage.totalBytes,
      (plan_spec call stream).sameLog.run limits storage.totalBytes (hquiet hname)⟩
  · exact ⟨stream, hsame, .refl stream, .refl stream⟩

/-- A run that keeps a stream lets it grow. -/
theorem exec_grows (limits : Limits) {calls : List Call}
    (hlookup : storage.streams.lookup name = some stream)
    (hkeeps : ∀ call ∈ calls, Keeps name stream.config call) :
    ∃ after, (exec (step limits) calls storage).2.streams.lookup name = some after ∧
      Grows stream after := by
  induction calls generalizing storage stream with
  | nil => exact ⟨stream, hlookup, .refl stream⟩
  | cons call calls ih =>
      obtain ⟨next, hnext, hgrows⟩ := step_grows limits hlookup (hkeeps call (by simp))
      obtain ⟨after, hafter, hgrows'⟩ := ih hnext fun other hother =>
        hgrows.config ▸ hkeeps other (by simp [hother])
      exact ⟨after, hafter, hgrows.trans hgrows'⟩

end Runs

/-- The tail of a stream with fewer than `2 ^ 64` messages does not move back. -/
theorem Grows.next_offset {before after : StreamEntry} (h : Grows before after)
    (hbefore : WellFormed before) (hafter : WellFormed after)
    (hcount : after.messages.length < 2 ^ 64) :
    after.nextOffset.cmp before.nextOffset ≠ .lt := by
  obtain ⟨more, hmore⟩ := h.messages
  have hpayloads : after.payloads = before.payloads ++ more.map Message.data := by
    simp [StreamEntry.payloads, ← hmore]
  have hlength : after.payloads.length < 2 ^ 64 := by simpa [StreamEntry.payloads] using hcount
  have hold : Log.tail before.payloads = Log.offsetAt after.payloads before.payloads.length := by
    rw [hpayloads, Log.offset_at_append le_rfl, Log.tail]
  rw [hafter.next_offset, hbefore.next_offset, hold, Log.tail]
  refine Log.offset_at_not_lt hlength ?_
  simp [hpayloads]

end DurableStreams.Memory
