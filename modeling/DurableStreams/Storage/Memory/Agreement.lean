import DurableStreams.Storage.Memory.Producers

/-!
# Storages that answer alike

A producer request drops the stale producer records of its stream, also if it is refused. As long as
the clock does not go back this cannot be observed: `Similar` storages, which differ in records that
are stale at a horizon and in their subscribers, answer every later call alike (`step_similar`). A
call that reports no write leaves a similar storage (`step_quiet`).
-/

namespace DurableStreams.Memory

open Lib

/-- Two states of an entry that differ in their subscribers and in producer records that are stale
at the horizon. -/
def Agrees (horizon : Timestamp) (left right : StreamEntry) : Prop :=
  ∃ producers notify, right = { left with producers := producers, notify := notify } ∧
    cleanupStaleProducers horizon producers = cleanupStaleProducers horizon left.producers

/-- Two storages whose streams agree. -/
structure Similar (horizon : Timestamp) (left right : InMemoryStorage) : Prop where
  total : right.totalBytes = left.totalBytes
  streams : FiniteMap.Rel (Agrees horizon) left.streams right.streams

/-! ## Entries -/

namespace Agrees

variable {horizon later : Timestamp} {first second third left right : StreamEntry}

theorem refl (horizon : Timestamp) (stream : StreamEntry) : Agrees horizon stream stream :=
  ⟨stream.producers, stream.notify, rfl, rfl⟩

theorem trans (h : Agrees horizon first second) (h' : Agrees horizon second third) :
    Agrees horizon first third := by
  obtain ⟨producers, notify, rfl, hproducers⟩ := h
  obtain ⟨producers', notify', rfl, hproducers'⟩ := h'
  exact ⟨producers', notify', rfl, hproducers'.trans hproducers⟩

/-- What is stale stays stale. -/
theorem mono (hlater : horizon ≤ later) (h : Agrees horizon left right) :
    Agrees later left right := by
  obtain ⟨producers, notify, rfl, hproducers⟩ := h
  refine ⟨producers, notify, rfl, ?_⟩
  rw [← cleanup_cleanup hlater producers, hproducers, cleanup_cleanup hlater]

/-- Cleaning up removes only what is stale. -/
theorem cleanup (now : Timestamp) (stream : StreamEntry) : Agrees now stream (stream.cleanup now) :=
  ⟨_, stream.notify, rfl, cleanup_cleanup le_rfl _⟩

theorem push (data : Bytes) (h : Agrees horizon left right) :
    Agrees horizon (left.push data) (right.push data) := by
  obtain ⟨producers, notify, rfl, hproducers⟩ := h
  exact ⟨producers, notify, rfl, hproducers⟩

theorem foldl_push (messages : List Bytes) (h : Agrees horizon left right) :
    Agrees horizon (messages.foldl StreamEntry.push left) (messages.foldl StreamEntry.push right) := by
  induction messages generalizing left right with
  | nil => exact h
  | cons data messages ih => exact ih (h.push data)

theorem notifyAll (h : Agrees horizon left right) : Agrees horizon left.notifyAll right.notifyAll := by
  obtain ⟨producers, notify, rfl, hproducers⟩ := h
  exact ⟨producers, notify + 1, rfl, hproducers⟩

theorem close (h : Agrees horizon left right) :
    Agrees horizon { left with closed := true } { right with closed := true } := by
  obtain ⟨producers, notify, rfl, hproducers⟩ := h
  exact ⟨producers, notify, rfl, hproducers⟩

theorem closeIf (shouldClose : Bool) (h : Agrees horizon left right) :
    Agrees horizon (left.closeIf shouldClose) (right.closeIf shouldClose) := by
  cases shouldClose
  · exact h
  · exact h.close

theorem recordSeq (pending : Option String) (h : Agrees horizon left right) :
    Agrees horizon (left.recordSeq pending) (right.recordSeq pending) := by
  obtain ⟨producers, notify, rfl, hproducers⟩ := h
  cases pending <;> exact ⟨producers, notify, rfl, hproducers⟩

/-- A new record makes the same difference to both. -/
theorem recordProducer (now : Timestamp) (producer : ProducerHeaders) (h : Agrees horizon left right) :
    Agrees horizon (left.recordProducer now producer) (right.recordProducer now producer) := by
  obtain ⟨producers, notify, rfl, hproducers⟩ := h
  refine ⟨_, notify, rfl, Finmap.ext_lookup fun id => ?_⟩
  have hsame := congrArg (Finmap.lookup id) hproducers
  rw [lookup_cleanup, lookup_cleanup] at hsame
  dsimp only [StreamEntry.recordProducer]
  rw [lookup_cleanup, lookup_cleanup, FiniteMap.lookup_insert_ite, FiniteMap.lookup_insert_ite]
  split
  · rfl
  · exact hsame

theorem accept (clock : Clock) (producer : ProducerHeaders) (shouldClose : Bool)
    (pending : Option String) (h : Agrees horizon left right) :
    Agrees horizon (left.accept clock producer shouldClose pending)
      (right.accept clock producer shouldClose pending) :=
  ((h.recordSeq pending).closeIf shouldClose).recordProducer clock.stamp producer

/-- Everything a reply shows of a stream is the same. -/
theorem shown (h : Agrees horizon left right) :
    right.config = left.config ∧ right.nextOffset = left.nextOffset ∧ right.closed = left.closed := by
  obtain ⟨producers, notify, rfl, -⟩ := h
  exact ⟨rfl, rfl, rfl⟩

/-- After cleaning up at a later time only the subscribers differ. -/
theorem cleanup_eq (hlater : horizon ≤ later) (h : Agrees horizon left right) :
    ∃ notify, right.cleanup later = { left.cleanup later with notify := notify } := by
  obtain ⟨producers, notify, rfl, hproducers⟩ := h.mono hlater
  refine ⟨notify, ?_⟩
  simp only [StreamEntry.cleanup, hproducers]

end Agrees

/-! ## Plans -/

section Plans

variable {horizon : Timestamp} {left right : StreamEntry} {limits : Limits} {total : Nat}

/-- Two plans that answer alike and leave entries that agree. -/
inductive Plan.Agrees (horizon : Timestamp) : Plan → Plan → Prop
  | finish {reply reply' : Reply} {stream stream' : StreamEntry}
      (hreply : reply'.observed = reply.observed) (hstream : Memory.Agrees horizon stream stream') :
      Plan.Agrees horizon (.finish reply stream) (.finish reply' stream')
  | commit {messages : List Bytes} {stream stream' committed committed' : StreamEntry}
      {refused : Error → Reply} {reply reply' : Reply} (hreply : reply' = reply)
      (hstream : Memory.Agrees horizon stream stream')
      (hcommitted : Memory.Agrees horizon committed committed') :
      Plan.Agrees horizon (.commit messages stream refused reply committed)
        (.commit messages stream' refused reply' committed')

/-- Carrying them out does so too. -/
theorem Plan.Agrees.run {first second : Plan} (h : Plan.Agrees horizon first second)
    (limits : Limits) (total : Nat) :
    (second.run limits total).1.observed = (first.run limits total).1.observed ∧
      (second.run limits total).2.1 = (first.run limits total).2.1 ∧
      Memory.Agrees horizon (first.run limits total).2.2 (second.run limits total).2.2 := by
  cases h with
  | finish hreply hstream => exact ⟨hreply, rfl, hstream⟩
  | @commit messages stream stream' _ _ _ _ _ hreply hstream hcommitted =>
      have hover : overStreamLimit limits messages stream' =
          overStreamLimit limits messages stream := by
        obtain ⟨producers, notify, rfl, -⟩ := hstream
        rfl
      simp only [Plan.run, hover]
      cases reserveTotalBytes limits total (batchBytes messages) with
      | none => exact ⟨rfl, rfl, hstream⟩
      | some reserved =>
          dsimp only
          split
          · exact ⟨rfl, rfl, hstream⟩
          · exact ⟨congrArg _ hreply, rfl, hcommitted⟩

/-- `append_with_producer` looks at the records only after cleaning up. -/
theorem producer_plan_agrees {clock : Clock} {messages : List Bytes} {contentType : String}
    {producer : ProducerHeaders} {shouldClose : Bool} {seq : Option String}
    (hclock : horizon ≤ clock.cleanup) (h : Agrees horizon left right) :
    (producerPlan clock messages contentType producer shouldClose seq left).Agrees clock.cleanup
      (producerPlan clock messages contentType producer shouldClose seq right) := by
  have hreply {left right : StreamEntry} (h : Agrees clock.cleanup left right) :
      acceptedReply producer right = acceptedReply producer left := by
    rw [acceptedReply, acceptedReply, h.shown.2.1, h.shown.2.2]
  obtain ⟨notify, hclean⟩ := h.cleanup_eq hclock
  unfold producerPlan
  rw [h.shown.1, hclean]
  split
  · exact .finish rfl (h.mono hclock)
  generalize left.cleanup clock.cleanup = stream
  have hagrees : Agrees clock.cleanup stream { stream with notify := notify } :=
    ⟨stream.producers, notify, rfl, rfl⟩
  dsimp only
  cases (if messages.isEmpty then .ok ()
      else validateContentType stream.config.contentType contentType : Result Unit) with
  | error error => exact .finish rfl hagrees
  | ok _ =>
      cases checkProducer (stream.producers.lookup producer.id) producer stream.closed with
      | error error => exact .finish rfl hagrees
      | ok check =>
          cases check with
          | duplicate epoch last => exact .finish rfl hagrees
          | accept =>
              cases validateSeq stream.lastSeq seq with
              | error error => exact .finish rfl hagrees
              | ok pending =>
                  dsimp only
                  split
                  · have haccepted := hagrees.accept clock producer shouldClose pending
                    exact .finish (congrArg _ (hreply haccepted)) haccepted
                  · have haccepted := (hagrees.foldl_push messages).notifyAll.accept clock producer
                      shouldClose pending
                    exact .commit (hreply haccepted) hagrees haccepted

/-- Entries that agree are handled alike by every operation. -/
theorem plan_agrees {call : Call} (hclock : horizon ≤ call.clock.cleanup)
    (h : Agrees horizon left right) :
    (plan call left).Agrees call.clock.cleanup (plan call right) := by
  have hlater := h.mono hclock
  obtain ⟨clock, op⟩ := call
  cases op with
  | append name data contentType =>
      obtain ⟨producers, notify, rfl, -⟩ := id h
      simp only [plan, appendPlan]
      split
      · exact .finish rfl hlater
      split
      · exact .finish rfl hlater
      cases validateContentType left.config.contentType contentType with
      | error error => exact .finish rfl hlater
      | ok _ => exact .commit rfl hlater (hlater.push data)
  | batchAppend name messages contentType seq =>
      obtain ⟨producers, notify, rfl, -⟩ := id h
      simp only [plan, batchAppendPlan]
      split
      · exact .finish rfl hlater
      split
      · exact .finish rfl hlater
      cases validateContentType left.config.contentType contentType with
      | error error => exact .finish rfl hlater
      | ok _ =>
          cases validateSeq left.lastSeq seq with
          | error error => exact .finish rfl hlater
          | ok pending =>
              have hcommitted := (hlater.foldl_push messages).notifyAll.recordSeq pending
              refine .commit ?_ hlater hcommitted
              exact congrArg (fun offset => Reply.offset (.ok offset)) hcommitted.shown.2.1
  | closeStream name =>
      obtain ⟨producers, notify, rfl, -⟩ := id h
      simp only [plan, closePlan]
      split
      · exact .finish rfl hlater
      · exact .finish rfl hlater.close.notifyAll
  | appendWithProducer => exact producer_plan_agrees hclock h
  | read | head =>
      obtain ⟨producers, notify, rfl, -⟩ := id h
      exact .finish rfl hlater
  | subscribe | createStream | delete | createStreamWithData | «exists» =>
      obtain ⟨producers, notify, rfl, -⟩ := id h
      simp only [plan]
      split <;> exact .finish rfl hlater

/-- What a plan leaves of an entry if its reply reports no write. A commit always reports one. -/
def Plan.Quiet (horizon : Timestamp) (stream : StreamEntry) : Plan → Prop
  | .finish reply after => reply.writes = false → Memory.Agrees horizon stream after
  | .commit _ checked _ reply _ => Memory.Agrees horizon stream checked ∧ reply.writes = true

/-- Without a write the counter and the entry stay, up to stale records. -/
theorem Plan.Quiet.run {stream : StreamEntry} {plan : Plan} (h : plan.Quiet horizon stream)
    (hwrites : (plan.run limits total).1.writes = false) :
    (plan.run limits total).2.1 = total ∧
      Memory.Agrees horizon stream (plan.run limits total).2.2 := by
  cases plan with
  | finish reply after => exact ⟨rfl, h hwrites⟩
  | commit messages checked refused reply committed =>
      simp only [Plan.run] at hwrites ⊢
      cases hreserve : reserveTotalBytes limits total (batchBytes messages) with
      | none => exact ⟨rfl, h.1⟩
      | some reserved =>
          obtain ⟨rfl, -⟩ := reserve_eq_some_iff.mp hreserve
          simp only [hreserve] at hwrites ⊢
          split
          · exact ⟨Nat.add_sub_cancel _ _, h.1⟩
          · next hover =>
              rw [if_neg hover, h.2] at hwrites
              cases hwrites

/-- Every operation on a stream leaves it alone, up to stale records, if it reports no write. -/
theorem plan_quiet (call : Call) (stream : StreamEntry) :
    (plan call stream).Quiet call.clock.cleanup stream := by
  have hcase := plan_cases call stream
  generalize plan call stream = planned at hcase ⊢
  cases hcase with
  | same => exact fun _ => .refl _ stream
  | append | batch => exact ⟨.refl _ stream, rfl⟩
  | close => exact fun hwrites => by cases hwrites
  | @producer clock _ _ _ _ _ _ _ _ hcase =>
      have hclean := Agrees.cleanup clock.cleanup stream
      cases hcase with
      | expired => exact fun _ => .refl _ stream
      | refused => exact fun _ => hclean
      | closeOnly => exact fun hwrites => by cases hwrites
      | store => exact ⟨hclean, rfl⟩

end Plans

/-! ## Storages -/

namespace Similar

variable {horizon later : Timestamp} {first second third left right : InMemoryStorage}

theorem refl (horizon : Timestamp) (storage : InMemoryStorage) : Similar horizon storage storage :=
  ⟨rfl, .refl (.refl horizon) _⟩

theorem trans (h : Similar horizon first second) (h' : Similar horizon second third) :
    Similar horizon first third :=
  ⟨h'.total.trans h.total, h.streams.trans Agrees.trans h'.streams⟩

theorem mono (hlater : horizon ≤ later) (h : Similar horizon left right) :
    Similar later left right :=
  ⟨h.total, h.streams.imp (Agrees.mono hlater)⟩

/-- Removing streams that agree. -/
theorem remove {name : String} {stream stream' : StreamEntry} (h : Similar horizon left right)
    (hstream : Agrees horizon stream stream') :
    Similar horizon (removeStream left name stream) (removeStream right name stream') := by
  obtain ⟨producers, notify, rfl, -⟩ := hstream
  exact ⟨congrArg (· - stream.totalBytes) h.total, h.streams.erase name⟩

/-- Creates find the same under their name. -/
theorem claim (clock : Clock) (name : String) (h : Similar horizon left right) :
    (∃ stream stream', claimName clock left name = .occupied stream ∧
      claimName clock right name = .occupied stream' ∧ Agrees horizon stream stream') ∨
    ∃ free free', claimName clock left name = .vacant free ∧
      claimName clock right name = .vacant free' ∧ Similar horizon free free' := by
  unfold claimName
  cases hlookup : left.streams.lookup name with
  | none =>
      rw [h.streams.lookup_none hlookup]
      exact .inr ⟨left, right, rfl, rfl, h⟩
  | some stream =>
      obtain ⟨stream', hlookup', hagrees⟩ := h.streams.lookup_some hlookup
      rw [hlookup']
      dsimp only
      rw [hagrees.shown.1]
      split
      · exact .inr ⟨_, _, rfl, rfl, h.remove hagrees⟩
      · exact .inl ⟨stream, stream', rfl, rfl, hagrees⟩

end Similar

section Steps

variable {horizon : Timestamp} {limits : Limits} {call : Call} {storage left right : InMemoryStorage}

/-- Similar storages answer a call alike and stay similar, if its clock is not behind. -/
theorem step_similar (limits : Limits) (hclock : horizon ≤ call.clock.cleanup)
    (h : Similar horizon left right) :
    (step limits call right).1.observed = (step limits call left).1.observed ∧
      Similar call.clock.cleanup (step limits call left).2 (step limits call right).2 := by
  have hlater := h.mono hclock
  cases hop : onStream call.op with
  | true =>
      rw [step_of_stream_op limits left hop, step_of_stream_op limits right hop]
      cases hlookup : left.streams.lookup call.op.name with
      | none =>
          rw [h.streams.lookup_none hlookup]
          exact ⟨rfl, hlater⟩
      | some stream =>
          obtain ⟨stream', hlookup', hagrees⟩ := h.streams.lookup_some hlookup
          obtain ⟨hreply, htotal, hstream⟩ :=
            (plan_agrees hclock hagrees).run limits left.totalBytes
          rw [hlookup', h.total]
          exact ⟨hreply, htotal, hlater.streams.insert hstream⟩
  | false =>
      obtain ⟨clock, op⟩ := call
      cases op with
      | createStream name config =>
          simp only [step, createStream]
          obtain ⟨stream, stream', hclaim, hclaim', hagrees⟩ | ⟨free, free', hclaim, hclaim', hfree⟩ :=
            h.claim clock name
          · rw [hclaim, hclaim']
            dsimp only
            rw [hagrees.shown.1]
            split <;> exact ⟨rfl, hlater⟩
          · rw [hclaim, hclaim']
            exact ⟨rfl, hfree.total, (hfree.mono hclock).streams.insert (.refl _ _)⟩
      | createStreamWithData name config messages shouldClose fits =>
          simp only [step, createStreamWithData]
          obtain ⟨stream, stream', hclaim, hclaim', hagrees⟩ | ⟨free, free', hclaim, hclaim', hfree⟩ :=
            h.claim clock name
          · rw [hclaim, hclaim']
            dsimp only
            rw [hagrees.shown.1, hagrees.shown.2.1, hagrees.shown.2.2]
            split <;> exact ⟨rfl, hlater⟩
          · rw [hclaim, hclaim']
            dsimp only
            rw [hfree.total]
            rcases commitMessages limits free.totalBytes (.new clock.stamp config) messages with
              ⟨error | ⟨⟩, total, entry⟩
            · exact ⟨rfl, rfl, (hfree.mono hclock).streams⟩
            · exact ⟨rfl, rfl, (hfree.mono hclock).streams.insert (.refl _ _)⟩
      | delete name =>
          simp only [step, delete]
          cases hlookup : left.streams.lookup name with
          | none =>
              rw [h.streams.lookup_none hlookup]
              exact ⟨rfl, hlater⟩
          | some stream =>
              obtain ⟨stream', hlookup', hagrees⟩ := h.streams.lookup_some hlookup
              rw [hlookup']
              exact ⟨rfl, hlater.remove (hagrees.mono hclock)⟩
      | batchAppend name messages contentType seq fits =>
          have hempty : messages.isEmpty = true := by simpa [onStream] using hop
          simp only [step, batchAppend, hempty, ↓reduceIte]
          exact ⟨rfl, hlater⟩
      | «exists» name =>
          refine ⟨?_, hlater⟩
          simp only [step, existsStream]
          cases hlookup : left.streams.lookup name with
          | none => rw [h.streams.lookup_none hlookup]
          | some stream =>
              obtain ⟨stream', hlookup', hagrees⟩ := h.streams.lookup_some hlookup
              rw [hlookup']
              dsimp only
              rw [hagrees.shown.1]
      | append | read | head | closeStream | appendWithProducer | subscribe =>
          simp [onStream] at hop

/-- A call that reports no write leaves the streams alone, up to stale producer records. A create
that fails may have removed an expired stream. -/
theorem step_quiet (hwrites : (step limits call storage).1.writes = false) :
    ∃ rest, (rest = storage ∨ claimName call.clock storage call.op.name = .vacant rest) ∧
      Similar call.clock.cleanup rest (step limits call storage).2 := by
  have hsame : Similar call.clock.cleanup storage storage := .refl _ storage
  cases hop : onStream call.op with
  | true =>
      rw [step_of_stream_op limits storage hop] at hwrites ⊢
      refine ⟨storage, .inl rfl, ?_⟩
      cases hlookup : storage.streams.lookup call.op.name with
      | none => exact hsame
      | some stream =>
          rw [hlookup] at hwrites
          obtain ⟨htotal, hagrees⟩ := (plan_quiet call stream).run hwrites
          have hinsert : FiniteMap.Rel (Agrees call.clock.cleanup)
              (storage.streams.insert call.op.name stream) _ := hsame.streams.insert hagrees
          rw [FiniteMap.insert_lookup hlookup] at hinsert
          exact ⟨htotal, hinsert⟩
  | false =>
      have hwhole := step_whole limits storage hop
      generalize step limits call storage = result at hwhole hwrites ⊢
      cases hwhole with
      | unchanged _ => exact ⟨storage, .inl rfl, hsame⟩
      | removed _ _ => cases hwrites
      | claimed _ hclaim _ => exact ⟨_, .inr hclaim, .refl _ _⟩
      | created _ _ hreply _ => cases hwrites.symm.trans hreply

end Steps

end DurableStreams.Memory
