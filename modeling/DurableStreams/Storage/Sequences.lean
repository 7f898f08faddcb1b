import DurableStreams.Storage.Acid.Signals
import DurableStreams.Storage.File.Refinement
import DurableStreams.Storage.File.Signals
import DurableStreams.Storage.Memory.Producers

/-!
# Stream-Seq over whole runs

A request may carry a Stream-Seq value, which has to be greater than the last one the stream
accepted. `Sequenced` says what an operation under a stream lock does with it, and `SeqStep` what a
call does to the stream under a name. Every call of every backend is such a step, whether or not a
file-system or database call fails in it, so along every run the accepted values are strictly
increasing and the stream remembers the last of them (`stream_seq_ordered`).
-/

namespace DurableStreams

open Lib

/-- The Stream-Seq values a stream has accepted, after one more call: a new stream has accepted none,
and a call that appends adds its own. -/
def acceptSeq (name : String) (seqs : List String) (call : Call) (reply : Reply) : List String :=
  if call.op.name ≠ name then seqs
  else if call.creates reply then []
  else if reply.appended then seqs ++ call.op.seq.toList
  else seqs

/-- The Stream-Seq values the current stream of that name has accepted, going by the replies. -/
def acceptedSeqs (name : String) (calls : List Call) (replies : List Reply) : List String :=
  (calls.zip replies).foldl (fun seqs (call, reply) => acceptSeq name seqs call reply) []

/-- The values are strictly increasing byte by byte, and this is the last of them. -/
structure Ordered (seqs : List String) (last : Option String) : Prop where
  increasing : seqs.Pairwise fun first second => strBytes first < strBytes second
  last : seqs.getLast? = last

/-- A greater value may follow. -/
theorem Ordered.accept {seqs : List String} {last : Option String} {seq : String}
    (h : Ordered seqs last) (hlast : ∀ value, last = some value → strBytes value < strBytes seq) :
    Ordered (seqs ++ [seq]) (some seq) := by
  refine ⟨List.pairwise_append.mpr ⟨h.increasing, List.pairwise_singleton _ _, ?_⟩, by simp⟩
  intro value hvalue other hother
  obtain rfl := List.mem_singleton.mp hother
  rcases seqs.eq_nil_or_concat with rfl | ⟨front, final, rfl⟩
  · cases hvalue
  rw [List.concat_eq_append] at h hvalue
  have hfinal := hlast final (h.last.symm.trans List.getLast?_concat)
  obtain hfront | hend := List.mem_append.mp hvalue
  · have hbefore := (List.pairwise_append.mp h.increasing).2.2 value hfront final (by simp)
    exact List.lt_trans hbefore hfinal
  · rwa [List.mem_singleton.mp hend]

/-- A pending value is the one of the request, and greater than the last one. -/
theorem validate_seq_ok {last seq pending : Option String} (h : validateSeq last seq = .ok pending) :
    pending = seq ∧ ∀ new, seq = some new → ∀ value, last = some value →
      strBytes value < strBytes new := by
  cases seq with
  | none => exact ⟨(Except.ok.inj h).symm, nofun⟩
  | some new =>
      cases last with
      | none => exact ⟨(Except.ok.inj h).symm, nofun⟩
      | some value =>
          rw [validateSeq] at h
          split at h
          · next hlt =>
              refine ⟨(Except.ok.inj h).symm, ?_⟩
              rintro _ ⟨⟩ _ ⟨⟩
              exact hlt
          · cases h

/-- What an operation on a stream does with its Stream-Seq value: `before` and `after` are the last
accepted value and what is stored. -/
structure Sequenced {σ : Type} (op : Op) (reply : Reply) (before after : Option String × σ) :
    Prop where
  accepted : ∀ seq, op.seq = some seq → reply.appended = true →
    after.1 = some seq ∧ ∀ value, before.1 = some value → strBytes value < strBytes seq
  kept : op.seq = none ∨ reply.appended = false → after.1 = before.1
  refused : ∀ seq value, op.seq = some seq → before.1 = some value →
    ¬ strBytes value < strBytes seq → after = before

namespace Sequenced

variable {σ : Type} {op : Op} {reply : Reply} {before after : Option String × σ}

/-- Nothing is stored. -/
theorem idle (hreply : reply.appended = false) (hafter : after = before) :
    Sequenced op reply before after where
  accepted := by simp [hreply]
  kept _ := by rw [hafter]
  refused _ _ _ _ _ := hafter

/-- The operation carries no value. -/
theorem plain (hop : op.seq = none) (hafter : after.1 = before.1) :
    Sequenced op reply before after where
  accepted := by simp [hop]
  kept _ := hafter
  refused := by simp [hop]

/-- A value passed the check and was not committed, since the request failed later. -/
theorem failed {pending : Option String} (hseq : validateSeq before.1 op.seq = .ok pending)
    (hreply : reply.appended = false) (hafter : after.1 = before.1) :
    Sequenced op reply before after where
  accepted := by simp [hreply]
  kept _ := hafter
  refused seq value hop hvalue hlt := absurd ((validate_seq_ok hseq).2 seq hop value hvalue) hlt

/-- A value passed the check and was committed. -/
theorem stored {pending : Option String} (hseq : validateSeq before.1 op.seq = .ok pending)
    (hreply : reply.appended = true) (hafter : after.1 = pending.or before.1) :
    Sequenced op reply before after where
  accepted seq hop _ := by
    refine ⟨?_, (validate_seq_ok hseq).2 seq hop⟩
    rw [hafter, (validate_seq_ok hseq).1, hop, Option.some_or]
  kept hquiet := by
    have hop : op.seq = none := hquiet.resolve_right (by simp [hreply])
    rw [hafter, (validate_seq_ok hseq).1, hop, Option.none_or]
  refused seq value hop hvalue hlt := absurd ((validate_seq_ok hseq).2 seq hop value hvalue) hlt

end Sequenced

/-- What a call does to the stream under a name, given the last accepted value and what is stored
there before and after. -/
inductive SeqStep {σ : Type} (name : String) (call : Call) (reply : Reply) :
    Option (Option String × σ) → Option (Option String × σ) → Prop
  | elsewhere {before after : Option (Option String × σ)} (hname : call.op.name ≠ name)
      (hlast : after.map Prod.fst = before.map Prod.fst) : SeqStep name call reply before after
  | absent (hname : call.op.name = name) : SeqStep name call reply none none
  | gone {before : Option (Option String × σ)} (hname : call.op.name = name)
      (hop : call.op.isBatch = false) : SeqStep name call reply before none
  | created {before : Option (Option String × σ)} {after : σ} (hname : call.op.name = name)
      (hop : call.op.isBatch = false) (hreply : call.creates reply = true) :
      SeqStep name call reply before (some (none, after))
  | worked {before after : Option String × σ} (hname : call.op.name = name)
      (hreply : call.creates reply = false) (hseq : Sequenced call.op reply before after) :
      SeqStep name call reply (some before) (some after)

/-- A call that leaves its stream alone, or does not find it. -/
theorem SeqStep.idle {σ : Type} {name : String} {call : Call} {reply : Reply}
    {before after : Option (Option String × σ)} (hname : call.op.name = name)
    (happended : reply.appended = false) (hreply : call.creates reply = false)
    (hafter : after = before) : SeqStep name call reply before after := by
  subst hafter
  cases after with
  | none => exact .absent hname
  | some current => exact .worked hname hreply (.idle happended rfl)

section Runs

variable {ι σ τ : Type} (call : ι → Call) (step : ι → σ → Reply × σ)
  (view : String → σ → Option (Option String × τ))

/-- Along every run from the start, the values that the stream of a name has accepted are ordered and
the last one is remembered. A request whose value is not greater stores nothing, and a request that is
refused or a duplicate does not change which value is remembered. -/
def OrdersSeqs (start : σ) : Prop :=
  ∀ (inputs : List ι) (name : String) (last : Option String) (stored : τ),
    let (replies, state) := exec step inputs start
    view name state = some (last, stored) →
    Ordered (acceptedSeqs name (inputs.map call) replies) last ∧
    ∀ input, (call input).op.name = name → (call input).op.isBatch = true →
      let (reply, next) := step input state
      ∃ last' stored', view name next = some (last', stored') ∧
        (∀ seq value, (call input).op.seq = some seq → last = some value →
          ¬ strBytes value < strBytes seq → last' = last ∧ stored' = stored) ∧
        (reply.appended = false → last' = last)

variable {call step view}

/-- One call keeps the accepted values ordered. -/
theorem SeqStep.ordered {name : String} {made : Call} {reply : Reply}
    {before after : Option (Option String × τ)} {seqs : List String}
    (h : SeqStep name made reply before after)
    (hordered : ∀ current, before = some current → Ordered seqs current.1) :
    ∀ current, after = some current → Ordered (acceptSeq name seqs made reply) current.1 := by
  intro current hcurrent
  cases h with
  | elsewhere hname hlast =>
      rw [acceptSeq, if_pos hname]
      rw [hcurrent, Option.map_some] at hlast
      obtain ⟨old, hold, heq⟩ := Option.map_eq_some_iff.mp hlast.symm
      rw [← heq]
      exact hordered old hold
  | absent | gone => cases hcurrent
  | created hname hop hreply =>
      cases hcurrent
      rw [acceptSeq, if_neg (not_not.mpr hname), if_pos hreply]
      exact ⟨List.Pairwise.nil, rfl⟩
  | @worked before after hname hreply hseq =>
      cases hcurrent
      have hbefore := hordered before rfl
      rw [acceptSeq, if_neg (not_not.mpr hname), if_neg (by simp [hreply])]
      cases happended : reply.appended with
      | false =>
          rw [if_neg Bool.false_ne_true, hseq.kept (.inr happended)]
          exact hbefore
      | true =>
          rw [if_pos rfl]
          cases hop : made.op.seq with
          | none =>
              rw [hseq.kept (.inl hop), Option.toList_none, List.append_nil]
              exact hbefore
          | some seq =>
              obtain ⟨hafter, hlt⟩ := hseq.accepted seq hop happended
              rw [hafter, Option.toList_some]
              exact hbefore.accept hlt

/-- So does a run. -/
theorem exec_ordered (hstep : ∀ name input state,
      SeqStep name (call input) (step input state).1 (view name state)
        (view name (step input state).2))
    (name : String) (inputs : List ι) {state : σ} {seqs : List String}
    (hordered : ∀ current, view name state = some current → Ordered seqs current.1) :
    ∀ current, view name (exec step inputs state).2 = some current →
      Ordered (((inputs.map call).zip (exec step inputs state).1).foldl
        (fun seqs (call, reply) => acceptSeq name seqs call reply) seqs) current.1 := by
  induction inputs generalizing state seqs with
  | nil => exact hordered
  | cons input inputs ih => exact ih ((hstep name input state).ordered hordered)

/-- A backend whose calls are such steps orders Stream-Seq values. -/
theorem orders_seqs (hstep : ∀ name input state,
      SeqStep name (call input) (step input state).1 (view name state)
        (view name (step input state).2))
    {start : σ} (hstart : ∀ name, view name start = none) : OrdersSeqs call step view start := by
  intro inputs name last stored hview
  refine ⟨exec_ordered hstep name inputs (by simp [hstart]) _ hview, fun input hname hbatch => ?_⟩
  have hcall := hstep name input (exec step inputs start).2
  rw [hview] at hcall
  generalize hafter : view name (step input (exec step inputs start).2).2 = after at hcall
  cases hcall with
  | elsewhere hne => exact absurd hname hne
  | gone _ hop | created _ hop => simp [hop] at hbatch
  | @worked _ after _ _ hseq =>
      refine ⟨after.1, after.2, hafter, fun seq value hop hvalue hlt => ?_,
        fun hreply => hseq.kept (.inr hreply)⟩
      rw [hseq.refused seq value hop hvalue hlt]
      exact ⟨rfl, rfl⟩

end Runs

end DurableStreams

namespace DurableStreams.Memory

open Lib

/-- The last accepted value and the messages of a stream. -/
def StreamEntry.sequence (stream : StreamEntry) : Option String × List Message :=
  (stream.lastSeq, stream.messages)

/-- The same for the stream of that name. -/
def sequence (name : String) (storage : InMemoryStorage) : Option (Option String × List Message) :=
  (storage.streams.lookup name).map StreamEntry.sequence

section Sections

variable (clock : Clock) (stream : StreamEntry)

theorem record_seq_last_seq (pending : Option String) :
    (stream.recordSeq pending).lastSeq = pending.or stream.lastSeq := by
  cases pending <;> rfl

theorem accept_last_seq (producer : ProducerHeaders) (shouldClose : Bool) (pending : Option String) :
    (stream.accept clock producer shouldClose pending).lastSeq = pending.or stream.lastSeq := by
  exact (close_if_last_seq _ shouldClose).trans (record_seq_last_seq stream pending)

end Sections

/-- What an operation on a stream does with its value. -/
theorem plan_sequenced (call : Call) (stream : StreamEntry) :
    (plan call stream).Leaves fun reply after =>
      DurableStreams.Sequenced call.op reply stream.sequence after.sequence := by
  have hcase := plan_cases call stream
  generalize plan call stream = planned at hcase ⊢
  cases hcase with
  | same hreply => exact .idle hreply rfl
  | append => exact ⟨fun error => .plain rfl rfl, .plain rfl rfl⟩
  | @batch _ _ messages _ _ _ pending _ hseq =>
      refine ⟨fun error => .failed hseq rfl rfl, .stored hseq rfl ?_⟩
      exact (record_seq_last_seq _ pending).trans
        (congrArg pending.or (foldl_push_last_seq stream messages))
  | close => exact .plain rfl rfl
  | @producer clock _ messages _ producer shouldClose _ _ _ hcase =>
      cases hcase with
      | expired => exact .idle rfl rfl
      | refused hreply => exact .idle hreply rfl
      | closeOnly pending _ _ hseq =>
          exact .stored hseq rfl (accept_last_seq clock _ producer shouldClose pending)
      | store pending _ hseq =>
          refine ⟨fun error => .failed hseq rfl rfl, .stored hseq rfl ?_⟩
          exact (accept_last_seq clock _ producer shouldClose pending).trans
            (congrArg pending.or (foldl_push_last_seq _ messages))

/-- What a call does to the stream under a name. -/
theorem step_sequenced (limits : Limits) (name : String) (call : Call) (storage : InMemoryStorage) :
    SeqStep name call (step limits call storage).1 (sequence name storage)
      (sequence name (step limits call storage).2) := by
  by_cases hname : call.op.name = name
  swap
  · exact .elsewhere hname (by rw [sequence, step_others limits call storage hname, sequence])
  subst hname
  cases hop : onStream call.op with
  | true =>
      rw [step_of_stream_op limits storage hop, sequence, sequence]
      cases hlookup : storage.streams.lookup call.op.name with
      | none =>
          dsimp only
          rw [hlookup]
          exact .absent rfl
      | some stream =>
          dsimp only
          rw [Finmap.lookup_insert, Option.map_some, Option.map_some]
          refine .worked rfl ?_ ((plan_sequenced call stream).run limits storage.totalBytes)
          rw [Call.creates, on_stream_config hop, Option.isSome_none, Bool.false_and]
  | false =>
      have hwhole := step_whole limits storage hop
      generalize step limits call storage = result at hwhole ⊢
      cases hwhole with
      | unchanged hreply =>
          exact .idle rfl (Reply.appended_of_not_writes hreply) (Call.creates_of_not_writes hreply) rfl
      | removed hdelete _ =>
          simp only [sequence, removeStream, Finmap.lookup_erase, Option.map_none]
          exact .gone rfl (by rw [hdelete]; rfl)
      | claimed hconfig hclaim _ =>
          simp only [sequence, claim_name_lookup hclaim, if_pos, Option.map_none]
          exact .gone rfl (Op.is_batch_of_config hconfig)
      | created hconfig hclaim hreply hlast =>
          simp only [sequence, Finmap.lookup_insert, Option.map_some, StreamEntry.sequence, hlast]
          exact .created rfl (Op.is_batch_of_config hconfig)
            (by rw [Call.creates, hconfig, hreply, Bool.true_and])

end DurableStreams.Memory

namespace DurableStreams.File

open Lib

/-- The last accepted value, and the index and the log of a stream. -/
def sequence (name : String) (storage : FileStorage) :
    Option (Option String × List MessageIndex × Bytes) :=
  (storage.streams.lookup name).map fun stream =>
    (stream.lastSeq, stream.index, storage.log stream.dir)

/-- What an operation on a stream leaves: the last accepted value, the index, the directory and what
is to be done there. -/
def StreamEntry.sequence (stream : StreamEntry) (actions : List DirAction) :
    Option String × List MessageIndex × String × List DirAction :=
  (stream.lastSeq, stream.index, stream.dir, actions)

section Sections

variable (config : Config) (faults : Faults) (clock : Clock) (name : String) (total logLen : Nat)
  (stream : StreamEntry)

theorem foldl_push_record_last_seq (messages : List Bytes) :
    (messages.foldl StreamEntry.pushRecord stream).lastSeq = stream.lastSeq := by
  induction messages generalizing stream with
  | nil => rfl
  | cons data messages ih => exact ih (stream.pushRecord data)

theorem close_if_last_seq (shouldClose : Bool) :
    (stream.closeIf shouldClose).lastSeq = stream.lastSeq := by
  cases shouldClose <;> rfl

/-- Appending records does not commit a value. -/
theorem RecordsCase.lastSeq {messages : List Bytes} {written : Outcome Unit}
    (h : RecordsCase total stream messages written) : written.stream.lastSeq = stream.lastSeq := by
  cases h with
  | quiet | failed => rfl
  | written => exact foldl_push_record_last_seq stream messages

/-- What `close_stream` does to it. -/
theorem close_section_last_seq :
    (closeSection config faults clock name total stream).stream.lastSeq = stream.lastSeq := by
  unfold closeSection
  split
  · rfl
  dsimp only
  split <;> rfl

/-- What an append does with its value. -/
theorem AppendCase.sequenced {α : Type} {op : Op} {messages : List Bytes} {closes : Bool}
    {now : Timestamp} {wrap : Result α → Reply} {outcome : Outcome α}
    (h : AppendCase config faults name messages op.seq closes now total logLen stream wrap outcome) :
    Sequenced op (wrap outcome.result) (stream.sequence [])
      (outcome.stream.sequence outcome.actions) := by
  have hlast {checked : StreamEntry} (hchecked : Checked now stream checked) :
      checked.sequence [] = stream.sequence [] := by
    obtain rfl | rfl := hchecked <;> rfl
  cases h with
  | quiet hchecked hreply => exact .idle hreply (hlast hchecked)
  | failed hchecked hseq _ hreply =>
      rw [← hlast hchecked]
      exact .failed hseq hreply (append_records_outcome ..).lastSeq
  | stored hchecked hseq _ hafter _ hreply =>
      rw [← hlast hchecked]
      exact .stored hseq hreply (hafter.lastSeq.trans
        (congrArg (Option.or _) (append_records_outcome ..).lastSeq))

end Sections

section Steps

variable {config : Config} {faults : Faults} {storage : FileStorage} {name : String}

/-- A section on a stream is a step of the stream. -/
theorem with_stream_sequenced {α : Type} (call : Call) (wrap : Result α → Reply)
    (body : Nat → Nat → StreamEntry → Outcome α) (hconfig : call.op.config = none)
    (hbody : ∀ total logLen stream, Sequenced call.op (wrap (body total logLen stream).result)
      (stream.sequence [])
      ((body total logLen stream).stream.sequence (body total logLen stream).actions)) :
    SeqStep call.op.name call (wrap (withStream storage call.op.name body).1)
      (sequence call.op.name storage) (sequence call.op.name (withStream storage call.op.name body).2) := by
  unfold withStream
  cases hlookup : storage.streams.lookup call.op.name with
  | none =>
      have hnone : sequence call.op.name storage = none := by rw [sequence, hlookup, Option.map_none]
      dsimp only
      rw [hnone]
      exact .absent rfl
  | some stream =>
      have hsequenced := hbody storage.totalBytes (storage.log stream.dir).length stream
      simp only [sequence, hlookup, Option.map_some, Finmap.lookup_insert]
      generalize body storage.totalBytes (storage.log stream.dir).length stream = outcome
        at hsequenced ⊢
      refine .worked rfl (by rw [Call.creates, hconfig]; rfl)
        ⟨hsequenced.accepted, hsequenced.kept, fun seq value hop hvalue hlt => ?_⟩
      obtain ⟨hlast, hindex, hdir, hactions⟩ : outcome.stream.lastSeq = stream.lastSeq ∧
          outcome.stream.index = stream.index ∧ outcome.stream.dir = stream.dir ∧
            outcome.actions = [] := by
        simpa [StreamEntry.sequence] using hsequenced.refused seq value hop hvalue hlt
      rw [hlast, hindex, hdir, hactions, within_nil]
      rfl

/-- A stream that is gone. -/
theorem sequence_gone (h : storage.streams.lookup name = none) : sequence name storage = none := by
  rw [sequence, h, Option.map_none]

/-- A create is a step of the stream. A new stream has accepted no value. -/
theorem create_sequenced (call : Call) (wrap : Result CreateWithDataResult → Reply)
    (streamConfig : StreamConfig) (messages : List Bytes) (shouldClose : Bool)
    (hop : call.op.isBatch = false) (happended : ∀ result, (wrap result).appended = false)
    (hcreates : ∀ result, call.creates (wrap result) =
      result.toOption.any fun made => made.status == .created) :
    let created := createStreamWithData config faults call.clock storage call.op.name streamConfig
      messages shouldClose
    SeqStep call.op.name call (wrap created.1) (sequence call.op.name storage)
      (sequence call.op.name created.2) := by
  have hcases := create_cases config faults call.clock storage call.op.name streamConfig messages
    shouldClose
  generalize createStreamWithData config faults call.clock storage call.op.name streamConfig messages
    shouldClose = created at hcases ⊢
  obtain ⟨reply, after⟩ := created
  dsimp only
  obtain ⟨hsame, hstatus⟩ | hnone | ⟨_, _, _, _, _, _, rfl, hentry⟩ := hcases
  · refine .idle rfl (happended _) ?_ (congrArg _ hsame)
    rw [hcreates]
    cases reply with
    | error error => rfl
    | ok made => simp [Except.toOption, hstatus made rfl]
  · exact sequence_gone hnone ▸ .gone rfl hop
  · have hafter := congrArg (Option.map fun stream : StreamEntry =>
      (stream.lastSeq, stream.index, after.log stream.dir)) hentry
    rw [Option.map_some, close_if_last_seq, (append_records_outcome ..).lastSeq] at hafter
    rw [show sequence call.op.name after = _ from hafter]
    exact .created rfl hop (hcreates _)

/-- What a call does to the stream under a name. -/
theorem step_sequenced (config : Config) (name : String) (input : Faults × Call)
    (storage : FileStorage) :
    SeqStep name input.2 (step config input.1 input.2 storage).1 (sequence name storage)
      (sequence name (step config input.1 input.2 storage).2) := by
  obtain ⟨faults, call⟩ := input
  dsimp only
  by_cases hname : call.op.name = name
  swap
  · refine .elsewhere hname ?_
    simp only [sequence, step_others config faults call storage hname, Option.map_map]
    rfl
  subst hname
  cases hop : call.op.isAppend with
  | true =>
      have hconfig : call.op.config = none := by
        generalize call.op = op at hop
        cases op <;> first | rfl | cases hop
      obtain ⟨reply, hreply, hstep⟩ | ⟨_, wrap, body, _, -, hcases, hstep⟩ :=
        append_step config faults storage hop
      · rw [hstep]
        exact .idle rfl (Reply.appended_of_not_writes hreply) (by rw [Call.creates, hconfig]; rfl) rfl
      · rw [hstep]
        exact with_stream_sequenced call wrap body hconfig fun total logLen stream =>
          (hcases total logLen stream).sequenced
  | false =>
  obtain ⟨clock, op⟩ := call
  cases op with
  | createStream target streamConfig =>
      simp only [step, create_stream_eq]
      exact create_sequenced ⟨clock, .createStream target streamConfig⟩
        (fun result => .created (result.map CreateWithDataResult.status)) streamConfig [] false rfl
        (fun _ => rfl) (by rintro (_ | ⟨_ | _, _, _⟩) <;> rfl)
  | createStreamWithData target streamConfig messages shouldClose fits =>
      exact create_sequenced
        ⟨clock, .createStreamWithData target streamConfig messages shouldClose fits⟩ .createdWithData
        streamConfig messages shouldClose rfl (fun _ => rfl)
        (by rintro (_ | ⟨_ | _, _, _⟩) <;> rfl)
  | append | batchAppend | appendWithProducer => cases hop
  | closeStream target =>
      exact with_stream_sequenced ⟨clock, .closeStream target⟩ .done
        (fun total _ => closeSection config faults clock target total) rfl
        fun total logLen stream =>
          .plain rfl (close_section_last_seq config faults clock target total stream)
  | delete target =>
      simp only [step, delete]
      cases hlookup : storage.streams.lookup target with
      | none => exact .idle rfl rfl rfl rfl
      | some stream => exact sequence_gone (remove_gone ..) ▸ .gone rfl rfl
  | read | head | «exists» | subscribe => exact .idle rfl rfl rfl rfl

end Steps

end DurableStreams.File

namespace DurableStreams.Acid

open Lib

variable {config : Config}

/-- The last accepted value and the rows of a stream. -/
def sequence (name : String) (storage : AcidStorage config) :
    Option (Option String × List (MessageKey × Bytes)) :=
  ((storage.shard name).streams.lookup name).map fun saved =>
    (saved.lastSeq, (storage.shard name).messages.part (ofName name))

/-- Run a call, or abort it with an error of the database. -/
def attempt (input : Option Error × Call) (storage : AcidStorage config) :
    Reply × AcidStorage config :=
  match input.1 with
  | none => step input.2 storage
  | some error => (input.2.op.failure error, abort storage input.2)

section Rows

variable {storage after : AcidStorage config} {name : String}

/-- It is kept in the shards. -/
theorem sequence_congr (h : after.shards = storage.shards) :
    sequence name after = sequence name storage := by
  simp only [sequence, AcidStorage.shard, h]

/-- Writing the row of a stream is a step of the stream. -/
theorem row_sequenced (call : Call) (written : StoredStreamMeta)
    (table : OrderedTable MessageKey Bytes) {reply : Reply} {saved : StoredStreamMeta}
    (hconfig : call.op.config = none)
    (hlookup : (storage.shard call.op.name).streams.lookup call.op.name = some saved)
    (hshards : after.shards = (storage.commit call.op.name
      ((storage.shard call.op.name).write call.op.name (written, table))).shards)
    (hseq : Sequenced call.op reply
      (saved.lastSeq, (storage.shard call.op.name).messages.part (ofName call.op.name))
      (written.lastSeq, table.part (ofName call.op.name))) :
    SeqStep call.op.name call reply (sequence call.op.name storage)
      (sequence call.op.name after) := by
  have hshard : after.shard call.op.name =
      (storage.shard call.op.name).write call.op.name (written, table) := by
    rw [AcidStorage.shard, hshards]
    exact Function.update_self ..
  rw [sequence, hlookup, Option.map_some, sequence, hshard, Shard.write, Finmap.lookup_insert,
    Option.map_some]
  exact .worked rfl (by rw [Call.creates, hconfig]; rfl) hseq

end Rows

section Steps

variable {storage : AcidStorage config}

/-- What an operation on a stream does to it. -/
theorem update_sequenced (call : Call) (storage : AcidStorage config)
    (hupdates : updates call.op = true) :
    SeqStep call.op.name call (step call storage).1 (sequence call.op.name storage)
      (sequence call.op.name (step call storage).2) := by
  have hconfig : call.op.config = none := by cases hop : call.op <;> simp_all [updates, Op.config]
  cases step_updated call storage hupdates with
  | nothing total hstep hquiet _ =>
      refine .idle rfl hquiet ?_ (sequence_congr (by rw [hstep, announced_shards]))
      rw [Call.creates, hconfig]
      rfl
  | row total saved written table hlookup hstep _ _ _ hseq =>
      obtain ⟨pending, hvalid, hlast, happended⟩ := hseq
      refine row_sequenced call written table hconfig hlookup
        (by rw [hstep, announced_shards]; rfl) ?_
      obtain happended | hnone := happended
      · exact .stored hvalid happended hlast
      · rw [hnone] at hvalid
        obtain rfl := Except.ok.inj hvalid
        exact .plain hnone hlast

/-- A create on a name with room writes a row without a value. -/
theorem create_sequenced (call : Call) {reply : Reply} {after : AcidStorage config}
    (hrow : ∃ shard written table, after.shards =
      (storage.commit call.op.name (Shard.write shard call.op.name (written, table))).shards ∧
        written.lastSeq = none)
    (hop : call.op.isBatch = false) (hcreates : call.creates reply = true) :
    SeqStep call.op.name call reply (sequence call.op.name storage)
      (sequence call.op.name after) := by
  obtain ⟨shard, written, table, hshards, hlast⟩ := hrow
  have hshard : after.shard call.op.name = shard.write call.op.name (written, table) := by
    rw [AcidStorage.shard, hshards]
    exact Function.update_self ..
  have hafter : sequence call.op.name after =
      some (none, table.part (ofName call.op.name)) := by
    rw [sequence, hshard, Shard.write, Finmap.lookup_insert, Option.map_some, hlast]
  rw [hafter]
  exact .created rfl hop hcreates

/-- What the other operations do. -/
theorem other_sequenced (call : Call) (storage : AcidStorage config)
    (hupdates : updates call.op = false) :
    SeqStep call.op.name call (step call storage).1 (sequence call.op.name storage)
      (sequence call.op.name (step call storage).2) := by
  by_cases hcreate : call.op.config.isSome = true
  · cases step_created call storage hcreate with
    | nothing hreply hshards _ _ =>
        exact .idle rfl (Reply.appended_of_not_writes hreply) (Call.creates_of_not_writes hreply)
          (sequence_congr hshards)
    | row closed hclaim _ hreply hshards _ =>
        refine create_sequenced call ⟨_, _, _, hshards, ?_⟩ (Op.is_batch_of_config hcreate) ?_
        · rw [close_if_last_seq, newRow, (insert_messages_keeps _ _ _ _).1]
          rfl
        · rw [Call.creates, hcreate, hreply, Bool.true_and]
  obtain ⟨clock, op⟩ := call
  cases op with
  | createStream | createStreamWithData => exact absurd rfl hcreate
  | delete target =>
      simp only [step, delete]
      cases hlookup : (storage.shard target).streams.lookup target with
      | none => exact .idle rfl rfl rfl rfl
      | some found =>
          simp only [Prod.map, id, Op.name, sequence, deleted_lookup, Option.map_none]
          exact .gone rfl rfl
  | subscribe target =>
      exact .idle rfl rfl rfl (sequence_congr (subscribe_shards ..))
  | read | head | «exists» => exact .idle rfl rfl rfl rfl
  | append | batchAppend | appendWithProducer | closeStream => cases hupdates

/-- What a call does to the stream under a name. -/
theorem attempt_sequenced (name : String) (input : Option Error × Call)
    (storage : AcidStorage config) :
    SeqStep name input.2 (attempt input storage).1 (sequence name storage)
      (sequence name (attempt input storage).2) := by
  obtain ⟨error, call⟩ := input
  cases error with
  | some error =>
      simp only [attempt, abort_eq]
      by_cases hname : call.op.name = name
      · refine .idle hname ?_ ?_ rfl
        · cases call.op <;> rfl
        · rw [Call.creates, Bool.and_eq_false_imp]
          intro _
          cases call.op <;> rfl
      · exact .elsewhere hname rfl
  | none =>
      simp only [attempt]
      by_cases hname : call.op.name = name
      swap
      · refine .elsewhere hname ?_
        have htouches := step_touches call storage name fun h => hname h.symm
        simp only [sequence, Option.map_map, AcidStorage.shard] at htouches ⊢
        rw [htouches]
        rfl
      subst hname
      cases hupdates : updates call.op with
      | true => exact update_sequenced call storage hupdates
      | false => exact other_sequenced call storage hupdates

end Steps

end DurableStreams.Acid

namespace DurableStreams

open Lib

/-- Every backend orders Stream-Seq values, over every run of its operations, also when file-system
or database calls fail. -/
theorem stream_seq_ordered (limits : Limits) (fileConfig : File.Config) (acidConfig : Acid.Config) :
    OrdersSeqs id (Memory.step limits) Memory.sequence .new ∧
    OrdersSeqs Prod.snd (fun input => File.step fileConfig input.1 input.2) File.sequence .new ∧
    OrdersSeqs Prod.snd (@Acid.attempt acidConfig) Acid.sequence (.new acidConfig) := by
  refine ⟨orders_seqs (Memory.step_sequenced limits) fun _ => rfl,
    orders_seqs (File.step_sequenced fileConfig) fun _ => rfl,
    orders_seqs Acid.attempt_sequenced fun _ => rfl⟩

/-- Values in order, one that is refused, and one that fails because the stream is full and is then
retried with less data. -/
def sequencedRun : List Call :=
  [⟨.at 0, .createStream "s" .plain⟩,
    ⟨.at 1, .batchAppend "s" [[1]] "text/plain" (some "10") (Size.fits .one)⟩,
    ⟨.at 2, .batchAppend "s" [[2]] "text/plain" (some "1") (Size.fits .one)⟩,
    ⟨.at 3, .batchAppend "s" [[3, 3, 3, 3]] "text/plain" (some "9") (by decide)⟩,
    ⟨.at 4, .appendWithProducer "s" [[3]] "text/plain" ⟨"p", 0, 0⟩ false (some "9")
      (Size.fits .one)⟩]

theorem stream_seq_ordered_run :
    Memory.sequence "s" (exec (Memory.step ⟨4, 4⟩) sequencedRun .new).2 =
        some (some "9", [⟨Offset.new 0 0, [1], 1⟩, ⟨Offset.new 1 1, [3], 1⟩]) ∧
      acceptedSeqs "s" sequencedRun (exec (Memory.step ⟨4, 4⟩) sequencedRun .new).1 = ["10", "9"] ∧
      Ordered (acceptedSeqs "s" sequencedRun (exec (Memory.step ⟨4, 4⟩) sequencedRun .new).1)
        (some "9") := by
  have hview : Memory.sequence "s" (exec (Memory.step ⟨4, 4⟩) sequencedRun .new).2 =
      some (some "9", [⟨Offset.new 0 0, [1], 1⟩, ⟨Offset.new 1 1, [3], 1⟩]) := by
    decide +kernel
  have hordered := (stream_seq_ordered ⟨4, 4⟩ ⟨⟨4, 4⟩, "data", true⟩ Acid.crowded).1 sequencedRun "s"
    _ _ hview
  rw [List.map_id] at hordered
  exact ⟨hview, by decide +kernel, hordered.1⟩

end DurableStreams
