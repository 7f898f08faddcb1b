import DurableStreams.Handlers.Get
import DurableStreams.Protocol.Sse
import DurableStreams.Storage.Memory.Growth
import DurableStreams.Storage.Memory.Reads

/-!
# Reading a stream as server-sent events

`read_sse` subscribes and reads, and `build_sse_byte_stream` then sends frames: the data of the read,
a control frame, and after every wake-up the same for a read at the tail offset. Keep-alive frames
come in between while it waits. Other clients use the storage between any two steps. The frames carry
the log without a gap or a repeat from the position the first read resolved to, and every control
frame names the offset they have got to (`sse_delivers_exactly_once`).
-/

namespace DurableStreams.Sse

open Lib Memory

/-- Build the payload of a control frame from a read. The cursor is what `cursor::generate` returned
for it. -/
def buildSseControl (result : ReadResult) (cursor : String) : ControlPayload where
  streamNextOffset := result.nextOffset.asStr
  streamCursor := if Get.closedAtTail result then none else some cursor
  upToDate := if result.atTail then some true else none
  streamClosed := if Get.closedAtTail result then some true else none

/-- What is sent. The data frames of one read are sent together and keep the messages they were built
from. -/
inductive Frame where
  | data (messages : List Bytes)
  | control (payload : ControlPayload)
  | keepAlive
  deriving DecidableEq, Repr

/-- The messages of a frame. -/
def Frame.messages : Frame → List Bytes
  | .data messages => messages
  | .control _ | .keepAlive => []

/-- The messages of several frames, in order. -/
def emitted (frames : List Frame) : List Bytes := frames.flatMap Frame.messages

/-- Where the connection stands: before and after subscribing, about to send the data or the control
frame of a read, waiting at a tail offset, about to read there again, or over. A read after the
channel was closed is the last one. -/
inductive Phase where
  | start
  | subscribed
  | data (result : ReadResult) (final : Bool)
  | control (result : ReadResult) (final : Bool)
  | waiting (tailOffset : Offset)
  | rereading (tailOffset : Offset) (final : Bool)
  | ended
  deriving DecidableEq

/-- The storage, the connection, the position its first read resolved to, and the frames so far. -/
structure Session where
  storage : InMemoryStorage
  phase : Phase
  offset : Offset
  resolved : Nat
  frames : List Frame

/-- A connection about to be made. -/
def Session.start (storage : InMemoryStorage) (offset : Offset) : Session :=
  ⟨storage, .start, offset, 0, []⟩

/-- The steps of the connection and of everyone else. Wake-ups come at any time, with or without
something new. -/
inductive Event where
  | subscribe (clock : Clock)
  | read (clock : Clock)
  | emit (cursor : String)
  | wake
  | channelClosed
  | keepAlive
  | idleTimeout
  | other (call : Call)

/-- Send the control frame of a read. The connection ends there if the stream is closed at the tail
or the channel was closed. -/
def sendControl (result : ReadResult) (final : Bool) (cursor : String) (session : Session) :
    Session :=
  { session with
    frames := session.frames ++ [.control (buildSseControl result cursor)]
    phase := if final || Get.closedAtTail result then .ended else .waiting result.nextOffset }

section Steps

variable (limits : Limits) (name : String)

/-- The position an offset resolves to now. -/
def resolve (storage : InMemoryStorage) (offset : Offset) : Nat :=
  match storage.streams.lookup name with
  | some stream => Log.position stream.payloads offset
  | none => 0

/-- A read of the connection. If it fails the connection is over. -/
def read (clock : Clock) (session : Session) : Session :=
  match session.phase with
  | .subscribed =>
      match readStream session.storage name (readSection clock session.offset) with
      | .error _ => { session with phase := .ended }
      | .ok result =>
          { session with
            phase := .data result false
            resolved := resolve name session.storage session.offset }
  | .rereading tailOffset final =>
      match readStream session.storage name (readSection clock tailOffset) with
      | .error _ => { session with phase := .ended }
      | .ok result => { session with phase := .data result final }
  | _ => session

/-- Send the next frame of a read. Without messages there is no data frame. -/
def emit (cursor : String) (session : Session) : Session :=
  match session.phase with
  | .data result final =>
      if result.messages.isEmpty then sendControl result final cursor session
      else
        { session with
          frames := session.frames ++ [.data result.messages]
          phase := .control result final }
  | .control result final => sendControl result final cursor session
  | _ => session

/-- One step. A step that does not fit the phase of the connection does nothing. -/
def next (event : Event) (session : Session) : Unit × Session :=
  match event, session.phase with
  | .subscribe clock, .start =>
      ((), { session with
        phase := if (Memory.subscribe clock session.storage name).isSome then .subscribed
          else .ended })
  | .read clock, _ => ((), read name clock session)
  | .emit cursor, _ => ((), emit cursor session)
  | .wake, .waiting tailOffset => ((), { session with phase := .rereading tailOffset false })
  | .channelClosed, .waiting tailOffset => ((), { session with phase := .rereading tailOffset true })
  | .keepAlive, .waiting _ => ((), { session with frames := session.frames ++ [.keepAlive] })
  | .idleTimeout, .waiting _ => ((), { session with phase := .ended })
  | .other call, _ => ((), { session with storage := (step limits call session.storage).2 })
  | _, _ => ((), session)

/-- Which steps may happen: the stream is not deleted or expired meanwhile. -/
def Allowed : Event → Session → Prop
  | .other call, session =>
      ∀ stream, session.storage.streams.lookup name = some stream → Keeps name stream.config call
  | _, _ => True

end Steps

/-! ## The invariant -/

/-- The frames carry the log from a position up to another one. -/
structure Standing (payloads : List Bytes) (first : Nat) (frames : List Frame) (last : Nat) :
    Prop where
  order : first ≤ last
  bound : last ≤ payloads.length
  emitted : emitted frames = Log.segment payloads first last

/-- The control frame names the position up to which the frames before it carry the log. If it says
that the stream is closed this is its tail. -/
def Placed (stream : StreamEntry) (first : Nat) (frames : List Frame) (payload : ControlPayload) :
    Prop :=
  ∃ last, Standing stream.payloads first frames last ∧
    payload.streamNextOffset = (Log.offsetAt stream.payloads last).asStr ∧
    (payload.streamClosed = some true → stream.closed = true ∧ last = stream.payloads.length)

/-- A read that has got to a position. -/
structure Reached (stream : StreamEntry) (result : ReadResult) (last : Nat) : Prop where
  offset : result.nextOffset = Log.offsetAt stream.payloads last
  closed : result.closed = true → stream.closed = true ∧ last = stream.payloads.length

/-- What is known in each phase. -/
def PhaseInv (stream : StreamEntry) (session : Session) : Prop :=
  match session.phase with
  | .start | .subscribed => session.frames = []
  | .data result _ =>
      ∃ middle last, Standing stream.payloads session.resolved session.frames middle ∧
        middle ≤ last ∧ last ≤ stream.payloads.length ∧
        result.messages = Log.segment stream.payloads middle last ∧ Reached stream result last
  | .control result _ =>
      ∃ last, Standing stream.payloads session.resolved session.frames last ∧
        Reached stream result last
  | .waiting tailOffset | .rereading tailOffset _ =>
      ∃ last, Standing stream.payloads session.resolved session.frames last ∧
        tailOffset = Log.offsetAt stream.payloads last
  | .ended => True

/-- The invariant of a connection. -/
structure Inv (stream : StreamEntry) (session : Session) : Prop where
  phase : PhaseInv stream session
  placed : ∀ before payload after, session.frames = before ++ .control payload :: after →
    Placed stream session.resolved before payload
  paired : ∀ before messages after, session.frames = before ++ .data messages :: after →
    (after = [] ∧ ∃ result final, session.phase = .control result final) ∨
      ∃ payload rest, after = .control payload :: rest
  last : ∀ before payload after, session.frames = before ++ .control payload :: after →
    payload.streamClosed = some true → after = [] ∧ session.phase = .ended

/-! ## Sending a frame -/

section Sending

variable {stream : StreamEntry} {session : Session} {payloads : List Bytes} {first middle last : Nat}
  {frames : List Frame}

theorem emitted_concat (frames : List Frame) (frame : Frame) :
    emitted (frames ++ [frame]) = emitted frames ++ frame.messages := by
  simp [emitted]

/-- A frame without messages. -/
theorem Standing.quiet {frame : Frame} (h : Standing payloads first frames last)
    (hquiet : frame.messages = []) : Standing payloads first (frames ++ [frame]) last :=
  ⟨h.order, h.bound, by rw [emitted_concat, hquiet, List.append_nil, h.emitted]⟩

/-- A data frame with the messages up to a further position. -/
theorem Standing.data (h : Standing payloads first frames middle) (horder : middle ≤ last)
    (hbound : last ≤ payloads.length) :
    Standing payloads first (frames ++ [.data (Log.segment payloads middle last)]) last := by
  refine ⟨Nat.le_trans h.order horder, hbound, ?_⟩
  rw [emitted_concat, h.emitted]
  exact Log.segment_append horder hbound h.order

/-- When a control frame says that the stream is closed. -/
theorem stream_closed_iff {result : ReadResult} {cursor : String} :
    (buildSseControl result cursor).streamClosed = some true ↔ Get.closedAtTail result = true := by
  cases hclosed : Get.closedAtTail result <;> simp [buildSseControl, hclosed]

/-- Sending the control frame of a read. -/
theorem Inv.sendControl {result : ReadResult} {final : Bool} (cursor : String)
    (h : Inv stream session) (hactive : session.phase ≠ .ended)
    (hstanding : Standing stream.payloads session.resolved session.frames last)
    (hreached : Reached stream result last) :
    Inv stream (sendControl result final cursor session) := by
  have hafter : Standing stream.payloads session.resolved
      (session.frames ++ [.control (buildSseControl result cursor)]) last := hstanding.quiet rfl
  refine ⟨?_, fun before payload after hframes => ?_, fun before messages after hframes => ?_,
    fun before payload after hframes hclosed => ?_⟩
  · cases hends : final || Get.closedAtTail result with
    | true => simp [Sse.sendControl, PhaseInv, hends]
    | false =>
        simp only [Sse.sendControl, PhaseInv, hends]
        exact ⟨last, hafter, hreached.offset⟩
  · rcases concat_split hframes with ⟨-, rfl, hnew⟩ | ⟨rest, -, hold⟩
    · cases hnew
      refine ⟨last, hstanding, by rw [buildSseControl, hreached.offset], fun hclosed => ?_⟩
      exact hreached.closed (Bool.and_eq_true_iff.mp (stream_closed_iff.mp hclosed)).1
    · exact h.placed before payload rest hold
  · rcases concat_split hframes with ⟨-, -, hnew⟩ | ⟨rest, rfl, hold⟩
    · cases hnew
    · rcases h.paired before messages rest hold with ⟨rfl, -⟩ | ⟨payload, more, rfl⟩
      · exact .inr ⟨_, [], rfl⟩
      · exact .inr ⟨payload, _, rfl⟩
  · rcases concat_split hframes with ⟨rfl, -, hnew⟩ | ⟨rest, -, hold⟩
    · cases hnew
      exact ⟨rfl, by simp [Sse.sendControl, stream_closed_iff.mp hclosed]⟩
    · exact absurd (h.last before payload rest hold hclosed).2 hactive

/-- Sending a frame that is no control frame, while the connection goes on. -/
theorem Inv.concat {frame : Frame} {phase : Phase} (h : Inv stream session)
    (hactive : session.phase ≠ .ended) (hsettled : ∀ result final, session.phase ≠ .control result final)
    (hframe : ∀ payload, frame ≠ .control payload)
    (hpaired : ∀ messages, frame = .data messages → ∃ result final, phase = .control result final)
    (hphase : PhaseInv stream { session with frames := session.frames ++ [frame], phase := phase }) :
    Inv stream { session with frames := session.frames ++ [frame], phase := phase } := by
  refine ⟨hphase, fun before payload after hframes => ?_, fun before messages after hframes => ?_,
    fun before payload after hframes hclosed => ?_⟩
  · rcases concat_split hframes with ⟨-, -, hnew⟩ | ⟨rest, -, hold⟩
    · exact absurd hnew (hframe payload)
    · exact h.placed before payload rest hold
  · rcases concat_split hframes with ⟨rfl, -, hnew⟩ | ⟨rest, rfl, hold⟩
    · exact .inl ⟨rfl, hpaired messages hnew⟩
    · rcases h.paired before messages rest hold with ⟨-, result, final, hcontrol⟩ | ⟨payload, more, rfl⟩
      · exact absurd hcontrol (hsettled result final)
      · exact .inr ⟨payload, _, rfl⟩
  · rcases concat_split hframes with ⟨-, -, hnew⟩ | ⟨rest, -, hold⟩
    · exact absurd hnew (hframe payload)
    · exact absurd (h.last before payload rest hold hclosed).2 hactive

/-- A change of phase between frames. -/
theorem Inv.enter {phase : Phase} {resolved : Nat} (h : Inv stream session)
    (hactive : session.phase ≠ .ended)
    (hsettled : ∀ result final, session.phase ≠ .control result final)
    (hresolved : resolved = session.resolved ∨ session.frames = [])
    (hphase : PhaseInv stream { session with phase := phase, resolved := resolved }) :
    Inv stream { session with phase := phase, resolved := resolved } := by
  refine ⟨hphase, fun before payload after hframes => ?_, fun before messages after hframes => ?_,
    fun before payload after hframes hclosed => ?_⟩
  · rcases hresolved with rfl | hnil
    · exact h.placed before payload after hframes
    · simp [show session.frames = before ++ .control payload :: after from hframes] at hnil
  · rcases h.paired before messages after hframes with ⟨-, result, final, hcontrol⟩ | hpaired
    · exact absurd hcontrol (hsettled result final)
    · exact .inr hpaired
  · exact absurd (h.last before payload after hframes hclosed).2 hactive

/-- Sending the next frame of a read. -/
theorem Inv.emit (cursor : String) (h : Inv stream session) : Inv stream (emit cursor session) := by
  have hphase := h.phase
  unfold Sse.emit
  cases hcase : session.phase with
  | data result final =>
      simp only [PhaseInv, hcase] at hphase
      obtain ⟨middle, last, hstanding, horder, hbound, hmessages, hreached⟩ := hphase
      have hdata := hstanding.data horder hbound
      dsimp only
      split
      · next hempty =>
          have hnone : Log.segment stream.payloads middle last = [] := by
            rw [← hmessages]
            exact List.isEmpty_iff.mp hempty
          refine h.sendControl cursor (by simp [hcase]) ⟨hdata.order, hdata.bound, ?_⟩ hreached
          rw [← hdata.emitted, hnone, emitted_concat]
          exact (List.append_nil _).symm
      · refine h.concat (by simp [hcase]) (by simp [hcase]) (by simp) (fun _ _ => ⟨_, _, rfl⟩) ?_
        rw [hmessages]
        exact ⟨last, hdata, hreached⟩
  | control result final =>
      simp only [PhaseInv, hcase] at hphase
      obtain ⟨last, hstanding, hreached⟩ := hphase
      exact h.sendControl cursor (by simp [hcase]) hstanding hreached
  | start | subscribed | waiting | rereading | ended => exact h

end Sending

/-! ## Reading and growing -/

section Reading

variable {stream : StreamEntry} {session : Session} {name : String} {clock : Clock}

/-- What a read of a live stream returns. -/
theorem read_ok {offset : Offset} {result : ReadResult} (hstream : WellFormed stream)
    (hcount : stream.messages.length < 2 ^ 64)
    (h : readSection clock offset stream = .ok result) :
    result = ⟨stream.payloads.drop (Log.position stream.payloads offset), Log.tail stream.payloads,
      true, stream.closed⟩ := by
  cases hlive : isStreamExpired clock.expiry stream.config with
  | true => simp [readSection, hlive] at h
  | false =>
      rw [read_section_eq hstream hcount hlive] at h
      exact (Except.ok.inj h).symm

/-- The messages a read returns are a segment of the log. -/
theorem reached_tail {position : Nat} {result : ReadResult}
    (h : result = ⟨stream.payloads.drop position, Log.tail stream.payloads, true, stream.closed⟩) :
    result.messages = Log.segment stream.payloads position stream.payloads.length ∧
      Reached stream result stream.payloads.length := by
  subst h
  exact ⟨(Log.segment_length _ _).symm, rfl, fun hclosed => ⟨hclosed, rfl⟩⟩

/-- A read keeps the invariant. -/
theorem Inv.read (h : Inv stream session) (hstream : WellFormed stream)
    (hlookup : session.storage.streams.lookup name = some stream)
    (hcount : stream.messages.length < 2 ^ 64) : Inv stream (read name clock session) := by
  have hlength : stream.payloads.length < 2 ^ 64 := by simpa [StreamEntry.payloads] using hcount
  have hphase := h.phase
  unfold Sse.read
  cases hcase : session.phase with
  | subscribed =>
      simp only [PhaseInv, hcase] at hphase
      dsimp only
      split
      · exact h.enter (by simp [hcase]) (by simp [hcase]) (.inl rfl) trivial
      · next result hread =>
          rw [readStream, hlookup] at hread
          obtain ⟨hmessages, hreached⟩ := reached_tail (read_ok hstream hcount hread)
          have hbound := Log.position_le stream.payloads session.offset
          refine h.enter (by simp [hcase]) (by simp [hcase]) (.inr hphase) ?_
          simp only [resolve, hlookup]
          refine ⟨_, _, ⟨Nat.le_refl _, hbound, ?_⟩, hbound, Nat.le_refl _, hmessages, hreached⟩
          simp [hphase, emitted, Log.segment]
  | rereading tailOffset final =>
      simp only [PhaseInv, hcase] at hphase
      obtain ⟨last, hstanding, htail⟩ := hphase
      dsimp only
      split
      · exact h.enter (by simp [hcase]) (by simp [hcase]) (.inl rfl) trivial
      · next result hread =>
          rw [readStream, hlookup] at hread
          have hposition : Log.position stream.payloads tailOffset = last := by
            rw [htail, Log.position_offset_at hstanding.bound hlength]
          have hresult := read_ok hstream hcount hread
          rw [hposition] at hresult
          obtain ⟨hmessages, hreached⟩ := reached_tail hresult
          refine h.enter (by simp [hcase]) (by simp [hcase]) (.inl rfl) ?_
          exact ⟨last, _, hstanding, hstanding.bound, Nat.le_refl _, hmessages, hreached⟩
  | start | data | control | waiting | ended => exact h

end Reading

section Growing

variable {stream after : StreamEntry} {session : Session} {first last : Nat} {frames : List Frame}

/-- How a stream grows: its log is extended, unless it is closed. -/
theorem grown_payloads (h : Grows stream after) :
    ∃ more, after.payloads = stream.payloads ++ more ∧
      (stream.closed = true → after.closed = true ∧ more = []) := by
  obtain ⟨more, hmore⟩ := h.messages
  refine ⟨more.map Message.data, by simp [StreamEntry.payloads, ← hmore], fun hclosed => ?_⟩
  obtain ⟨hafter, hsame, -⟩ := h.frozen hclosed
  rw [hsame.messages] at hmore
  exact ⟨hafter, by simpa using hmore⟩

theorem Standing.grow {payloads more : List Bytes} (h : Standing payloads first frames last) :
    Standing (payloads ++ more) first frames last :=
  ⟨h.order, by rw [List.length_append]; exact Nat.le_add_right_of_le h.bound,
    by rw [Log.segment_of_append h.bound, h.emitted]⟩

theorem Placed.grow {payload : ControlPayload} (hgrows : Grows stream after)
    (h : Placed stream first frames payload) : Placed after first frames payload := by
  obtain ⟨more, hmore, hfrozen⟩ := grown_payloads hgrows
  obtain ⟨last, hstanding, hoffset, hclosed⟩ := h
  rw [Placed, hmore]
  refine ⟨last, hstanding.grow, by rw [Log.offset_at_append hstanding.bound, hoffset], fun hlast => ?_⟩
  obtain ⟨hclosed, hlength⟩ := hclosed hlast
  obtain ⟨hstays, rfl⟩ := hfrozen hclosed
  exact ⟨hstays, by rw [List.append_nil, hlength]⟩

theorem Reached.grow {result : ReadResult} (hgrows : Grows stream after)
    (hbound : last ≤ stream.payloads.length) (h : Reached stream result last) :
    Reached after result last := by
  obtain ⟨more, hmore, hfrozen⟩ := grown_payloads hgrows
  refine ⟨by rw [hmore, Log.offset_at_append hbound, h.offset], fun hclosed => ?_⟩
  obtain ⟨hclosed, hlength⟩ := h.closed hclosed
  obtain ⟨hstays, rfl⟩ := hfrozen hclosed
  exact ⟨hstays, by rw [hmore, List.append_nil, hlength]⟩

/-- The invariant survives growth of the stream. -/
theorem Inv.grow {storage : InMemoryStorage} (hgrows : Grows stream after) (h : Inv stream session) :
    Inv after { session with storage := storage } := by
  obtain ⟨more, hmore, -⟩ := grown_payloads hgrows
  refine ⟨?_, fun before payload rest hframes => (h.placed before payload rest hframes).grow hgrows,
    h.paired, h.last⟩
  have hphase := h.phase
  unfold PhaseInv at hphase ⊢
  dsimp only
  split at hphase
  · exact hphase
  · exact hphase
  · obtain ⟨middle, last, hstanding, horder, hbound, hmessages, hreached⟩ := hphase
    refine ⟨middle, last, hmore ▸ hstanding.grow, horder, ?_, ?_, hreached.grow hgrows hbound⟩
    · rw [hmore, List.length_append]
      exact Nat.le_add_right_of_le hbound
    · rw [hmore, Log.segment_of_append hbound, hmessages]
  · obtain ⟨last, hstanding, hreached⟩ := hphase
    exact ⟨last, hmore ▸ hstanding.grow, hreached.grow hgrows hstanding.bound⟩
  · obtain ⟨last, hstanding, htail⟩ := hphase
    exact ⟨last, hmore ▸ hstanding.grow, by rw [hmore, Log.offset_at_append hstanding.bound, htail]⟩
  · obtain ⟨last, hstanding, htail⟩ := hphase
    exact ⟨last, hmore ▸ hstanding.grow, by rw [hmore, Log.offset_at_append hstanding.bound, htail]⟩
  · trivial

end Growing

/-! ## Connections -/

/-- A connection to a stream that is there. -/
structure Valid (limits : Limits) (name : String) (session : Session) : Prop where
  storage : Invariant limits session.storage
  stream : ∃ stream, session.storage.streams.lookup name = some stream ∧
    (stream.messages.length < 2 ^ 64 → Inv stream session)

section Connections

variable {limits : Limits} {name : String} {session : Session} {stream : StreamEntry}

/-- A step of the connection keeps the invariant. -/
theorem Inv.next {event : Event} (h : Inv stream session) (hstream : WellFormed stream)
    (hlookup : session.storage.streams.lookup name = some stream)
    (hcount : stream.messages.length < 2 ^ 64) (hown : ∀ call, event ≠ .other call) :
    Inv stream (next limits name event session).2 := by
  have hphase := h.phase
  cases event with
  | other call => exact absurd rfl (hown call)
  | read clock => exact h.read hstream hlookup hcount
  | emit cursor => exact h.emit cursor
  | subscribe clock =>
      simp only [Sse.next]
      cases hcase : session.phase with
      | start =>
          simp only [PhaseInv, hcase] at hphase
          refine h.enter (by simp [hcase]) (by simp [hcase]) (.inl rfl) ?_
          simp only [PhaseInv]
          cases (Memory.subscribe clock session.storage name).isSome
          · trivial
          · exact hphase
      | _ => exact h
  | wake =>
      simp only [Sse.next]
      cases hcase : session.phase with
      | waiting tailOffset =>
          simp only [PhaseInv, hcase] at hphase
          exact h.enter (by simp [hcase]) (by simp [hcase]) (.inl rfl) hphase
      | _ => exact h
  | channelClosed =>
      simp only [Sse.next]
      cases hcase : session.phase with
      | waiting tailOffset =>
          simp only [PhaseInv, hcase] at hphase
          exact h.enter (by simp [hcase]) (by simp [hcase]) (.inl rfl) hphase
      | _ => exact h
  | keepAlive =>
      simp only [Sse.next]
      cases hcase : session.phase with
      | waiting tailOffset =>
          simp only [PhaseInv, hcase] at hphase
          obtain ⟨last, hstanding, htail⟩ := hphase
          refine h.concat (by simp [hcase]) (by simp [hcase]) (by simp) (by simp) ?_
          exact ⟨last, hstanding.quiet rfl, htail⟩
      | _ => exact h
  | idleTimeout =>
      simp only [Sse.next]
      cases hcase : session.phase with
      | waiting tailOffset => exact h.enter (by simp [hcase]) (by simp [hcase]) (.inl rfl) trivial
      | _ => exact h

theorem read_storage (clock : Clock) : (read name clock session).storage = session.storage := by
  unfold Sse.read
  split
  · split <;> rfl
  · split <;> rfl
  · rfl

theorem emit_storage (cursor : String) : (emit cursor session).storage = session.storage := by
  unfold Sse.emit
  split
  · split <;> rfl
  · rfl
  · rfl

/-- The connection never changes the storage. -/
theorem next_storage (limits : Limits) (name : String) (session : Session) {event : Event}
    (hown : ∀ call, event ≠ .other call) :
    (next limits name event session).2.storage = session.storage := by
  cases event with
  | other call => exact absurd rfl (hown call)
  | read clock => exact read_storage clock
  | emit cursor => exact emit_storage cursor
  | subscribe | wake | channelClosed | keepAlive | idleTimeout =>
      simp only [Sse.next]
      cases session.phase <;> rfl

/-- Every step keeps the connection valid. -/
theorem Valid.next {event : Event} (hallowed : Allowed name event session)
    (h : Valid limits name session) : Valid limits name (next limits name event session).2 := by
  obtain ⟨stream, hlookup, hinv⟩ := h.stream
  by_cases hown : ∀ call, event ≠ .other call
  · have hstorage := next_storage limits name session hown
    refine ⟨by rw [hstorage]; exact h.storage, stream, by rw [hstorage]; exact hlookup, fun hcount => ?_⟩
    exact (hinv hcount).next (h.storage.wellFormed hlookup) hlookup hcount hown
  · obtain ⟨call, hcall⟩ := not_forall_not.mp hown
    subst hcall
    obtain ⟨after, hafter, hgrows⟩ := step_grows limits hlookup (hallowed stream hlookup)
    refine ⟨step_invariant call h.storage, after, hafter, fun hcount => ?_⟩
    exact (hinv (Nat.lt_of_le_of_lt hgrows.messages.length_le hcount)).grow hgrows

end Connections

/-- The frames of a connection carry the log of the stream exactly once, along any interleaving with
calls that neither delete the stream nor replace it after its expiry. The stream has fewer than
`2 ^ 64` messages, as every `Vec` has elements. Before every control frame stand exactly the messages
from the position the first read resolved to up to the offset it names, from which a new read would
go on. Every data frame is followed by its control frame. A control frame that says that the stream
is closed is the last frame, and everything up to the tail has been sent before it. -/
theorem sse_delivers_exactly_once (limits : Limits) (calls : List Call) (name : String)
    (initial : StreamEntry) (offset : Offset)
    (hlookup : (exec (step limits) calls .new).2.streams.lookup name = some initial)
    (events : List Event)
    (halong : Along (next limits name) (Allowed name) events
      (.start (exec (step limits) calls .new).2 offset)) :
    let session := (exec (next limits name) events
      (.start (exec (step limits) calls .new).2 offset)).2
    ∃ stream, session.storage.streams.lookup name = some stream ∧
      (stream.messages.length < 2 ^ 64 →
        (∀ before payload after, session.frames = before ++ .control payload :: after →
          ∃ last, session.resolved ≤ last ∧ last ≤ stream.payloads.length ∧
            payload.streamNextOffset = (Log.offsetAt stream.payloads last).asStr ∧
            emitted before = Log.segment stream.payloads session.resolved last ∧
            Log.position stream.payloads (Log.offsetAt stream.payloads last) = last) ∧
        (∀ before messages after, session.frames = before ++ .data messages :: after →
          after = [] ∨ ∃ payload rest, after = .control payload :: rest) ∧
        (∀ before payload after, session.frames = before ++ .control payload :: after →
          payload.streamClosed = some true →
            after = [] ∧ session.phase = .ended ∧ stream.closed = true ∧
              emitted before = stream.payloads.drop session.resolved)) := by
  intro session
  have hstart : Valid limits name (.start (exec (step limits) calls .new).2 offset) :=
    ⟨reachable_invariant limits calls, initial, hlookup, fun _ =>
      ⟨rfl, fun _ _ _ h => by simp [Session.start] at h, fun _ _ _ h => by simp [Session.start] at h,
        fun _ _ _ h => by simp [Session.start] at h⟩⟩
  have hvalid : Valid limits name session :=
    exec_invariant (fun _ _ hallowed h => h.next hallowed) halong hstart
  obtain ⟨stream, hstream, hinv⟩ := hvalid.stream
  refine ⟨stream, hstream, fun hcount => ⟨fun before payload after hframes => ?_,
    fun before messages after hframes => ?_, fun before payload after hframes hclosed => ?_⟩⟩
  · obtain ⟨last, hstanding, hoffset, -⟩ := (hinv hcount).placed before payload after hframes
    have hlength : stream.payloads.length < 2 ^ 64 := by simpa [StreamEntry.payloads] using hcount
    exact ⟨last, hstanding.order, hstanding.bound, hoffset, hstanding.emitted,
      Log.position_offset_at hstanding.bound hlength⟩
  · exact ((hinv hcount).paired before messages after hframes).imp_left And.left
  · obtain ⟨last, hstanding, -, hlast⟩ := (hinv hcount).placed before payload after hframes
    obtain ⟨hnil, hended⟩ := (hinv hcount).last before payload after hframes hclosed
    obtain ⟨hstays, rfl⟩ := hlast hclosed
    exact ⟨hnil, hended, hstays, by rw [hstanding.emitted, Log.segment_length]⟩

/-- A connection from the second message on, during which a message is appended and the stream is
closed. -/
def liveRun : List Event :=
  [.subscribe (.at 3), .read (.at 3), .emit "1", .other ⟨.at 4, .batchAppend "s" [[3]] "text/plain" none
    (by decide)⟩, .emit "1", .keepAlive, .wake, .read (.at 5), .other ⟨.at 6, .closeStream "s"⟩,
    .emit "2", .emit "2", .wake, .read (.at 7), .emit "3"]

theorem sse_delivers_exactly_once_live :
    let calls : List Call := [⟨.at 0, .createStream "s" .plain⟩,
      ⟨.at 1, .batchAppend "s" [[1], [2]] "text/plain" none (by decide)⟩]
    let storage := (exec (step ⟨100, 50⟩) calls .new).2
    let session := (exec (next ⟨100, 50⟩ "s") liveRun (.start storage (Offset.new 1 1))).2
    (session.resolved, emitted session.frames, session.frames.length) = (1, [[2], [3]], 6) ∧
      ∀ before payload after, session.frames = before ++ .control payload :: after →
        payload.streamClosed = some true → after = [] := by
  intro calls storage session
  have hsome : (storage.streams.lookup "s").isSome = true := by decide +kernel
  have hlength : (session.storage.streams.lookup "s").map (·.messages.length) = some 3 := by
    decide +kernel
  obtain ⟨initial, hlookup⟩ := Option.isSome_iff_exists.mp hsome
  have hkeeps {op : Op} (hdelete : op ≠ .delete "s") (hconfig : op.config = none) (clock : Clock)
      (config : StreamConfig) : Keeps "s" config ⟨clock, op⟩ :=
    fun _ => ⟨hdelete, fun h => by simp [hconfig] at h⟩
  obtain ⟨stream, hstream, hframes⟩ := sse_delivers_exactly_once ⟨100, 50⟩ calls "s" initial
    (Offset.new 1 1) hlookup liveRun
    ⟨trivial, trivial, trivial, fun _ _ => hkeeps (by simp) rfl _ _, trivial, trivial, trivial, trivial,
      fun _ _ => hkeeps (by simp) rfl _ _, trivial, trivial, trivial, trivial, trivial, trivial⟩
  rw [show session.storage.streams.lookup "s" = some stream from hstream] at hlength
  have hthree : stream.messages.length = 3 := Option.some.inj hlength
  have hcount : stream.messages.length < 2 ^ 64 := by omega
  refine ⟨by decide +kernel, fun before payload after hsplit hclosed => ?_⟩
  exact ((hframes hcount).2.2 before payload after hsplit hclosed).1

end DurableStreams.Sse
