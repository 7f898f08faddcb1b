import DurableStreams.Storage.File.Restart

/-!
# Concurrent reads of a stream

A `read` holds the lock of its stream shared with other readers and then goes through
`read_messages`: clone the file handle, seek to its first message, and read until its buffer is full.
A clone shares the file offset with every other handle of the stream, so one `cursor` stands for all
of them. A reader goes on from wherever the others have left it, and its answer is only right if it
is `Undisturbed`: nobody has moved the cursor since its own seek or read
(`undisturbed_reads_return_their_slices`). Writers are excluded, so the log and the index are fixed.
-/

namespace DurableStreams.File.Readers

open Lib

/-- The arguments of a `read` call, with the clock it reads. -/
structure Request where
  clock : Clock
  fromOffset : Offset
  deriving DecidableEq

/-- The program point of a `read` call. `check` is everything before the file is touched, `seek` is
the call after the handle was cloned, `read` is the loop of `read_exact` with the bytes it has got,
and `returned` is the point after the call. -/
inductive Control where
  | check
  | seek
  | read (raw : Bytes)
  | returned (result : Result ReadResult)
  deriving DecidableEq

/-- A call that is being carried out. -/
structure Reader where
  request : Request
  control : Control
  deriving DecidableEq

/-- The shared file offset and the calls. -/
structure State where
  cursor : Nat
  readers : List Reader
  deriving DecidableEq

section Steps

variable (log : Bytes) (stream : StreamEntry) (request : Request)

/-- The part of the index a call asks for. -/
def slice : List MessageIndex := stream.index.drop (startIndex stream request.fromOffset)

/-- Where the payload of the first message of the slice starts. -/
def firstPos : Nat := ((slice stream request).head?.map MessageIndex.filePos).getD 0

/-- The number of bytes from there to the end of the slice. -/
def readLen : Nat :=
  ((slice stream request).getLast?.map fun last => last.filePos + last.byteLen).getD 0 -
    firstPos stream request

/-- Cut the bytes of the slice up into messages. -/
def cut (raw : Bytes) : List Bytes :=
  (slice stream request).map fun entry =>
    (raw.drop (entry.filePos - firstPos stream request)).take entry.byteLen

/-- The answer with the messages of the slice. -/
def found (messages : List Bytes) : Result ReadResult :=
  .ok ⟨messages, stream.nextOffset,
    decide (stream.index.length ≤ startIndex stream request.fromOffset + messages.length),
    stream.closed⟩

/-- One step of a call: the new cursor and program point. The operating system returns at least one
byte if there is one, and at most `chunk` if that is more. -/
def advance (chunk cursor : Nat) : Control → Nat × Control
  | .check =>
      if isStreamExpired request.clock.expiry stream.config then
        (cursor, .returned (.error .streamExpired))
      else if request.fromOffset.isNow then
        (cursor, .returned (.ok ⟨[], stream.nextOffset, true, stream.closed⟩))
      else if (slice stream request).isEmpty then (cursor, .returned (found stream request []))
      else (cursor, .seek)
  | .seek => (firstPos stream request, .read [])
  | .read raw =>
      if readLen stream request ≤ raw.length then
        (cursor, .returned (found stream request (cut stream request raw)))
      else
        let got := ((log.drop cursor).take (readLen stream request - raw.length)).take (max 1 chunk)
        if got.isEmpty then
          (cursor, .returned
            (.error (.storage "failed to read message data: failed to fill whole buffer")))
        else (cursor + got.length, .read (raw ++ got))
  | .returned result => (cursor, .returned result)

/-- One call takes a step. -/
def step (input : Nat × Nat) (state : State) : Unit × State :=
  match state.readers[input.1]? with
  | none => ((), state)
  | some reader =>
      let (cursor, control) := advance log stream reader.request input.2 state.cursor reader.control
      ((), ⟨cursor, state.readers.set input.1 { reader with control := control }⟩)

/-- The calls before their first step, wherever the file offset is. -/
def start (cursor : Nat) (requests : List Request) : State :=
  ⟨cursor, requests.map fun request => ⟨request, .check⟩⟩

/-- A call that is about to read finds the cursor where its own seek or read has left it. -/
def AtOwnPosition (cursor : Nat) (reader : Reader) : Prop :=
  match reader.control with
  | .read raw => raw.length < readLen stream reader.request →
      cursor = firstPos stream reader.request + raw.length
  | _ => True

instance (cursor : Nat) (reader : Reader) : Decidable (AtOwnPosition stream cursor reader) :=
  match reader with
  | ⟨_, .read _⟩ => inferInstanceAs (Decidable (_ → _))
  | ⟨_, .check⟩ | ⟨_, .seek⟩ | ⟨_, .returned _⟩ => isTrue trivial

/-- The call whose turn it is has not been disturbed. -/
def Undisturbed (input : Nat × Nat) (state : State) : Prop :=
  ∀ reader ∈ state.readers[input.1]?, AtOwnPosition stream state.cursor reader

instance (input : Nat × Nat) (state : State) : Decidable (Undisturbed stream input state) :=
  inferInstanceAs (Decidable (∀ reader ∈ state.readers[input.1]?,
    AtOwnPosition stream state.cursor reader))

/-- How many steps a call has still to take at most. -/
def remaining : Control → Nat
  | .check => readLen stream request + 3
  | .seek => readLen stream request + 2
  | .read raw => readLen stream request - raw.length + 1
  | .returned _ => 0

end Steps

variable {log : Bytes} {stream : StreamEntry} {request : Request} {chunk cursor : Nat}
  {control : Control} {state : State} {reader : Reader}

/-! ## One call -/

section Calls

/-- What is known at a program point of an undisturbed call: what it has read is the part of the log
it asks for, and what it returns is the answer of a call that runs alone. -/
def Sound (log : Bytes) (stream : StreamEntry) (request : Request) : Control → Prop
  | .check => True
  | .seek => isStreamExpired request.clock.expiry stream.config = false ∧
      request.fromOffset.isNow = false ∧ slice stream request ≠ []
  | .read raw => (isStreamExpired request.clock.expiry stream.config = false ∧
      request.fromOffset.isNow = false ∧ slice stream request ≠ []) ∧
      raw.length ≤ readLen stream request ∧ raw <+: log.drop (firstPos stream request)
  | .returned result =>
      result = readSection .none request.clock request.fromOffset log stream

/-- A read that runs alone and reaches the file. -/
theorem read_section_eq (hlive : isStreamExpired request.clock.expiry stream.config = false)
    (hnow : request.fromOffset.isNow = false) (hslice : slice stream request ≠ []) :
    readSection .none request.clock request.fromOffset log stream =
      if readLen stream request ≠ 0 ∧
          log.length < firstPos stream request + readLen stream request then
        .error (.storage "failed to read message data: failed to fill whole buffer")
      else found stream request (cut stream request
        ((log.drop (firstPos stream request)).take (readLen stream request))) := by
  have hslice : stream.index.drop (startIndex stream request.fromOffset) ≠ [] := hslice
  have hfirst := List.head?_eq_some_head hslice
  have hlast := List.getLast?_eq_some_getLast hslice
  have hpos : firstPos stream request =
      ((stream.index.drop (startIndex stream request.fromOffset)).head hslice).filePos := by
    simp only [firstPos, slice, hfirst, Option.map_some, Option.getD_some]
  have hlen : readLen stream request =
      ((stream.index.drop (startIndex stream request.fromOffset)).getLast hslice).filePos +
        ((stream.index.drop (startIndex stream request.fromOffset)).getLast hslice).byteLen -
        firstPos stream request := by
    simp only [readLen, slice, hlast, Option.map_some, Option.getD_some]
  simp only [readSection, hlive, hnow, Bool.false_eq_true, ↓reduceIte, readMessages, hfirst, hlast,
    Faults.none, ← hpos, ← hlen]
  by_cases hshort : readLen stream request ≠ 0 ∧
      log.length < firstPos stream request + readLen stream request
  · rw [if_pos hshort, if_pos hshort]
  · rw [if_neg hshort, if_neg hshort]
    rfl

/-- An undisturbed step keeps this. -/
theorem sound_advance (hsound : Sound log stream request control)
    (hcursor : AtOwnPosition stream cursor ⟨request, control⟩) :
    Sound log stream request (advance log stream request chunk cursor control).2 := by
  cases control with
  | check =>
      cases hlive : isStreamExpired request.clock.expiry stream.config with
      | true => simp [advance, hlive, Sound, readSection]
      | false =>
          cases hnow : request.fromOffset.isNow with
          | true => simp [advance, hlive, hnow, Sound, readSection]
          | false =>
              by_cases hslice : slice stream request = []
              · have hslice' : stream.index.drop (startIndex stream request.fromOffset) = [] := hslice
                simp [advance, hlive, hnow, hslice, Sound, readSection, readMessages, hslice', found]
              · simp [advance, hlive, hnow, hslice, Sound]
  | seek => exact ⟨hsound, Nat.zero_le _, List.nil_prefix⟩
  | read raw =>
      obtain ⟨⟨hlive, hnow, hslice⟩, hle, hraw⟩ := hsound
      by_cases hfull : readLen stream request ≤ raw.length
      · -- The buffer is full, so the log reaches as far as the slice does.
        have hlength : raw.length = readLen stream request := by omega
        have hreach : ¬ (readLen stream request ≠ 0 ∧
            log.length < firstPos stream request + readLen stream request) := by
          have hdrop := hraw.length_le
          rw [List.length_drop] at hdrop
          omega
        simp only [advance, if_pos hfull, Sound]
        rw [read_section_eq hlive hnow hslice, if_neg hreach, ← hlength,
          ← List.prefix_iff_eq_take.mp hraw]
      · have hcursor : cursor = firstPos stream request + raw.length :=
          hcursor (Nat.lt_of_not_le hfull)
        simp only [advance, if_neg hfull]
        split
        · next hempty =>
            have hend : log.length ≤ cursor := by
              have hlength := congrArg List.length (List.isEmpty_iff.mp hempty)
              rw [List.length_take, List.length_take, List.length_drop, List.length_nil] at hlength
              omega
            rw [Sound, read_section_eq hlive hnow hslice, if_pos ⟨by omega, by omega⟩]
        · refine ⟨⟨hlive, hnow, hslice⟩, ?_, ?_⟩
          · rw [List.length_append, List.length_take, List.length_take]
            omega
          · obtain ⟨rest, hrest⟩ := hraw
            rw [hcursor, ← List.drop_drop, ← hrest, List.drop_left, List.take_take,
              List.prefix_append_right_inj]
            exact List.take_prefix _ _
  | returned result => exact hsound

/-- Every step brings a call closer to its end. -/
theorem remaining_advance (log : Bytes) (stream : StreamEntry) (request : Request)
    (chunk cursor : Nat) (control : Control) :
    remaining stream request (advance log stream request chunk cursor control).2 ≤
      remaining stream request control - 1 := by
  cases control with
  | check =>
      simp only [advance]
      split_ifs <;> simp [remaining]
  | seek => exact Nat.le_refl _
  | read raw =>
      simp only [advance]
      split_ifs with hfull hempty
      · exact Nat.zero_le _
      · exact Nat.zero_le _
      · have hgot := List.length_pos_iff.mpr fun hnil => hempty (List.isEmpty_iff.mpr hnil)
        simp only [remaining, List.length_append]
        omega
  | returned result => exact Nat.le_refl _

/-- A call with no step to take has returned. -/
theorem returned_of_remaining (h : remaining stream request control = 0) :
    ∃ result, control = .returned result := by
  cases control with
  | returned result => exact ⟨result, rfl⟩
  | check | seek | read => simp [remaining] at h

end Calls

/-! ## All calls -/

section Runs

/-- What a step does to a call: the call whose turn it is advances, the others do nothing. -/
theorem step_reader (log : Bytes) (stream : StreamEntry) (input : Nat × Nat) {position : Nat}
    (hreader : state.readers[position]? = some reader) :
    (step log stream input state).2.readers[position]? =
      some { reader with
        control := if input.1 = position then
          (advance log stream reader.request input.2 state.cursor reader.control).2
        else reader.control } := by
  unfold step
  by_cases hturn : input.1 = position
  · rw [hturn, hreader, if_pos rfl]
    dsimp only
    obtain ⟨hlt, -⟩ := List.getElem?_eq_some_iff.mp hreader
    rw [List.getElem?_set_self hlt]
  · rw [if_neg hturn]
    cases state.readers[input.1]? with
    | none => exact hreader
    | some other =>
        dsimp only
        rw [List.getElem?_set_ne hturn, hreader]

/-- In a run without disturbances a call stays sound and gets closer to its end at each turn. -/
theorem exec_reader {schedule : List (Nat × Nat)} {position : Nat}
    (hreader : state.readers[position]? = some reader)
    (hsound : Sound log stream reader.request reader.control)
    (hundisturbed : Along (step log stream) (Undisturbed stream) schedule state) :
    ∃ after, (exec (step log stream) schedule state).2.readers[position]? = some after ∧
      after.request = reader.request ∧ Sound log stream after.request after.control ∧
      remaining stream after.request after.control ≤
        remaining stream reader.request reader.control -
          schedule.countP fun input => input.1 = position := by
  induction schedule generalizing state reader with
  | nil => exact ⟨reader, hreader, rfl, hsound, Nat.le_refl _⟩
  | cons input schedule ih =>
      have hnext := step_reader log stream input hreader
      have hsound' : Sound log stream reader.request (if input.1 = position then
          (advance log stream reader.request input.2 state.cursor reader.control).2
          else reader.control) := by
        split
        · next hturn => exact sound_advance hsound (hundisturbed.1 reader (hturn ▸ hreader))
        · exact hsound
      obtain ⟨after, hafter, hrequest, hsound', hremaining⟩ := ih hnext hsound' hundisturbed.2
      refine ⟨after, hafter, hrequest, hsound', hremaining.trans ?_⟩
      rw [List.countP_cons]
      by_cases hturn : input.1 = position
      · have hstep := remaining_advance log stream reader.request input.2 state.cursor
          reader.control
        simp only [hturn, ↓reduceIte, decide_true]
        omega
      · simp [hturn]

variable {config : Config} {horizon : Timestamp} {name : String} {file : FileStorage}

/-- The answer to a request on a stream with these payloads: those of its own slice. -/
def answer (entry : StreamEntry) (payloads : List Bytes) (request : Request) : Result ReadResult :=
  if isStreamExpired request.clock.expiry entry.config then .error .streamExpired
  else if request.fromOffset.isNow then .ok ⟨[], entry.nextOffset, true, entry.closed⟩
  else .ok ⟨payloads.drop (startIndex entry request.fromOffset), entry.nextOffset, true,
    entry.closed⟩

/-- A call that runs alone gives this answer. -/
theorem read_section_answer {memory : Memory.InMemoryStorage} {stream : Memory.StreamEntry}
    (hrelated : Related horizon memory file) (hlookup : memory.streams.lookup name = some stream)
    (notify : Nat) (request : Request) :
    readSection .none request.clock request.fromOffset (file.log (encodeName name))
        (.ofMemory name notify stream) =
      answer (.ofMemory name notify stream) stream.payloads request := by
  obtain ⟨-, found, -, -, hfound, hstored⟩ := hrelated.present hlookup
  have hread := read_messages_eq stream.payloads []
    (startIndex (.ofMemory name notify stream) request.fromOffset)
  rw [List.append_nil, ← hstored.toLogged.log_bytes, ← log_of_lookup hfound] at hread
  simp only [readSection, answer, StreamEntry.ofMemory_index, hread, length_index_of,
    List.length_drop]
  have htail (start : Nat) :
      decide (stream.payloads.length ≤ start + (stream.payloads.length - start)) = true := by
    rw [decide_eq_true_eq]
    omega
  rw [htail]

/-- Any number of concurrent reads of a stream, interleaved in any way in which no call finds the
cursor moved: each call that has returned has the payloads of its own slice of the index, and each
call returns after a bounded number of turns. -/
theorem undisturbed_reads_return_their_slices (config : Config) (horizon : Timestamp)
    (file : FileStorage) (name : String) (entry : StreamEntry) (requests : List Request)
    (cursor : Nat) (schedule : List (Nat × Nat)) (hreached : Reached config horizon file)
    (hentry : file.streams.lookup name = some entry)
    (hundisturbed : Along (step (file.log entry.dir) entry) (Undisturbed entry) schedule
      (start cursor requests)) :
    ∃ payloads, contents file entry = .ok payloads ∧
      ∀ position request, requests[position]? = some request →
        ∃ reader, (exec (step (file.log entry.dir) entry) schedule
            (start cursor requests)).2.readers[position]? = some reader ∧
          (∀ result, reader.control = .returned result →
            result = answer entry payloads request) ∧
          (readLen entry request + 3 ≤ schedule.countP (fun input => input.1 = position) →
            ∃ result, reader.control = .returned result) := by
  obtain ⟨memory, hinv, hrelated⟩ := hreached.tracked
  obtain ⟨stream, notify, hlookup, rfl⟩ := hrelated.of_file hentry
  refine ⟨stream.payloads, hrelated.contents hlookup notify, fun position request hrequest => ?_⟩
  have hstart : (start cursor requests).readers[position]? = some ⟨request, .check⟩ := by
    simp [start, hrequest]
  obtain ⟨reader, hreader, hsame, hsound, hremaining⟩ := exec_reader hstart trivial hundisturbed
  refine ⟨reader, hreader, fun result hresult => ?_, fun hturns => ?_⟩
  · rw [hresult, hsame] at hsound
    exact hsound.trans (read_section_answer hrelated hlookup notify request)
  · refine returned_of_remaining (Nat.le_zero.mp (hremaining.trans ?_))
    simp only [remaining]
    omega

/-- A stream with two messages. -/
def twoMessages : FileStorage :=
  (exec (File.step smallConfig .none)
    [⟨.at 1, .append "s" [1, 2] "text/plain" (Size.fits .two)⟩,
      ⟨.at 2, .append "s" [3, 4] "text/plain" (by decide)⟩] oneStream).2

/-- Its entry. -/
def twoMessagesEntry : StreamEntry :=
  ⟨.plain, indexOf [[1, 2], [3, 4]], false, 2, 4, 4, 0, ∅, 2, none, 12, encodeName "s"⟩

/-- Two requests for the whole stream. -/
def twoRequests : List Request := [⟨.at 3, .start⟩, ⟨.at 3, .start⟩]

/-- The second call seeks while the first is reading, and the first returns header bytes as a
message. -/
theorem seek_between_reads_corrupts :
    twoMessages.streams.lookup "s" = some twoMessagesEntry ∧
      contents twoMessages twoMessagesEntry = .ok [[1, 2], [3, 4]] ∧
      ((exec (step (twoMessages.log (encodeName "s")) twoMessagesEntry)
        [(0, 0), (0, 0), (0, 2), (1, 0), (1, 0), (0, 8), (0, 0)]
        (start 0 twoRequests)).2.readers[0]?.map Reader.control) =
        some (.returned (.ok ⟨[[1, 2], [0, 0]], .new 2 4, true, false⟩)) := by
  refine ⟨?_, ?_, ?_⟩ <;> decide +kernel

/-- One call after the other, each with as many turns as it can need. -/
def inTurn : List (Nat × Nat) := List.replicate 11 (0, 5) ++ List.replicate 11 (1, 3)

/-- Both calls return both messages. -/
theorem reads_in_turn_are_right :
    let readers := (exec (step (twoMessages.log (encodeName "s")) twoMessagesEntry) inTurn
      (start 0 twoRequests)).2.readers
    (∃ reader, readers[0]? = some reader ∧
      reader.control = .returned (.ok ⟨[[1, 2], [3, 4]], .new 2 4, true, false⟩)) ∧
    ∃ reader, readers[1]? = some reader ∧
      reader.control = .returned (.ok ⟨[[1, 2], [3, 4]], .new 2 4, true, false⟩) := by
  have hreached : Reached smallConfig 2 twoMessages :=
    .step (.step (.step .new ⟨.at 0, .createStream "s" .plain⟩ (by decide) (by decide))
      ⟨.at 1, .append "s" [1, 2] "text/plain" (by decide)⟩ (by decide) (by decide +kernel))
      ⟨.at 2, .append "s" [3, 4] "text/plain" (by decide)⟩ (by decide) (by decide +kernel)
  obtain ⟨payloads, hpayloads, hanswers⟩ := undisturbed_reads_return_their_slices smallConfig 2
    twoMessages "s" twoMessagesEntry twoRequests 0 inTurn hreached (by decide +kernel)
    (by decide +kernel)
  obtain rfl : [[1, 2], [3, 4]] = payloads :=
    Except.ok.inj ((show contents twoMessages twoMessagesEntry = _ by decide +kernel).symm.trans
      hpayloads)
  have hanswer : answer twoMessagesEntry [[1, 2], [3, 4]] ⟨.at 3, .start⟩ =
      .ok ⟨[[1, 2], [3, 4]], .new 2 4, true, false⟩ := by decide +kernel
  constructor
  · obtain ⟨reader, hreader, hright, hreturned⟩ := hanswers 0 ⟨.at 3, .start⟩ rfl
    obtain ⟨result, hresult⟩ := hreturned (by decide +kernel)
    exact ⟨reader, hreader, by rw [hresult, hright result hresult, hanswer]⟩
  · obtain ⟨reader, hreader, hright, hreturned⟩ := hanswers 1 ⟨.at 3, .start⟩ rfl
    obtain ⟨result, hresult⟩ := hreturned (by decide +kernel)
    exact ⟨reader, hreader, by rw [hresult, hright result hresult, hanswer]⟩

end Runs

end DurableStreams.File.Readers
