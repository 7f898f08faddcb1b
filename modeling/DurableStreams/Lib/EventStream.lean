import DurableStreams.Lib.Lines

/-!
# Event streams

The event-stream format of server-sent events, as a client reads it. A stream is cut into lines, and
a line is a field, a comment or blank. Fields fill the buffers of the event that is being read, and a
blank line dispatches it. An event without data is not dispatched. What is behind the last line end
is left alone.

`feed` reads a stream from any state of the client, `feed_unlines` reads it piece by piece, and
`conveys_event` says what a client makes of an event that was written as fields. Frames that convey
an event each may be sent with others in between that a client ignores (`feed_interspersed`). The
delimiters are ASCII, so a stream in UTF-8 is read byte by byte.
-/

namespace DurableStreams.Lib.EventStream

/-- The bytes of an ASCII text. -/
def ascii (text : String) : List UInt8 := text.toList.map fun character => UInt8.ofNat character.toNat

/-- An event that was dispatched. -/
structure Event where
  type : List UInt8
  data : List UInt8
  lastEventId : List UInt8
  deriving DecidableEq

/-- The state of a client: the buffers of the event that is being read, the last event id, the
reconnection time if it was set, and the events so far. -/
structure Client where
  eventType : List UInt8
  data : List UInt8
  lastEventId : List UInt8
  retry : Option Nat
  events : List Event
  deriving DecidableEq

/-- A client before the first byte. -/
def Client.new : Client := ⟨[], [], [], none, []⟩

/-- Process a field. Fields with other names are ignored. -/
def Client.field (client : Client) (name value : List UInt8) : Client :=
  if name = ascii "event" then { client with eventType := value }
  else if name = ascii "data" then { client with data := client.data ++ value ++ [10] }
  else if name = ascii "id" then
    if 0 ∈ value then client else { client with lastEventId := value }
  else if name = ascii "retry" then
    if value.all fun byte => 48 ≤ byte.toNat && byte.toNat ≤ 57 then
      { client with retry := some (value.foldl (fun number byte => 10 * number + (byte.toNat - 48)) 0) }
    else client
  else client

/-- The event of the buffers. The line feed behind the last line of data is not part of it. -/
def Client.event (client : Client) : Event where
  type := if client.eventType = [] then ascii "message" else client.eventType
  data := client.data.dropLast
  lastEventId := client.lastEventId

/-- A blank line: dispatch the event and empty the buffers. -/
def Client.dispatch (client : Client) : Client :=
  if client.data = [] then { client with eventType := [] }
  else ⟨[], [], client.lastEventId, client.retry, client.events ++ [client.event]⟩

/-- A value without the space in front of it. -/
def stripSpace : List UInt8 → List UInt8
  | 32 :: value => value
  | value => value

/-- Process a line. The name of a field goes up to the first colon; a line that starts with a colon is
a comment. -/
def Client.line (client : Client) (line : List UInt8) : Client :=
  if line = [] then client.dispatch
  else
    let name := line.takeWhile (· != 58)
    if name = [] then client
    else client.field name (stripSpace ((line.dropWhile (· != 58)).drop 1))

/-- Read a stream. -/
def feed (client : Client) (stream : List UInt8) : Client :=
  (breakLines 13 10 false stream).dropLast.foldl Client.line client

/-- No event is being read. -/
structure Client.Idle (client : Client) : Prop where
  eventType : client.eventType = []
  data : client.data = []

/-- A client that has got events. -/
def Client.received (client : Client) (events : List Event) : Client :=
  { client with events := client.events ++ events }

variable {client : Client}

@[simp] theorem Client.received_nil (client : Client) : client.received [] = client := by
  simp [Client.received]

@[simp] theorem Client.received_received (client : Client) (first second : List Event) :
    (client.received first).received second = client.received (first ++ second) := by
  simp [Client.received]

theorem Client.Idle.received (h : client.Idle) (events : List Event) : (client.received events).Idle :=
  ⟨h.eventType, h.data⟩

/-- The end of a stream. -/
@[simp] theorem feed_nil (client : Client) : feed client [] = client := rfl

/-- Whole lines are processed one by one, whatever comes behind them. -/
theorem feed_unlines {lines : List (List UInt8)} (h : ∀ line ∈ lines, OneLine 13 10 line)
    (rest : List UInt8) :
    feed client (unlines 10 lines ++ rest) = feed (lines.foldl Client.line client) rest := by
  rw [feed, break_lines_unlines h, List.dropLast_append_of_ne_nil (break_lines_ne_nil false rest),
    List.foldl_append]
  rfl

/-- A line with a field on it. -/
theorem line_field {name : List UInt8} (hname : name ≠ []) (hcolon : 58 ∉ name)
    (value : List UInt8) :
    client.line (name ++ 58 :: value) = client.field name (stripSpace value) := by
  have htest : ∀ byte ∈ name, (byte != 58) = true := by
    intro byte hbyte
    rw [bne_iff_ne]
    rintro rfl
    exact hcolon hbyte
  have htake : (name ++ 58 :: value).takeWhile (· != 58) = name := by
    rw [List.takeWhile_append_of_pos htest]
    simp
  have hdrop : (name ++ 58 :: value).dropWhile (· != 58) = 58 :: value := by
    rw [List.dropWhile_append_of_pos htest]
    rfl
  rw [Client.line, if_neg (by simp)]
  dsimp only
  rw [htake, if_neg hname, hdrop]
  rfl

/-- A line with the type of the event. -/
theorem line_event (value : List UInt8) :
    client.line (ascii "event:" ++ value) = { client with eventType := stripSpace value } :=
  @line_field client (ascii "event") (by decide) (by decide) value

/-- A line of data. -/
theorem line_data (value : List UInt8) :
    client.line (ascii "data:" ++ value) =
      { client with data := client.data ++ stripSpace value ++ [10] } :=
  @line_field client (ascii "data") (by decide) (by decide) value

/-- Several lines of data. -/
theorem fold_data (values : List (List UInt8)) (client : Client) :
    (values.map (ascii "data:" ++ ·)).foldl Client.line client =
      { client with data := client.data ++ unlines 10 (values.map stripSpace) } := by
  induction values generalizing client with
  | nil => simp [unlines]
  | cons value values ih =>
      rw [List.map_cons, List.foldl_cons, line_data, ih]
      simp [unlines]

/-- Lines with a line feed behind each are the lines joined by line feeds and one more. -/
theorem unlines_eq_intercalate (lines : List (List UInt8)) (h : lines ≠ []) :
    unlines 10 lines = [(10 : UInt8)].intercalate lines ++ [10] := by
  induction lines with
  | nil => exact absurd rfl h
  | cons line lines ih =>
      cases lines with
      | nil => simp [unlines, List.intercalate]
      | cons next lines =>
          have hrest := ih (by simp)
          simp only [unlines, List.intercalate, List.flatMap_cons, List.intersperse_cons_cons,
            List.flatten_cons] at hrest ⊢
          rw [hrest]
          simp

/-- An event that was written as a type and some lines of data, with a blank line behind them. -/
theorem fold_event (h : client.Idle) {type : List UInt8} (htype : stripSpace type ≠ [])
    {values : List (List UInt8)} (hvalues : values ≠ []) :
    ((ascii "event:" ++ type) :: (values.map (ascii "data:" ++ ·) ++ [[]])).foldl Client.line client =
      client.received
        [⟨stripSpace type, [10].intercalate (values.map stripSpace), client.lastEventId⟩] := by
  obtain ⟨eventType, data, lastEventId, retry, events⟩ := client
  obtain rfl : eventType = [] := h.eventType
  obtain rfl : data = [] := h.data
  have hdata := unlines_eq_intercalate (values.map stripSpace) (by simpa using hvalues)
  rw [List.foldl_cons, line_event, List.foldl_append, fold_data, List.foldl_cons, List.foldl_nil,
    Client.line, if_pos rfl, Client.dispatch]
  simp [hdata, Client.event, Client.received, htype]

/-! ## Frames -/

/-- A frame from which a client gets one event, whatever is sent behind it. -/
def Conveys (frame type data : List UInt8) : Prop :=
  ∀ (client : Client) (rest : List UInt8), client.Idle →
    feed client (frame ++ rest) = feed (client.received [⟨type, data, client.lastEventId⟩]) rest

/-- The fields of an event convey it. -/
theorem conveys_event {type : List UInt8} (hline : OneLine 13 10 type) (htype : stripSpace type ≠ [])
    {values : List (List UInt8)} (hvalues : values ≠ []) (hlines : ∀ value ∈ values, OneLine 13 10 value) :
    Conveys (unlines 10 ((ascii "event:" ++ type) :: (values.map (ascii "data:" ++ ·) ++ [[]])))
      (stripSpace type) ([10].intercalate (values.map stripSpace)) := by
  intro client rest hidle
  rw [feed_unlines ?_ rest, fold_event hidle htype hvalues]
  have hlabel {label line : List UInt8} (hlabel : OneLine 13 10 label) (h : OneLine 13 10 line) :
      OneLine 13 10 (label ++ line) := by
    simp only [OneLine, List.mem_append, not_or] at hlabel h ⊢
    exact ⟨⟨hlabel.1, h.1⟩, hlabel.2, h.2⟩
  intro line hmem
  simp only [List.mem_cons, List.mem_append, List.mem_map, List.not_mem_nil, or_false] at hmem
  rcases hmem with rfl | ⟨value, hvalue, rfl⟩ | rfl
  · exact hlabel (by decide) hline
  · exact hlabel (by decide) (hlines value hvalue)
  · exact ⟨List.not_mem_nil, List.not_mem_nil⟩

/-- Frames in their order, with any number of fillers before, between and behind them. -/
inductive Interspersed (filler : List UInt8) : List (List UInt8) → List UInt8 → Prop where
  | nil : Interspersed filler [] []
  | filler {frames wire} (h : Interspersed filler frames wire) :
      Interspersed filler frames (filler ++ wire)
  | frame {frames wire} (frame : List UInt8) (h : Interspersed filler frames wire) :
      Interspersed filler (frame :: frames) (frame ++ wire)

/-- No filler has to be there. -/
theorem Interspersed.flatten (filler : List UInt8) (frames : List (List UInt8)) :
    Interspersed filler frames frames.flatten := by
  induction frames with
  | nil => exact .nil
  | cons frame frames ih => exact .frame frame ih

/-- If a client ignores the filler and every frame conveys its event, the client gets these events. -/
theorem feed_interspersed {filler : List UInt8}
    (hfiller : ∀ (client : Client) (rest : List UInt8), client.Idle →
      feed client (filler ++ rest) = feed client rest)
    {frames : List (List UInt8)} {events : List (List UInt8 × List UInt8)}
    (hframes : List.Forall₂ (fun frame event => Conveys frame event.1 event.2) frames events)
    {wire : List UInt8} (hwire : Interspersed filler frames wire) (hidle : client.Idle) :
    feed client wire =
      client.received (events.map fun event => ⟨event.1, event.2, client.lastEventId⟩) := by
  induction hwire generalizing client events with
  | nil =>
      cases hframes
      simp
  | filler h ih => rw [hfiller client _ hidle, ih hframes hidle]
  | frame frame h ih =>
      cases hframes with
      | cons hframe hframes =>
          rw [hframe client _ hidle, ih hframes (hidle.received _), Client.received_received]
          rfl

/-! ## The space in front of a value -/

/-- A space is dropped from values that begin with one. -/
theorem length_strip_space (value : List UInt8) :
    (stripSpace value).length ≤ value.length ∧
      (stripSpace value = value ↔ value.head? ≠ some 32) := by
  fun_cases stripSpace value with
  | case1 value => simp
  | case2 value h =>
      refine ⟨Nat.le_refl _, iff_of_true rfl fun hhead => ?_⟩
      obtain ⟨rest, rfl⟩ := List.head?_eq_some_iff.mp hhead
      exact h rest rfl

/-- Joined values come through whole if and only if none of them begins with a space. -/
theorem intercalate_strip_space {values : List (List UInt8)} (hvalues : values ≠ []) :
    [(10 : UInt8)].intercalate (values.map stripSpace) = [10].intercalate values ↔
      ∀ value ∈ values, value.head? ≠ some 32 := by
  have hshorter (values : List (List UInt8)) :
      (unlines 10 (values.map stripSpace)).length ≤ (unlines 10 values).length := by
    induction values with
    | nil => exact Nat.le_refl 0
    | cons value values ih =>
        have := (length_strip_space value).1
        simp only [unlines, List.map_cons, List.flatMap_cons, List.length_append] at ih ⊢
        omega
  rw [← List.append_left_inj [10], ← unlines_eq_intercalate _ (by simpa using hvalues),
    ← unlines_eq_intercalate _ hvalues]
  clear hvalues
  induction values with
  | nil => simp [unlines]
  | cons value values ih =>
      rw [List.forall_mem_cons, ← Iff.and (length_strip_space value).2 ih]
      have hvalue := (length_strip_space value).1
      have hrest := hshorter values
      simp only [unlines, List.map_cons, List.flatMap_cons] at hrest ⊢
      constructor
      · intro h
        -- Neither part can make up for what the other one has lost.
        have hlength := congrArg List.length h
        simp only [List.length_append] at hlength
        obtain ⟨hfirst, hothers⟩ := List.append_inj h (by simp only [List.length_append]; omega)
        exact ⟨List.append_cancel_right hfirst, hothers⟩
      · rintro ⟨hfirst, hothers⟩
        rw [hfirst, hothers]

end DurableStreams.Lib.EventStream
