import DurableStreams.Handlers.Lifetimes
import DurableStreams.Lib.Url
import DurableStreams.Storage.Memory.Operations

/-!
# Locations of new streams

`create_stream` builds its response after the storage has created the stream. It splices the decoded
name and two request headers into the `Location` without encoding them, so a name with a control byte
makes it panic, and a name with a delimiter leads elsewhere. `create_answers_iff` says when it answers
with a `Location` that is routed to the stream again. Paths are those the `http` crate accepts in the
target of a request: they are UTF-8, and a byte up to space, `<`, `>` or a backtick has to be escaped.
-/

namespace DurableStreams.Put

open Lib

/-! ## The route -/

/-- The path in front of the names of streams. -/
def streamRoute : Bytes := strBytes "/v1/stream/"

/-- `decode_utf8`. -/
def decodeUtf8 (bytes : Bytes) : Option String := String.fromUTF8? bytes.toByteArray

/-- A byte of a segment of a path: none of `#`, `/`, `<`, `>`, `?` and the backtick, and above space. -/
def inSegment (byte : UInt8) : Bool :=
  32 < byte.toNat && !([35, 47, 60, 62, 63, 96].contains byte)

/-- The name that the route `/v1/stream/{name}` finds in the path of a request. A path that is no path
of a request has none. -/
def routedName (path : Bytes) : Option String :=
  let segment := path.drop streamRoute.length
  if streamRoute <+: path ∧ segment ≠ [] ∧ segment.all inSegment ∧ (decodeUtf8 segment).isSome then
    decodeUtf8 (Url.percentDecode segment)
  else none

/-- A segment of a path. -/
structure IsSegment (segment : String) : Prop where
  nonempty : segment ≠ ""
  bytes : ∀ byte ∈ strBytes segment, inSegment byte = true

/-- It has no separator. -/
theorem IsSegment.no_slash {segment : String} (h : IsSegment segment) : 47 ∉ strBytes segment :=
  fun hmem => absurd (h.bytes 47 hmem) (by decide)

/-- A byte of a segment is a byte of a path. -/
theorem in_path_of_in_segment {byte : UInt8} (h : inSegment byte = true) : Url.inPath byte = true := by
  simp only [inSegment, Bool.and_eq_true, Bool.not_eq_true', List.contains_eq_mem,
    decide_eq_false_iff_not, List.mem_cons, not_or] at h
  simp [Url.inPath, h.2]

theorem str_bytes_eq_nil {text : String} : strBytes text = [] ↔ text = "" :=
  ⟨fun h => str_bytes_inj (h.trans rfl), fun h => h ▸ rfl⟩

/-- Decoding inverts the encoding of a text. -/
theorem decode_utf8_eq_some {bytes : Bytes} {text : String} :
    decodeUtf8 bytes = some text ↔ bytes = strBytes text := by
  unfold decodeUtf8 String.fromUTF8?
  constructor
  · intro h
    split at h
    · rw [← Option.some.inj h, strBytes, String.fromUTF8, List.data_toByteArray]
    · cases h
  · rintro rfl
    have hbytes : (strBytes text).toByteArray = text.toByteArray :=
      ByteArray.ext (by rw [List.data_toByteArray, strBytes, Array.toArray_toList])
    rw [dif_pos (hbytes ▸ text.isValidUTF8)]
    exact congrArg some (String.toByteArray_inj.mp hbytes)

/-- The paths that lead to a stream. -/
theorem routed_name_iff {path : Bytes} {name : String} :
    routedName path = some name ↔ ∃ segment, path = streamRoute ++ strBytes segment ∧
      IsSegment segment ∧ Url.percentDecode (strBytes segment) = strBytes name := by
  rw [routedName]
  constructor
  · intro h
    split at h
    · next hroute =>
      obtain ⟨⟨bytes, rfl⟩, hne, hbytes, htext⟩ := hroute
      rw [List.drop_left] at hne hbytes htext h
      obtain ⟨segment, hsegment⟩ := Option.isSome_iff_exists.mp htext
      obtain rfl := decode_utf8_eq_some.mp hsegment
      exact ⟨segment, rfl, ⟨fun hempty => hne (str_bytes_eq_nil.mpr hempty),
        List.all_eq_true.mp hbytes⟩, decode_utf8_eq_some.mp h⟩
    · cases h
  · rintro ⟨segment, rfl, hsegment, hdecode⟩
    rw [List.drop_left, if_pos ⟨List.prefix_append _ _, fun hnil => hsegment.nonempty
      (str_bytes_eq_nil.mp hnil), List.all_eq_true.mpr hsegment.bytes,
      Option.isSome_iff_exists.mpr ⟨segment, decode_utf8_eq_some.mpr rfl⟩⟩]
    exact decode_utf8_eq_some.mpr hdecode

/-- No path leads to an empty name. -/
theorem routed_name_ne_empty {name : String} (h : ∃ path, routedName path = some name) :
    name ≠ "" := by
  rintro rfl
  obtain ⟨path, hpath⟩ := h
  obtain ⟨segment, -, hsegment, hdecode⟩ := routed_name_iff.mp hpath
  exact Url.percent_decode_ne_nil (fun hnil => hsegment.nonempty (str_bytes_eq_nil.mp hnil)) hdecode

/-! ## Header values -/

/-- A header value has no control byte other than tab in any of its parts. -/
theorem is_header_value_append (left right : String) :
    isHeaderValue (left ++ right) = (isHeaderValue left && isHeaderValue right) := by
  rw [isHeaderValue, str_bytes_append, List.all_append]
  rfl

/-- Visible text is a header value. -/
theorem is_header_value_of_visible {text : String} (h : (strBytes text).all isVisibleAscii = true) :
    isHeaderValue text = true := by
  refine List.all_eq_true.mpr fun byte hbyte => ?_
  have hvisible := List.all_eq_true.mp h byte hbyte
  simp only [isVisibleAscii, Bool.or_eq_true, Bool.and_eq_true, decide_eq_true_eq, beq_iff_eq,
    bne_iff_ne] at hvisible ⊢
  omega

/-- A character of visible ASCII, or a tab. -/
def VisibleChar (c : Char) : Prop := (32 ≤ c.toNat ∧ c.toNat < 127) ∨ c.toNat = 9

/-- A text is visible if all its characters are. -/
theorem str_bytes_visible {text : String} :
    (strBytes text).all isVisibleAscii = true ↔ ∀ c ∈ text.toList, VisibleChar c := by
  have hof {value : Nat} (h : value < 128) : (UInt8.ofNat value).toNat = value :=
    UInt8.toNat_ofNat_of_lt' (Nat.lt_trans h (by decide))
  rw [str_bytes_eq, utf8Encode, List.all_eq_true]
  simp only [List.mem_flatMap, forall_exists_index, and_imp, isVisibleAscii, Bool.or_eq_true,
    Bool.and_eq_true, decide_eq_true_eq, beq_iff_eq]
  constructor
  · intro h c hc
    rcases utf8_encode_char_cases c with ⟨hascii, hcode⟩ | ⟨-, first, rest, hcode, hfirst, -⟩
    · have hbyte := h _ c hc (by rw [hcode]; exact List.mem_singleton_self _)
      rwa [hof hascii] at hbyte
    · have hbyte := h first c hc (by rw [hcode]; exact List.mem_cons_self)
      omega
  · intro h byte c hc hbyte
    have hvisible := h c hc
    rcases utf8_encode_char_cases c with ⟨hascii, hcode⟩ | ⟨habove, -⟩
    · rw [hcode] at hbyte
      rwa [List.mem_singleton.mp hbyte, hof hascii]
    · rw [VisibleChar] at hvisible
      omega

/-- Lower case keeps characters visible. -/
theorem VisibleChar.to_lower {c : Char} (h : VisibleChar c) : VisibleChar c.toLower := by
  have hall : ∀ n : Fin 127, (32 ≤ n.val ∨ n.val = 9) →
      (32 ≤ (Char.ofNat n).toLower.toNat ∧ (Char.ofNat n).toLower.toNat < 127) ∨
        (Char.ofNat n).toLower.toNat = 9 := by
    decide +kernel
  have hc : c.toNat < 127 := by
    rw [VisibleChar] at h
    omega
  have hlower := hall ⟨c.toNat, hc⟩ (by rw [VisibleChar] at h; dsimp only; omega)
  rwa [Char.ofNat_toNat] at hlower

/-- The characters of a normalized content type are visible. -/
theorem normalize_content_type_visible {text : String} (h : ∀ c ∈ text.toList, VisibleChar c) :
    ∀ c ∈ (normalizeContentType text).toList, VisibleChar c := by
  intro c hc
  rw [normalizeContentType, toLowercase, String.toList_ofList] at hc
  obtain ⟨original, hmem, rfl⟩ := List.mem_map.mp hc
  rw [trim, String.toList_ofList, String.toList_ofList] at hmem
  have hmem := (List.dropWhile_sublist _).subset (List.mem_reverse.mp hmem)
  have hmem := (List.dropWhile_sublist _).subset (List.mem_reverse.mp hmem)
  exact (h original ((List.takeWhile_sublist _).subset hmem)).to_lower

/-- The content type of a new stream is a header value. -/
theorem content_type_is_header_value {headers : HeaderMap} {contentType : String}
    (h : contentTypeOf headers = .ok contentType) : isHeaderValue contentType = true := by
  unfold contentTypeOf at h
  split at h
  · obtain rfl := Except.ok.inj h
    decide +kernel
  · next text htext =>
    split at h
    · cases h
    · obtain rfl := Except.ok.inj h
      have hvisible := str_bytes_visible.mp (get_str_eq_some.mp htext).2
      exact is_header_value_of_visible
        (str_bytes_visible.mpr (normalize_content_type_visible hvisible))

/-! ## The location -/

/-- The scheme of a `Location`. -/
def scheme (headers : HeaderMap) : String := (headers.getStr "x-forwarded-proto").getD "http"

/-- The host of a `Location`. -/
def host (headers : HeaderMap) : String :=
  ((headers.getStr "x-forwarded-host").or (headers.getStr "host")).getD "localhost"

/-- A `Location` up to its path. -/
def origin (headers : HeaderMap) : String := scheme headers ++ "://" ++ host headers

theorem build_location_url_eq (headers : HeaderMap) (name : String) :
    buildLocationUrl headers name = origin headers ++ "/v1/stream/" ++ name := rfl

/-- The headers can be spliced into a header. -/
theorem origin_is_header_value (headers : HeaderMap) : isHeaderValue (origin headers) = true := by
  have hscheme : isHeaderValue (scheme headers) = true := by
    rw [scheme]
    cases h : headers.getStr "x-forwarded-proto" with
    | none => decide +kernel
    | some text => exact is_header_value_of_visible (get_str_eq_some.mp h).2
  have hhost : isHeaderValue (host headers) = true := by
    rw [host]
    cases h : headers.getStr "x-forwarded-host" with
    | some text => exact is_header_value_of_visible (get_str_eq_some.mp h).2
    | none =>
        cases h : headers.getStr "host" with
        | none => decide +kernel
        | some text => exact is_header_value_of_visible (get_str_eq_some.mp h).2
  have hmark : isHeaderValue "://" = true := by decide +kernel
  rw [origin, is_header_value_append, is_header_value_append, hscheme, hmark, hhost]
  rfl

/-- Only the name can make a `Location` no header value. -/
theorem location_is_header_value (headers : HeaderMap) (name : String) :
    isHeaderValue (buildLocationUrl headers name) = isHeaderValue name := by
  have hroute : isHeaderValue "/v1/stream/" = true := by decide +kernel
  rw [build_location_url_eq, is_header_value_append, is_header_value_append,
    origin_is_header_value, hroute]
  rfl

/-- The name is a segment on its own, and the headers in front of it are a scheme and a host. -/
structure PlainLocation (headers : HeaderMap) (name : String) : Prop where
  plain : Url.Plain (strBytes (scheme headers)) (strBytes (host headers))
  inSegment : ∀ byte ∈ strBytes name, inSegment byte = true
  noEscape : Url.NoEscape (strBytes name)

/-- When a `Location` leads back. A query or a fragment in the headers hides the name, so then the
headers have to end in the route and a segment for the name in front of it. -/
def LocationFits (headers : HeaderMap) (name : String) : Prop :=
  if (strBytes (origin headers)).all Url.inPath then PlainLocation headers name
  else ∃ front segment, Url.Front front ∧ IsSegment segment ∧
    (strBytes (origin headers)).takeWhile Url.inPath = front ++ streamRoute ++ strBytes segment ∧
    Url.percentDecode (strBytes segment) = strBytes name

/-- The end of a path is the segment for a name if nothing in the name is cut off or decoded. -/
theorem segment_take_while_iff {name : String} (hname : name ≠ "") :
    (∃ segment, (strBytes name).takeWhile Url.inPath = strBytes segment ∧ IsSegment segment ∧
        Url.percentDecode (strBytes segment) = strBytes name) ↔
      (∀ byte ∈ strBytes name, inSegment byte = true) ∧ Url.NoEscape (strBytes name) := by
  constructor
  · rintro ⟨segment, hpath, hsegment, hdecode⟩
    -- The decoded text is as long as the name, so nothing has been lost.
    have hwhole : (strBytes name).takeWhile Url.inPath = strBytes name := by
      have hshorter := Url.length_percent_decode_le (strBytes segment)
      rw [hdecode, ← hpath] at hshorter
      exact (List.takeWhile_prefix _).eq_of_length_le hshorter
    obtain rfl := str_bytes_inj (hwhole.symm.trans hpath)
    exact ⟨hsegment.bytes, Url.percent_decode_eq_self_iff.mp hdecode⟩
  · rintro ⟨hin, hescape⟩
    exact ⟨name, List.takeWhile_eq_self_iff.mpr fun byte hbyte => in_path_of_in_segment
      (hin byte hbyte), ⟨hname, hin⟩, Url.percent_decode_eq_self_iff.mpr hescape⟩

/-- The bytes of a `Location`. -/
theorem str_bytes_location (headers : HeaderMap) (name : String) :
    strBytes (buildLocationUrl headers name) = strBytes (scheme headers) ++
      58 :: 47 :: 47 :: (strBytes (host headers) ++ 47 :: (streamRoute.tail ++ strBytes name)) := by
  have hmark : strBytes "://" = [58, 47, 47] := by decide +kernel
  have hroute : strBytes "/v1/stream/" = 47 :: streamRoute.tail := by decide +kernel
  rw [build_location_url_eq, origin, str_bytes_append, str_bytes_append, str_bytes_append,
    str_bytes_append, hmark, hroute]
  simp

/-- A `Location` leads back to its stream if and only if its parts are what they should be. -/
theorem location_leads_back_iff {headers : HeaderMap} {name : String} (hname : name ≠ "") :
    routedName (Url.path (strBytes (buildLocationUrl headers name))) = some name ↔
      LocationFits headers name := by
  have hv : (118 : UInt8) ≠ 47 := by decide
  have hsplit (bytes : Bytes) : streamRoute ++ bytes = 47 :: 118 :: (streamRoute.drop 2 ++ bytes) := by
    have hroute : streamRoute = 47 :: 118 :: streamRoute.drop 2 := by decide +kernel
    conv_lhs => rw [hroute]
    rfl
  rw [LocationFits, routed_name_iff]
  split
  · next hin =>
    have horigin : strBytes (origin headers) =
        strBytes (scheme headers) ++ strBytes "://" ++ strBytes (host headers) := by
      rw [origin, str_bytes_append, str_bytes_append]
    rw [horigin, List.all_append, List.all_append, Bool.and_eq_true, Bool.and_eq_true] at hin
    have hscheme := List.all_eq_true.mp hin.1.1
    have hhost := List.all_eq_true.mp hin.2
    have hroute : (streamRoute.tail ++ strBytes name).takeWhile Url.inPath =
        streamRoute.tail ++ (strBytes name).takeWhile Url.inPath :=
      List.takeWhile_append_of_pos (List.all_eq_true.mp (by decide +kernel))
    have hparts {segment : String} (hsegment : IsSegment segment) :
        Url.path (strBytes (buildLocationUrl headers name)) = streamRoute ++ strBytes segment ↔
          Url.Plain (strBytes (scheme headers)) (strBytes (host headers)) ∧
            (strBytes name).takeWhile Url.inPath = strBytes segment := by
      have htail : streamRoute.tail = 118 :: streamRoute.drop 2 := by decide +kernel
      rw [str_bytes_location, hsplit, Url.path_parts_iff hscheme hhost hv, hroute, htail,
        List.cons_append, List.cons.injEq, List.append_cancel_left_eq, and_iff_right rfl]
      -- The segment has no separator, so there are those of the route.
      rw [← hsplit, hroute, htail, List.cons_append, ← hsplit, List.count_append, List.count_append,
        List.count_eq_zero.mpr hsegment.no_slash]
      exact Nat.le_add_right ..
    have hend := segment_take_while_iff hname
    constructor
    · rintro ⟨segment, hpath, hsegment, hdecode⟩
      obtain ⟨hplain, hsame⟩ := (hparts hsegment).mp hpath
      obtain ⟨hbytes, hescape⟩ := hend.mp ⟨segment, hsame, hsegment, hdecode⟩
      exact ⟨hplain, hbytes, hescape⟩
    · intro h
      obtain ⟨segment, hsame, hsegment, hdecode⟩ := hend.mpr ⟨h.inSegment, h.noEscape⟩
      exact ⟨segment, (hparts hsegment).mpr ⟨h.plain, hsame⟩, hsegment, hdecode⟩
  · next hquery =>
    simp only [List.all_eq_true, not_forall, Bool.not_eq_true] at hquery
    obtain ⟨byte, hmem, hbyte⟩ := hquery
    obtain ⟨front, back, hquery⟩ := List.append_of_mem hmem
    have hpath : Url.path (strBytes (buildLocationUrl headers name)) =
        Url.path ((strBytes (origin headers)).takeWhile Url.inPath) := by
      rw [Url.path_take_while, build_location_url_eq, str_bytes_append, str_bytes_append, hquery,
        List.append_assoc, List.append_assoc, List.cons_append, Url.path_append_end hbyte,
        Url.path_append_end hbyte]
    rw [hpath]
    constructor
    · rintro ⟨segment, hpath, hsegment, hdecode⟩
      rw [hsplit, Url.path_eq_iff (fun _ => List.mem_takeWhile_imp) hv, ← hsplit] at hpath
      obtain ⟨front, hfront, horigin⟩ := hpath
      exact ⟨front, segment, hfront, hsegment, by rw [horigin, List.append_assoc], hdecode⟩
    · rintro ⟨front, segment, hfront, hsegment, horigin, hdecode⟩
      refine ⟨segment, ?_, hsegment, hdecode⟩
      rw [hsplit, Url.path_eq_iff (fun _ => List.mem_takeWhile_imp) hv, ← hsplit]
      exact ⟨front, hfront, by rw [horigin, List.append_assoc]⟩

/-! ## The handler -/

/-- Whether there is a response only depends on the name. -/
theorem respond_eq {request : Request} {contentType : String} {result : CreateWithDataResult}
    (h : contentTypeOf request.headers = .ok contentType) :
    ∃ response : Response, response.location = buildLocationUrl request.headers request.name ∧
      respond request contentType result =
        if isHeaderValue request.name then some response else none := by
  rw [respond, content_type_is_header_value h, location_is_header_value, Bool.true_and]
  exact ⟨_, rfl, rfl⟩

/-- A handler that calls the storage goes on with the response. -/
theorem create_stream_resume {chrono : Chrono} {serde : SerdeJson} {request : Request} {op : Op}
    {resume : Reply → Program Op Reply (Option (Result Response))}
    (h : createStream chrono serde request = .call op resume) :
    ∃ contentType, contentTypeOf request.headers = .ok contentType ∧
      ∀ result, resume (.createdWithData (.ok result)) =
        .done ((respond request contentType result).map .ok) := by
  unfold createStream at h
  split at h
  · cases h
  · cases h
  · next create hparse =>
    obtain ⟨-, -, htype, -⟩ := parse_create_ok hparse
    obtain ⟨-, rfl⟩ := Program.call.inj h
    exact ⟨_, htype, fun result => rfl⟩

/-- The handler answers once the storage has created the stream if and only if its name has no control
byte, and its `Location` leads back to the stream if and only if the location fits as well. -/
theorem create_answers_iff (chrono : Chrono) (serde : SerdeJson) (request : Request)
    (hname : ∃ path, routedName path = some request.name) {op : Op}
    {resume : Reply → Program Op Reply (Option (Result Response))}
    (hcall : createStream chrono serde request = .call op resume) (result : CreateWithDataResult) :
    (resume (.createdWithData (.ok result)) = .done none ↔ isHeaderValue request.name = false) ∧
      ((∃ response, resume (.createdWithData (.ok result)) = .done (some (.ok response)) ∧
          routedName (Url.path (strBytes response.location)) = some request.name) ↔
        isHeaderValue request.name = true ∧ LocationFits request.headers request.name) := by
  obtain ⟨contentType, htype, hresume⟩ := create_stream_resume hcall
  obtain ⟨response, hlocation, hrespond⟩ := @respond_eq request contentType result htype
  rw [hresume, hrespond]
  by_cases hvalue : isHeaderValue request.name = true
  · rw [if_pos hvalue, ← location_leads_back_iff (routed_name_ne_empty hname), ← hlocation]
    simp [hvalue]
  · rw [if_neg hvalue]
    simp [hvalue]

/-- A request for an empty stream. -/
def plainRequest (name : String) : Request := ⟨name, [("host", strBytes "localhost:4437")], .ok [], 0⟩

/-- A plain name. -/
theorem orders_leads_back :
    ∃ op resume response, createStream chronoRange nestedZeros (plainRequest "orders") =
        .call op resume ∧
      resume (.createdWithData (.ok ⟨.created, .new 0 0, false⟩)) = .done (some (.ok response)) ∧
      routedName (Url.path (strBytes response.location)) = some "orders" := by
  have hrouted : routedName (streamRoute ++ strBytes "orders") = some "orders" :=
    routed_name_iff.mpr ⟨_, rfl, ⟨by decide, List.all_eq_true.mp (by decide +kernel)⟩,
      by decide +kernel⟩
  have hfits : LocationFits (plainRequest "orders").headers "orders" := by
    rw [LocationFits, if_pos (by decide +kernel)]
    exact ⟨⟨by decide +kernel, by decide +kernel, by decide +kernel, by decide +kernel⟩,
      List.all_eq_true.mp (by decide +kernel),
      Url.percent_decode_eq_self_iff.mp (by decide +kernel)⟩
  obtain ⟨response, hresponse⟩ := (create_answers_iff chronoRange nestedZeros (plainRequest "orders")
    ⟨_, hrouted⟩ rfl ⟨.created, .new 0 0, false⟩).2.mpr ⟨by decide +kernel, hfits⟩
  exact ⟨_, _, response, rfl, hresponse⟩

/-- A line feed in a name makes the handler panic once the stream has been created. The locations of
names with a slash or a space lead nowhere, that of a name with a question mark to another stream. -/
theorem location_leads_elsewhere :
    let broken := (createStream chronoRange nestedZeros (plainRequest "a\nb")).run
      (fun clock op => Memory.step ⟨100, 10⟩ ⟨clock, op⟩) [.at 0] .new
    (routedName (strBytes "/v1/stream/a%0Ab") = some "a\nb" ∧ broken.1 = some none ∧
        (broken.2.streams.lookup "a\nb").isSome = true) ∧
      (routedName (strBytes "/v1/stream/a%2Fb") = some "a/b" ∧
        routedName (Url.path (strBytes (buildLocationUrl [] "a/b"))) = none) ∧
      (routedName (strBytes "/v1/stream/a%20b") = some "a b" ∧
        routedName (Url.path (strBytes (buildLocationUrl [] "a b"))) = none) ∧
      routedName (strBytes "/v1/stream/a%3Fb") = some "a?b" ∧
        routedName (Url.path (strBytes (buildLocationUrl [] "a?b"))) = some "a" := by
  decide +kernel

end DurableStreams.Put
