import DurableStreams.Handlers.Put
import DurableStreams.Protocol.Decimals

/-!
# Expiry of new streams

`create_stream` adds the TTL of a request to the current time. The parser admits every number below
`2 ^ 64`, but neither a `chrono::Duration` nor a `DateTime` goes that far, and the computation panics
beyond them. `configOf` is the handler up to that computation (`parse_create_eq`), and
`ttl_expiry_iff` says when it completes.
-/

namespace DurableStreams.Put

open Lib

/-- The handler up to the configuration of the new stream, which is `none` when the computation of
its expiry panics. -/
def configOf (chrono : Chrono) (request : Request) : Result (Option (StreamConfig × Bytes)) := do
  let body ← request.body.mapError fun error =>
    Error.invalidHeader "Content-Length" ("Failed to read body: " ++ error)
  let contentType ← contentTypeOf request.headers
  let ttlSeconds ← optionalHeader request.headers Names.streamTtl parseTtl
  let expiresAt ← optionalHeader request.headers Names.streamExpiresAt (parseExpiresAt chrono)
  if ttlSeconds.isSome && expiresAt.isSome then throw .conflictingExpiration
  let createdClosed := (request.headers.getStr Names.streamClosed).any parseBool
  return (streamConfig chrono request.now contentType ttlSeconds expiresAt createdClosed).map
    fun config => (config, body)

section

variable (chrono : Chrono) (serde : SerdeJson) (request : Request)

/-- The rest of the handler parses the messages. -/
theorem parse_create_eq :
    parseCreate chrono serde request = do
      match ← configOf chrono request with
      | none => return none
      | some (config, body) =>
          let messages ← messagesOf serde config.contentType body
          if fits : payloadBytes messages < 2 ^ 64 then return some ⟨config, messages, fits⟩
          else return none := by
  unfold parseCreate configOf
  cases request.body.mapError fun error =>
    Error.invalidHeader "Content-Length" ("Failed to read body: " ++ error) with
  | error error => rfl
  | ok body =>
  cases contentTypeOf request.headers with
  | error error => rfl
  | ok contentType =>
  cases optionalHeader request.headers Names.streamTtl parseTtl with
  | error error => rfl
  | ok ttlSeconds =>
  cases optionalHeader request.headers Names.streamExpiresAt (parseExpiresAt chrono) with
  | error error => rfl
  | ok expiresAt =>
  dsimp only [bind, Except.bind]
  cases ttlSeconds.isSome && expiresAt.isSome with
  | true => rfl
  | false =>
  cases hconfig : streamConfig chrono request.now contentType ttlSeconds expiresAt
      ((request.headers.getStr Names.streamClosed).any parseBool) with
  | none => rfl
  | some config =>
  obtain rfl := stream_config_content_type hconfig
  rfl

/-- When the computation panics, so does the handler, before it has called the storage. -/
theorem create_stream_of_panic (h : configOf chrono request = .ok none) :
    createStream chrono serde request = .done none := by
  have hparse : parseCreate chrono serde request = .ok none := by
    rw [parse_create_eq, h]
    rfl
  rw [createStream, hparse]

end

/-! ## The range of a TTL -/

/-- The expiry lies in the range of `chrono`. -/
def InRange (chrono : Chrono) (now : Timestamp) (ttl : Nat) : Prop :=
  ttl ≤ maxDurationSeconds ∧ now + ttl * 1000000000 ≤ chrono.maxUtc

instance (chrono : Chrono) (now : Timestamp) (ttl : Nat) : Decidable (InRange chrono now ttl) :=
  inferInstanceAs (Decidable (_ ∧ _))

/-- The computation of the expiry of a stream. -/
theorem ttl_expiry_eq (chrono : Chrono) (now : Timestamp) (ttl : Nat) :
    ttlExpiry chrono now ttl =
      if InRange chrono now ttl then some (now + ttl * 1000000000) else none := by
  have hrange : maxDurationSeconds < 2 ^ 63 - 1 := by decide
  unfold ttlExpiry
  dsimp only
  by_cases hlarge : ttl ≤ maxDurationSeconds
  · have hseconds : (if ttl < 2 ^ 63 then ttl else 2 ^ 63 - 1) = ttl := if_pos (by omega)
    rw [hseconds, if_neg (by omega)]
    by_cases hdate : now + (ttl : Int) * 1000000000 ≤ chrono.maxUtc
    · rw [if_neg (Int.not_lt.mpr hdate), if_pos ⟨hlarge, hdate⟩]
    · rw [if_pos (Int.not_le.mp hdate), if_neg fun h => hdate h.2]
  · -- A TTL that is no `i64` becomes the largest one, which is too large as well.
    have hseconds : maxDurationSeconds < if ttl < 2 ^ 63 then ttl else 2 ^ 63 - 1 := by
      split
      · omega
      · exact hrange
    rw [if_pos hseconds, if_neg fun h => hlarge h.1]

/-- The request is refused whatever its TTL is: its body or its content type is no good, or it has an
expiry time as well. -/
def RefusedAnyway (request : Request) : Prop :=
  (∃ error, request.body = .error error) ∨ (∃ error, contentTypeOf request.headers = .error error) ∨
    request.headers.getStr Names.streamExpiresAt ≠ none

/-- The handler gets past the computation of the expiry: the request is refused as a client error, or
the new stream expires at an instant that is not before now. -/
def ExpiryCompletes (chrono : Chrono) (request : Request) : Prop :=
  (∃ error, configOf chrono request = .error error ∧ 400 ≤ error.statusCode ∧
      error.statusCode < 500) ∨
    ∃ config body expiry, configOf chrono request = .ok (some (config, body)) ∧
      config.expiresAt = some expiry ∧ request.now ≤ expiry

section

variable {chrono : Chrono} {request : Request} {value : String} {ttl : Nat}

/-- The TTL of a request. -/
theorem optional_header_ttl (hheader : request.headers.getStr Names.streamTtl = some value)
    (hparse : parseTtl value = .ok ttl) :
    optionalHeader request.headers Names.streamTtl parseTtl = .ok (some ttl) := by
  rw [optionalHeader, hheader]
  dsimp only
  rw [hparse]
  rfl

/-- A bad header is a client error. -/
theorem invalid_header_status (header reason : String) :
    400 ≤ (Error.invalidHeader header reason).statusCode ∧
      (Error.invalidHeader header reason).statusCode < 500 := by
  simp [Error.statusCode]

/-- Requests that are refused anyway get a client error. -/
theorem config_of_refused (hheader : request.headers.getStr Names.streamTtl = some value)
    (hparse : parseTtl value = .ok ttl) (h : RefusedAnyway request) :
    ∃ error, configOf chrono request = .error error ∧ 400 ≤ error.statusCode ∧
      error.statusCode < 500 := by
  have httl := optional_header_ttl hheader hparse
  unfold configOf
  cases hbody : request.body with
  | error error => exact ⟨_, rfl, invalid_header_status _ _⟩
  | ok body =>
  dsimp only [Except.mapError, bind, Except.bind]
  cases htype : contentTypeOf request.headers with
  | error error =>
      refine ⟨error, rfl, ?_⟩
      unfold contentTypeOf at htype
      split at htype
      · cases htype
      split at htype
      · obtain rfl := Except.error.inj htype
        exact invalid_header_status _ _
      · cases htype
  | ok contentType =>
  dsimp only
  rw [httl]
  dsimp only
  have hexpires : request.headers.getStr Names.streamExpiresAt ≠ none := by
    rcases h with ⟨error, herror⟩ | ⟨error, herror⟩ | hexpires
    · rw [hbody] at herror
      cases herror
    · rw [htype] at herror
      cases herror
    · exact hexpires
  obtain ⟨text, htext⟩ := Option.ne_none_iff_exists'.mp hexpires
  rw [optionalHeader, htext]
  dsimp only
  unfold parseExpiresAt
  cases chrono.parse text with
  | error error => exact ⟨_, rfl, invalid_header_status _ _⟩
  | ok expiry => exact ⟨_, rfl, by decide⟩

/-- Other requests get to the computation of the expiry. -/
theorem config_of_reached (hheader : request.headers.getStr Names.streamTtl = some value)
    (hparse : parseTtl value = .ok ttl) (h : ¬ RefusedAnyway request) :
    ∃ contentType createdClosed body,
      configOf chrono request = .ok ((ttlExpiry chrono request.now ttl).map fun expiry =>
        (⟨contentType, some ttl, some expiry, createdClosed⟩, body)) := by
  have httl := optional_header_ttl hheader hparse
  simp only [RefusedAnyway, not_or, not_exists, ne_eq, not_not] at h
  obtain ⟨hbody, htype, hexpires⟩ := h
  cases hbody' : request.body with
  | error error => exact absurd hbody' (hbody error)
  | ok body =>
  cases htype' : contentTypeOf request.headers with
  | error error => exact absurd htype' (htype error)
  | ok contentType =>
  have hexpires' : optionalHeader request.headers Names.streamExpiresAt (parseExpiresAt chrono) =
      .ok none := by
    rw [optionalHeader, hexpires]
  refine ⟨contentType, (request.headers.getStr Names.streamClosed).any parseBool, body, ?_⟩
  unfold configOf
  rw [hbody', htype', httl, hexpires']
  dsimp only [Except.mapError, bind, Except.bind, streamConfig]
  cases ttlExpiry chrono request.now ttl <;> rfl

end

/-- Every TTL the parser accepts is a canonical decimal below `2 ^ 64`, but the computation of the
expiry only completes if the TTL is in range or the request is refused for another reason. If it does
not, the handler panics. -/
theorem ttl_expiry_iff (chrono : Chrono) (request : Request) (value : String) :
    (∀ ttl, parseTtl value = .ok ttl ↔
      CanonicalDecimal (trim value).toList ∧ decimalValue (trim value).toList = ttl ∧
        ttl < 2 ^ 64) ∧
    (request.headers.getStr Names.streamTtl = some value →
      (∃ ttl, parseTtl value = .ok ttl) →
      (ExpiryCompletes chrono request ↔
        RefusedAnyway request ∨ InRange chrono request.now (decimalValue (trim value).toList)) ∧
      (¬ ExpiryCompletes chrono request →
        ∀ serde, createStream chrono serde request = .done none)) := by
  refine ⟨fun ttl => parse_ttl_ok, fun hheader hparse => ?_⟩
  obtain ⟨ttl, hparse⟩ := hparse
  obtain ⟨-, hvalue, -⟩ := parse_ttl_ok.mp hparse
  rw [hvalue]
  by_cases hrefused : RefusedAnyway request
  · have hcompletes : ExpiryCompletes chrono request :=
      .inl (config_of_refused hheader hparse hrefused)
    exact ⟨iff_of_true hcompletes (.inl hrefused), fun h => absurd hcompletes h⟩
  obtain ⟨contentType, createdClosed, body, hconfig⟩ :=
    @config_of_reached chrono request value ttl hheader hparse hrefused
  rw [ttl_expiry_eq] at hconfig
  by_cases hrange : InRange chrono request.now ttl
  · have hlater : request.now ≤ request.now + ttl * 1000000000 :=
      Int.le_add_of_nonneg_right (Int.mul_nonneg (Int.natCast_nonneg ttl) (by decide))
    have hcompletes : ExpiryCompletes chrono request := by
      rw [if_pos hrange] at hconfig
      exact .inr ⟨_, _, _, hconfig, rfl, hlater⟩
    exact ⟨iff_of_true hcompletes (.inr hrange), fun h => absurd hcompletes h⟩
  · rw [if_neg hrange] at hconfig
    refine ⟨iff_of_false ?_ ?_, fun _ serde => create_stream_of_panic chrono serde request hconfig⟩
    · rintro (⟨error, herror, -⟩ | ⟨config, body, expiry, hsome, -⟩)
      · rw [hconfig] at herror
        cases herror
      · rw [hconfig] at hsome
        cases hsome
    · rintro (h | h)
      · exact hrefused h
      · exact hrange h

/-- The range of `chrono`, to the last nanosecond of the year 262142. -/
def chronoRange : Chrono := ⟨fun _ => .error "premature end of input", 8210266876799999999999⟩

/-- A request for an empty stream with a TTL. -/
def ttlRequest (ttl : String) : Request :=
  ⟨"s", [(Names.streamTtl, strBytes ttl)], .ok [], 1700000000000000000⟩

/-- A TTL of an hour. -/
theorem hour_expires : ExpiryCompletes chronoRange (ttlRequest "3600") :=
  (((ttl_expiry_iff chronoRange (ttlRequest "3600") "3600").2 (by decide +kernel)
    ⟨3600, by decide +kernel⟩).1).mpr (.inr (by decide +kernel))

/-- A TTL that is no `chrono::Duration`, and one that is but leads past the last date. -/
theorem far_ttl_panics :
    (parseTtl "18446744073709551615" = .ok 18446744073709551615 ∧
      ∀ serde, createStream chronoRange serde (ttlRequest "18446744073709551615") = .done none) ∧
    parseTtl "9000000000000" = .ok 9000000000000 ∧
      ∀ serde, createStream chronoRange serde (ttlRequest "9000000000000") = .done none :=
  ⟨⟨by decide +kernel, fun serde => create_stream_of_panic _ serde _ (by decide +kernel)⟩,
    by decide +kernel, fun serde => create_stream_of_panic _ serde _ (by decide +kernel)⟩

end DurableStreams.Put
