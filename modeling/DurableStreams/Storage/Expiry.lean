import DurableStreams.Storage.Acid.Bounds
import DurableStreams.Storage.File.Named

/-!
# Expired streams

An expired stream stays in a backend until somebody creates a stream under its name, deletes it or
restarts the server. Until then every operation has to treat it as absent by itself. The in-memory and
the file backend do: a create goes on with exactly the storage without the stream. The transactional
storage reserves the bytes of a request before it looks at the stream and before it gives back those
of an expired one, so near the global limit the stream still shows (`expired_streams_are_invisible`).
-/

namespace DurableStreams

open Lib

/-- The call fails as if there were no stream, and changes nothing. -/
def NotThere {σ : Type} (op : Op) (state : σ) (result : Reply × σ) : Prop :=
  ∃ error : Error, result = (op.failure error, state) ∧ error.statusCode = 404

/-- The stream under the name of a call is invisible to it: a create gives the result it would give
without the stream, and the other operations find nothing. -/
def Invisible {σ : Type} (Same : σ → σ → Prop) (op : Op) (state : σ) (result reference : Reply × σ) :
    Prop :=
  match op with
  | .createStream .. | .createStreamWithData .. =>
      result.1 = reference.1 ∧ (result.1.failed = false → Same result.2 reference.2)
  | .append .. | .appendWithProducer .. | .read .. | .head .. | .closeStream .. =>
      NotThere op state result
  | .batchAppend _ messages _ _ _ => messages ≠ [] → NotThere op state result
  | .exists _ => result.1 = .exists false
  | .subscribe _ => result.1 = .receiver none
  | .delete _ => True

/-- The rule for a backend: a create goes on as without the stream, `exists` is false, and everything
else reports the expiry. -/
theorem Invisible.intro {σ : Type} {Same : σ → σ → Prop} {op : Op} {state : σ}
    {result reference : Reply × σ}
    (hcreates : op.config.isSome = true →
      result.1 = reference.1 ∧ (result.1.failed = false → Same result.2 reference.2))
    (hexists : ∀ name, op = .exists name → result.1 = .exists false)
    (hworks : Memory.onStream op = true → result = (op.failure .streamExpired, state)) :
    Invisible Same op state result reference := by
  cases op with
  | createStream | createStreamWithData => exact hcreates rfl
  | append | appendWithProducer | closeStream | read | head =>
      exact ⟨.streamExpired, hworks rfl, rfl⟩
  | batchAppend name messages contentType seq fits =>
      exact fun hmessages => ⟨.streamExpired, hworks (by simp [Memory.onStream, hmessages]), rfl⟩
  | «exists» name => exact hexists name rfl
  | subscribe => exact congrArg Prod.fst (hworks rfl)
  | delete => trivial

end DurableStreams

namespace DurableStreams.Memory

open Lib

/-- The storage without a stream and its bytes. -/
def InMemoryStorage.without (storage : InMemoryStorage) (name : String) (stream : StreamEntry) :
    InMemoryStorage :=
  ⟨storage.streams.erase name, storage.totalBytes - stream.totalBytes⟩

variable {storage : InMemoryStorage} {name : String} {stream : StreamEntry} {clock : Clock}

/-- A create goes on with the storage without the expired stream. -/
theorem claim_expired (hlookup : storage.streams.lookup name = some stream)
    (hexpired : isStreamExpired clock.expiry stream.config = true) :
    claimName clock storage name = .vacant (storage.without name stream) := by
  rw [claimName, hlookup]
  exact if_pos hexpired

/-- So it does if the stream is not there. -/
theorem claim_without (clock : Clock) (storage : InMemoryStorage) (name : String)
    (stream : StreamEntry) : claimName clock (storage.without name stream) name =
      .vacant (storage.without name stream) := by
  have hgone : (storage.without name stream).streams.lookup name = none := Finmap.lookup_erase ..
  rw [claimName, hgone]

/-- An operation on an expired stream only reports the expiry. -/
theorem plan_expired {call : Call} (hop : onStream call.op = true)
    (hexpired : isStreamExpired call.clock.expiry stream.config = true) :
    plan call stream = .finish (call.op.failure .streamExpired) stream := by
  obtain ⟨clock, op⟩ := call
  cases op with
  | append | batchAppend | appendWithProducer | closeStream => exact if_pos hexpired
  | read | head | subscribe => simp [plan, readSection, headSection, hexpired, Op.failure]
  | createStream | createStreamWithData | delete | «exists» => cases hop

/-- It leaves the storage as it was. -/
theorem step_expired (limits : Limits) {call : Call} (hop : onStream call.op = true)
    (hlookup : storage.streams.lookup call.op.name = some stream)
    (hexpired : isStreamExpired call.clock.expiry stream.config = true) :
    step limits call storage = (call.op.failure .streamExpired, storage) := by
  rw [step_of_stream_op limits storage hop, hlookup]
  dsimp only
  rw [plan_expired hop hexpired]
  simp only [Plan.run, FiniteMap.insert_lookup hlookup]

/-- Expired streams are invisible. -/
theorem expired_invisible (limits : Limits) {call : Call}
    (hlookup : storage.streams.lookup call.op.name = some stream)
    (hexpired : isStreamExpired call.clock.expiry stream.config = true) :
    Invisible (· = ·) call.op storage (step limits call storage)
      (step limits call (storage.without call.op.name stream)) := by
  have hclaim := claim_expired hlookup hexpired
  have hwithout := claim_without call.clock storage call.op.name stream
  refine .intro (fun hop => ?_) (fun name hop => ?_) fun hop => step_expired limits hop hlookup hexpired
  · suffices hsame : step limits call storage =
        step limits call (storage.without call.op.name stream) by rw [hsame]; exact ⟨rfl, fun _ => rfl⟩
    obtain ⟨clock, op⟩ := call
    cases op with
    | createStream name config =>
        dsimp only [Op.name] at hclaim hwithout ⊢
        simp only [step, createStream, hclaim, hwithout]
    | createStreamWithData name config messages shouldClose fits =>
        dsimp only [Op.name] at hclaim hwithout ⊢
        simp only [step, createStreamWithData, hclaim, hwithout]
    | _ => cases hop
  · rw [hop, Op.name] at hlookup
    simp [step, hop, existsStream, hlookup, hexpired]

end DurableStreams.Memory

namespace DurableStreams.File

open Lib

/-- The storage without a stream, its bytes and its directory. -/
def FileStorage.without (file : FileStorage) (name : String) (stream : StreamEntry) : FileStorage :=
  ⟨file.streams.erase name, file.totalBytes - stream.totalBytes, file.disk.erase (encodeName name)⟩

variable {config : Config} {file : FileStorage} {name : String} {stream : StreamEntry}
  {clock : Clock}

/-- A create goes on with the storage without the expired stream. -/
theorem claim_expired (h : Named file) (hlookup : file.streams.lookup name = some stream)
    (hexpired : isStreamExpired clock.expiry stream.config = true) :
    claimName config .none clock file name = .vacant (file.without name stream) := by
  have hdir : stream.dir = encodeName name := h.entries name stream hlookup
  have hvalid := validate_stream_dir_ok config (encode_name_ne (h.name_ne hlookup))
  simp only [claimName, hlookup, hexpired, ↓reduceIte, removeStream, hdir, hvalid, Faults.none]
  rfl

/-- So it does if the stream is not there. -/
theorem claim_without (config : Config) (clock : Clock) (file : FileStorage) (name : String)
    (stream : StreamEntry) : claimName config .none clock (file.without name stream) name =
      .vacant (file.without name stream) := by
  have hgone : (file.without name stream).streams.lookup name = none := Finmap.lookup_erase ..
  rw [claimName, hgone]

/-- A section that refuses to work leaves the storage as it was. -/
theorem with_stream_refused {α : Type} (body : Nat → Nat → StreamEntry → Outcome α) (error : Error)
    (hlookup : file.streams.lookup name = some stream)
    (hbody : body file.totalBytes (file.log stream.dir).length stream =
      ⟨.error error, file.totalBytes, stream, []⟩) :
    withStream file name body = (.error error, file) := by
  rw [withStream, hlookup]
  dsimp only
  rw [hbody]
  simp only [FiniteMap.insert_lookup hlookup, within_nil]

/-- An operation on an expired stream only reports the expiry. -/
theorem step_expired (config : Config) {call : Call} (hop : Memory.onStream call.op = true)
    (hlookup : file.streams.lookup call.op.name = some stream)
    (hexpired : isStreamExpired call.clock.expiry stream.config = true) :
    step config .none call file = (call.op.failure .streamExpired, file) := by
  obtain ⟨clock, op⟩ := call
  cases op with
  | append name data contentType fits =>
      have hsection := with_stream_refused
        (appendSection config .none clock name data contentType) .streamExpired hlookup
        (if_pos hexpired)
      simp only [step, show withStream file name _ = _ from hsection]
      rfl
  | batchAppend name messages contentType seq fits =>
      have hsection := with_stream_refused
        (batchAppendSection config .none clock name messages contentType seq) .streamExpired hlookup
        (if_pos hexpired)
      have hmessages : messages.isEmpty = false := by simpa [Memory.onStream] using hop
      simp only [step, batchAppend, hmessages, show withStream file name _ = _ from hsection]
      rfl
  | appendWithProducer name messages contentType producer shouldClose seq fits =>
      have hsection := with_stream_refused (appendWithProducerSection config .none clock name messages
        contentType producer shouldClose seq) .streamExpired hlookup (if_pos hexpired)
      simp only [step, show withStream file name _ = _ from hsection]
      rfl
  | closeStream name =>
      have hsection := with_stream_refused
        (fun total _ => closeSection config .none clock name total) .streamExpired hlookup
        (if_pos hexpired)
      simp only [step, show withStream file name _ = _ from hsection]
      rfl
  | read name offset =>
      simp [step, readStream, show file.streams.lookup name = _ from hlookup, readSection,
        show isStreamExpired clock.expiry stream.config = true from hexpired, Op.failure]
  | head name =>
      simp [step, readStream, show file.streams.lookup name = _ from hlookup, headSection,
        show isStreamExpired clock.expiry stream.config = true from hexpired, Op.failure]
  | subscribe name =>
      simp [step, subscribe, show file.streams.lookup name = _ from hlookup,
        show isStreamExpired clock.expiry stream.config = true from hexpired, Op.failure]
  | createStream | createStreamWithData | delete | «exists» => cases hop

/-- Expired streams are invisible. -/
theorem expired_invisible (config : Config) {call : Call} (h : Named file)
    (hlookup : file.streams.lookup call.op.name = some stream)
    (hexpired : isStreamExpired call.clock.expiry stream.config = true) :
    Invisible (· = ·) call.op file (step config .none call file)
      (step config .none call (file.without call.op.name stream)) := by
  have hclaim := @claim_expired config _ _ _ _ h hlookup hexpired
  have hwithout := claim_without config call.clock file call.op.name stream
  refine .intro (fun hop => ?_) (fun name hop => ?_) fun hop => step_expired config hop hlookup hexpired
  · suffices hsame : step config .none call file =
        step config .none call (file.without call.op.name stream) by rw [hsame]; exact ⟨rfl, fun _ => rfl⟩
    obtain ⟨clock, op⟩ := call
    cases op with
    | createStream name streamConfig =>
        dsimp only [Op.name] at hclaim hwithout ⊢
        simp only [step, createStream, hclaim, hwithout]
    | createStreamWithData name streamConfig messages shouldClose fits =>
        dsimp only [Op.name] at hclaim hwithout ⊢
        simp only [step, createStreamWithData, hclaim, hwithout]
    | _ => cases hop
  · rw [hop, Op.name] at hlookup
    simp [step, hop, existsStream, hlookup, hexpired]

end DurableStreams.File

namespace DurableStreams.Acid

open Lib

variable {config : Config} {storage : AcidStorage config} {name : String} {saved : StoredStreamMeta}

/-- A shard without a stream and its messages. -/
def Shard.without (shard : Shard) (name : String) : Shard :=
  ⟨shard.streams.erase name, shard.messages.discard (ofName name)⟩

/-- The storage without a stream, its messages and its bytes. -/
def AcidStorage.without (storage : AcidStorage config) (name : String) (saved : StoredStreamMeta) :
    AcidStorage config :=
  { storage.commit name ((storage.shard name).without name) with
    totalBytes := storage.totalBytes - saved.totalBytes }

/-- The streams, the messages and the counter are the same. -/
def SameData (left right : AcidStorage config) : Prop :=
  left.shards = right.shards ∧ left.totalBytes = right.totalBytes

/-- There is room for the bytes of a request while those of the expired stream are still counted. For a
create it is as good if there were none without them either. -/
def Room (call : Call) (storage : AcidStorage config) (saved : StoredStreamMeta) : Prop :=
  storage.totalBytes + payloadBytes call.op.messages ≤ config.limits.maxTotalBytes.toNat ∨
    call.op.config.isSome = true ∧ config.limits.maxTotalBytes.toNat <
      storage.totalBytes - saved.totalBytes + payloadBytes call.op.messages

instance (call : Call) (storage : AcidStorage config) (saved : StoredStreamMeta) :
    Decidable (Room call storage saved) := inferInstanceAs (Decidable (_ ∨ _))

/-- A create goes on with the shard without the expired stream. -/
theorem claim_expired {clock : Clock} (hfits : storage.Fits)
    (hlookup : (storage.shard name).streams.lookup name = some saved)
    (hexpired : isStreamExpired clock.expiry saved.config = true) :
    claimName clock name (storage.shard name) =
      .vacant ((storage.shard name).without name) saved.totalBytes := by
  have hrows := delete_stream_messages_eq name (hfits (shardIndex config name)).rows
  rw [claimName, hlookup, Shard.without]
  dsimp only
  rw [if_pos hexpired, Shard.removeStream]
  exact congrArg (fun table => Slot.vacant ⟨_, table⟩ _) hrows

/-- The shard of the reference storage. -/
theorem shard_without (storage : AcidStorage config) (name : String) (saved : StoredStreamMeta) :
    (storage.without name saved).shard name = (storage.shard name).without name :=
  Function.update_self ..

/-- A create goes on with it if the stream is not there. -/
theorem claim_without (clock : Clock) (storage : AcidStorage config) (name : String)
    (saved : StoredStreamMeta) :
    claimName clock name ((storage.without name saved).shard name) =
      .vacant ((storage.shard name).without name) 0 := by
  have hgone : ((storage.shard name).without name).streams.lookup name = none :=
    Finmap.lookup_erase ..
  rw [shard_without, claimName, hgone]

/-- An operation on an expired stream only reports the expiry, if its bytes can be reserved. -/
theorem step_expired {call : Call} (hop : Memory.onStream call.op = true)
    (hlookup : (storage.shard call.op.name).streams.lookup call.op.name = some saved)
    (hexpired : isStreamExpired call.clock.expiry saved.config = true)
    (hroom : storage.totalBytes + batchBytes call.op.messages ≤
      config.limits.maxTotalBytes.toNat) :
    step call storage = (call.op.failure .streamExpired, storage) := by
  have hback := Nat.add_sub_cancel storage.totalBytes (batchBytes call.op.messages)
  obtain ⟨clock, op⟩ := call
  dsimp only at hexpired
  cases op with
  | append name data contentType fits =>
      simp only [Op.messages, Memory.batch_bytes_singleton] at hroom hback
      simp only [Op.name] at hlookup
      simp [step, append, reserve_ok hroom, appendTxn, hlookup, hexpired, AcidStorage.subTotalBytes,
        hback, Op.failure]
  | batchAppend name messages contentType seq fits =>
      have hempty : messages.isEmpty = false := by simpa [Memory.onStream] using hop
      simp only [Op.messages] at hroom hback
      simp only [Op.name] at hlookup
      simp [step, batchAppend, hempty, reserve_ok hroom, batchAppendTxn, hlookup, hexpired,
        AcidStorage.subTotalBytes, hback, Op.failure]
  | appendWithProducer name messages contentType producer shouldClose seq fits =>
      simp only [Op.messages] at hroom hback
      simp only [Op.name] at hlookup
      simp [step, appendWithProducer, reserve_ok hroom, appendWithProducerTxn, hlookup, hexpired,
        AcidStorage.subTotalBytes, hback, Op.failure]
  | closeStream name =>
      simp only [Op.name] at hlookup
      simp [step, closeStream, closeTxn, hlookup, hexpired, Op.failure]
  | read name fromOffset =>
      simp only [Op.name] at hlookup
      simp [step, readTxn, hlookup, hexpired, Op.failure]
  | head name =>
      simp only [Op.name] at hlookup
      simp [step, headTxn, hlookup, hexpired, Op.failure]
  | subscribe name =>
      simp only [Op.name] at hlookup
      simp [step, subscribe, hlookup, hexpired, Op.failure]
  | createStream | delete | createStreamWithData | «exists» => simp [Memory.onStream] at hop

/-- Writing to a shard of the reference storage. -/
theorem commit_without (storage : AcidStorage config) (name : String) (saved : StoredStreamMeta)
    (shard : Shard) :
    ((storage.without name saved).commit name shard).shards = (storage.commit name shard).shards :=
  Function.update_idem ..

/-- `create_stream` does the same as without the expired stream. -/
theorem create_expired {clock : Clock} (streamConfig : StreamConfig) (hfits : storage.Fits)
    (hlookup : (storage.shard name).streams.lookup name = some saved)
    (hexpired : isStreamExpired clock.expiry saved.config = true) :
    let result := createStream clock storage name streamConfig
    let reference := createStream clock (storage.without name saved) name streamConfig
    result.1 = reference.1 ∧ SameData result.2 reference.2 := by
  simp only [createStream, claim_expired hfits hlookup hexpired, claim_without]
  refine ⟨trivial, ?_, ?_⟩
  · rw [(release_expired_shards ..).1, (release_expired_shards ..).1, commit_without]
  · rw [(release_expired_shards ..).2, (release_expired_shards ..).2]
    rfl

/-- So does `create_stream_with_data`, if its bytes can be reserved before the others are given back.
When it fails the expired stream is still there. -/
theorem create_with_data_expired {clock : Clock} (streamConfig : StreamConfig) {messages : List Bytes}
    (shouldClose : Bool) (fits : payloadBytes messages < 2 ^ 64) (hfits : storage.Fits)
    (hcounted : storage.Counted)
    (hlookup : (storage.shard name).streams.lookup name = some saved)
    (hexpired : isStreamExpired clock.expiry saved.config = true)
    (hroom : storage.totalBytes + payloadBytes messages ≤ config.limits.maxTotalBytes.toNat) :
    let result := createStreamWithData clock storage name streamConfig messages shouldClose
    let reference :=
      createStreamWithData clock (storage.without name saved) name streamConfig messages shouldClose
    result.1 = reference.1 ∧ (∀ value, result.1 = .ok value → SameData result.2 reference.2) := by
  have hle := hcounted.stream_le hlookup
  have htotal : (storage.without name saved).totalBytes = storage.totalBytes - saved.totalBytes := rfl
  have hreserve (total : Nat)
      (h : total + payloadBytes messages ≤ config.limits.maxTotalBytes.toNat) :
      (if 0 < payloadBytes messages then
        reserveTotalBytes config.limits total (payloadBytes messages) else .ok total) =
        .ok (total + payloadBytes messages) := by
    split
    · exact reserve_ok h
    · next hzero => rw [Nat.eq_zero_of_not_pos hzero, Nat.add_zero]
  simp only [createStreamWithData, claim_expired hfits hlookup hexpired, claim_without,
    batch_bytes_eq fits, hreserve _ hroom, htotal,
    hreserve (storage.totalBytes - saved.totalBytes) (by omega)]
  split
  · exact ⟨rfl, fun value hvalue => by cases hvalue⟩
  · refine ⟨rfl, fun value _ => ⟨?_, ?_⟩⟩
    · rw [(notified_shards ..).1, (notified_shards ..).1, (release_expired_shards ..).1,
        (release_expired_shards ..).1]
      exact (commit_without storage name saved _).symm
    · rw [(notified_shards ..).2, (notified_shards ..).2, (release_expired_shards ..).2,
        (release_expired_shards ..).2]
      dsimp only [AcidStorage.commit]
      omega

/-- If there is no room without the expired stream either, both are refused. -/
theorem create_with_data_full {clock : Clock} (streamConfig : StreamConfig) {messages : List Bytes}
    (shouldClose : Bool) (fits : payloadBytes messages < 2 ^ 64) (hfits : storage.Fits)
    (hcounted : storage.Counted)
    (hlookup : (storage.shard name).streams.lookup name = some saved)
    (hexpired : isStreamExpired clock.expiry saved.config = true)
    (hroom : config.limits.maxTotalBytes.toNat < storage.totalBytes + payloadBytes messages) :
    (createStreamWithData clock storage name streamConfig messages shouldClose).1 =
        .error .memoryLimitExceeded ∧
      ((createStreamWithData clock (storage.without name saved) name streamConfig messages
          shouldClose).1 = .error .memoryLimitExceeded ↔
        config.limits.maxTotalBytes.toNat <
          storage.totalBytes - saved.totalBytes + payloadBytes messages) := by
  have hlimit := hcounted.limit
  have hpos : 0 < payloadBytes messages := by omega
  have htotal : (storage.without name saved).totalBytes = storage.totalBytes - saved.totalBytes := rfl
  simp only [createStreamWithData, claim_expired hfits hlookup hexpired, claim_without,
    batch_bytes_eq fits, hpos, ↓reduceIte, reserve_refused hlimit hroom, htotal, true_and]
  by_cases hfull : config.limits.maxTotalBytes.toNat <
      storage.totalBytes - saved.totalBytes + payloadBytes messages
  · simp only [reserve_refused (by omega) hfull, hfull]
  · simp only [reserve_ok (Nat.not_lt.mp hfull), hfull, iff_false]
    split <;> simp

/-- The reply of a failed append shows the error. -/
theorem failure_inj {op : Op} {error error' : Error} (hmessages : op.messages ≠ [])
    (h : op.failure error = op.failure error') : error = error' := by
  cases op with
  | append | batchAppend | appendWithProducer | createStreamWithData =>
      simpa [Op.failure] using h
  | _ => exact absurd rfl hmessages

/-- A create that has not failed. -/
theorem created_of_not_failed {result : Result CreateWithDataResult}
    (h : (Reply.createdWithData result).failed = false) : ∃ value, result = .ok value := by
  cases result with
  | ok value => exact ⟨value, rfl⟩
  | error error => cases h

/-- Expired streams are invisible exactly to the requests that there is room for. -/
theorem expired_invisible_iff {call : Call} (hfits : storage.Fits) (hcounted : storage.Counted)
    (hlookup : (storage.shard call.op.name).streams.lookup call.op.name = some saved)
    (hexpired : isStreamExpired call.clock.expiry saved.config = true) :
    Invisible SameData call.op storage (step call storage)
      (step call (storage.without call.op.name saved)) ↔ Room call storage saved := by
  have hlimit := hcounted.limit
  have hbytes := batch_bytes_eq call.op.payload_lt
  constructor
  · intro hinvisible
    by_contra hroom
    obtain ⟨hfull, hcreate⟩ := not_or.mp hroom
    -- Without room an operation on a stream reports the limit, not that the stream is missing.
    have hrefused (hop : Memory.onStream call.op = true) (hmessages : call.op.messages ≠ []) :
        ¬ NotThere call.op storage (step call storage) := by
      rintro ⟨error, hresult, hstatus⟩
      rw [step_no_room hop hlimit (by rw [hbytes]; omega)] at hresult
      obtain rfl := failure_inj hmessages (congrArg Prod.fst hresult)
      cases hstatus
    obtain ⟨clock, op⟩ := call
    cases op with
    | append name data contentType fits => exact hrefused rfl (by simp [Op.messages]) hinvisible
    | batchAppend name messages contentType seq fits =>
        by_cases hmessages : messages = []
        · subst hmessages
          exact hfull hlimit
        · exact hrefused (by simp [Memory.onStream, hmessages]) hmessages (hinvisible hmessages)
    | appendWithProducer name messages contentType producer shouldClose seq fits =>
        by_cases hmessages : messages = []
        · subst hmessages
          exact hfull hlimit
        · exact hrefused rfl hmessages hinvisible
    | createStreamWithData name streamConfig messages shouldClose fits =>
        obtain ⟨hactual, hreference⟩ := create_with_data_full streamConfig shouldClose fits hfits
          hcounted hlookup hexpired (Nat.not_le.mp hfull)
        refine hcreate ⟨rfl, hreference.mp ?_⟩
        rw [← hactual]
        exact (Reply.createdWithData.inj hinvisible.1).symm
    | createStream | read | head | closeStream | «exists» | subscribe | delete =>
        exact hfull hlimit
  · intro hroom
    refine .intro (fun hop => ?_) (fun name hop => ?_) fun hop => ?_
    · obtain ⟨clock, op⟩ := call
      cases op with
      | createStream name streamConfig =>
          obtain ⟨hreply, hsame⟩ := create_expired streamConfig hfits hlookup hexpired
          exact ⟨congrArg Reply.created hreply, fun _ => hsame⟩
      | createStreamWithData name streamConfig messages shouldClose fits =>
          obtain hroom | ⟨-, hfull⟩ := hroom
          · obtain ⟨hreply, hsame⟩ := create_with_data_expired streamConfig shouldClose fits hfits
              hcounted hlookup hexpired hroom
            refine ⟨congrArg Reply.createdWithData hreply, fun hok => ?_⟩
            obtain ⟨value, hvalue⟩ := created_of_not_failed hok
            exact hsame value hvalue
          · dsimp only [Op.messages] at hfull
            obtain ⟨hactual, hreference⟩ := create_with_data_full streamConfig shouldClose fits hfits
              hcounted hlookup hexpired (hfull.trans_le (by omega))
            refine ⟨congrArg Reply.createdWithData (hactual.trans (hreference.mpr hfull).symm),
              fun hok => ?_⟩
            obtain ⟨value, hvalue⟩ := created_of_not_failed hok
            cases hactual.symm.trans hvalue
      | _ => cases hop
    · rw [hop, Op.name] at hlookup
      simp [step, hop, existsStream, hlookup, hexpired]
    · refine step_expired hop hlookup hexpired ?_
      rw [hbytes]
      refine hroom.resolve_right fun hcreate => ?_
      rw [Memory.on_stream_config hop] at hcreate
      cases hcreate.1

end DurableStreams.Acid

namespace DurableStreams

open Lib

/-- In the in-memory storage and in the file backend an expired stream is invisible to every call under
its name, in every possible state. In the transactional storage, after any calls and restarts, it is
invisible to a call exactly if there is room for its bytes, or if it is a create and there would be no
room without the expired stream either. -/
theorem expired_streams_are_invisible (limits : Limits) (fileConfig : File.Config)
    (acidConfig : Acid.Config) :
    (∀ (storage : Memory.InMemoryStorage) (call : Call) (stream : Memory.StreamEntry),
      storage.streams.lookup call.op.name = some stream →
      isStreamExpired call.clock.expiry stream.config = true →
      Invisible (· = ·) call.op storage (Memory.step limits call storage)
        (Memory.step limits call (storage.without call.op.name stream))) ∧
    (∀ (file : File.FileStorage) (call : Call) (stream : File.StreamEntry),
      File.Possible fileConfig file → file.streams.lookup call.op.name = some stream →
      isStreamExpired call.clock.expiry stream.config = true →
      Invisible (· = ·) call.op file (File.step fileConfig .none call file)
        (File.step fileConfig .none call (file.without call.op.name stream))) ∧
    (∀ (events : List Acid.Event) (call : Call) (saved : Acid.StoredStreamMeta),
      let storage := (exec Acid.Event.run events (.new acidConfig)).2
      (storage.shard call.op.name).streams.lookup call.op.name = some saved →
      isStreamExpired call.clock.expiry saved.config = true →
      (Invisible Acid.SameData call.op storage (Acid.step call storage)
        (Acid.step call (storage.without call.op.name saved)) ↔ Acid.Room call storage saved)) := by
  refine ⟨fun storage call stream hlookup hexpired => ?_,
    fun file call stream hpossible hlookup hexpired => ?_, ?_⟩
  · exact Memory.expired_invisible limits hlookup hexpired
  · exact File.expired_invisible fileConfig hpossible.named hlookup hexpired
  · intro events call saved storage hlookup hexpired
    obtain ⟨hfits, hcounted⟩ := Acid.reachable_fits_counted acidConfig events
    exact Acid.expired_invisible_iff hfits hcounted hlookup hexpired

/-- A stream that expires at time 5 and holds half of all bytes. -/
def expiringCall : Call :=
  ⟨.at 0, .createStreamWithData "s" ⟨"text/plain", none, some 5, false⟩ [List.replicate 50 0] false
    (by decide)⟩

/-- Another stream that holds the other half. -/
def fillingCall : Call :=
  ⟨.at 1, .createStreamWithData "t" .plain [List.replicate 50 1] false (by decide)⟩

/-- The stream is created again when it has expired. -/
def renewingCall : Call := ⟨.at 6, .createStreamWithData "s" .plain [[2]] false (Size.fits .one)⟩

/-- A client that does not know that it has expired appends to it. -/
def lateCall : Call := ⟨.at 6, .append "s" [2] "text/plain" (Size.fits .one)⟩

/-- The row of the stream. -/
def expiringRow : Acid.StoredStreamMeta :=
  ⟨⟨"text/plain", none, some 5, false⟩, false, 1, 50, 50, 0, none, ∅⟩

/-- A file backend with the limits of the transactional storage in the examples. -/
def halvedConfig : File.Config := ⟨⟨100, 50⟩, "streams", true⟩

/-- The expired stream is invisible to the create and to the append while there is room. -/
theorem expired_streams_are_invisible_room :
    (let storage := (Memory.step ⟨100, 50⟩ expiringCall .new).2
      ∃ stream, Invisible (· = ·) lateCall.op storage (Memory.step ⟨100, 50⟩ lateCall storage)
        (Memory.step ⟨100, 50⟩ lateCall (storage.without "s" stream))) ∧
    (let file := (File.step halvedConfig .none expiringCall .new).2
      ∃ stream, Invisible (· = ·) renewingCall.op file
        (File.step halvedConfig .none renewingCall file)
        (File.step halvedConfig .none renewingCall (file.without "s" stream))) ∧
    (let storage := (exec Acid.Event.run [.request expiringCall] (.new Acid.crowded)).2;
      Invisible Acid.SameData renewingCall.op storage (Acid.step renewingCall storage)
        (Acid.step renewingCall (storage.without "s" expiringRow))) := by
  obtain ⟨hmemory, hfile, hacid⟩ :=
    expired_streams_are_invisible ⟨100, 50⟩ halvedConfig Acid.crowded
  refine ⟨⟨_, hmemory _ lateCall _ (Option.some_get (by decide +kernel)).symm (by decide +kernel)⟩,
    ⟨_, hfile _ renewingCall _ (.attempt .new _ _) (Option.some_get (by decide +kernel)).symm
      (by decide +kernel)⟩, ?_⟩
  exact (hacid [.request expiringCall] renewingCall expiringRow (by decide +kernel)
    (by decide +kernel)).mpr (by decide +kernel)

/-- At the limit the transactional storage refuses to create the stream again, although the bytes of
the expired one would make room, and an append to it is refused for its bytes, not because the stream
is gone. -/
theorem expired_stream_fills_storage :
    let storage := (exec Acid.Event.run [.request expiringCall, .request fillingCall]
      (.new Acid.crowded)).2
    let reference := storage.without "s" expiringRow
    ((Acid.step renewingCall storage).1 = .createdWithData (.error .memoryLimitExceeded) ∧
      (Acid.step renewingCall reference).1 =
        .createdWithData (.ok ⟨.created, Offset.new 1 1, false⟩) ∧
      ¬ Invisible Acid.SameData renewingCall.op storage (Acid.step renewingCall storage)
        (Acid.step renewingCall reference)) ∧
    ((Acid.step lateCall storage).1 = .offset (.error .memoryLimitExceeded) ∧
      ¬ Invisible Acid.SameData lateCall.op storage (Acid.step lateCall storage)
        (Acid.step lateCall reference)) := by
  intro storage reference
  have hcreate : (Acid.step renewingCall storage).1 = .createdWithData (.error .memoryLimitExceeded) := by
    decide +kernel
  have hreference : (Acid.step renewingCall reference).1 =
      .createdWithData (.ok ⟨.created, Offset.new 1 1, false⟩) := by decide +kernel
  have happend : (Acid.step lateCall storage).1 = .offset (.error .memoryLimitExceeded) := by
    decide +kernel
  refine ⟨⟨hcreate, hreference, fun hinvisible => ?_⟩, happend, ?_⟩
  · have hsame := hcreate.symm.trans (hinvisible.1.trans hreference)
    simp at hsame
  · rintro ⟨error, hresult, hstatus⟩
    have hsame : Reply.offset (.error .memoryLimitExceeded) = .offset (.error error) :=
      happend.symm.trans (congrArg Prod.fst hresult)
    obtain rfl := Except.error.inj (Reply.offset.inj hsame)
    cases hstatus

end DurableStreams
