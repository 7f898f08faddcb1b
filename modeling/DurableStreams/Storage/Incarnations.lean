import DurableStreams.Storage.Sequences
import DurableStreams.Storage.File.Intact
import DurableStreams.Storage.Memory.Growth

/-!
# Incarnations of a stream

A name can belong to one stream after another: a stream is deleted or expires, and a create puts a new
one in its place. As long as no create does so (`Spares`), the stream under a name goes on as it was
or is gone (`Continues`). In each of the three backends it keeps its configuration, and its log is only
extended.
-/

namespace DurableStreams

open Lib

/-- The stream that is there afterwards is the one before, changed in a way that is allowed. -/
def Continues {τ : Type} (goesOn : τ → τ → Prop) (before after : Option τ) : Prop :=
  ∀ later, after = some later → ∃ earlier, before = some earlier ∧ goesOn earlier later

/-- A create that finds no stream under its name, or an expired one. -/
def Replaces (name : String) (call : Call) (found : Option StreamConfig) : Prop :=
  call.op.name = name ∧ call.op.config.isSome = true ∧
    ∀ config ∈ found, isStreamExpired call.clock.expiry config = true

instance (name : String) (call : Call) (found : Option StreamConfig) :
    Decidable (Replaces name call found) :=
  inferInstanceAs (Decidable (_ ∧ _ ∧ ∀ config ∈ found, isStreamExpired _ config = true))

/-- A storage as its clients use it. A choice settles the clock readings of a call, and which calls to
the file system or the database fail. -/
structure Store (σ κ : Type) where
  step : κ → Op → σ → Reply × σ
  clock : κ → Clock
  configOf : String → σ → Option StreamConfig

namespace Store

variable {σ κ : Type} (store : Store σ κ)

/-- Make a call. -/
def run (input : κ × Op) : σ → Reply × σ := store.step input.1 input.2

/-- The call does not put another stream in the place of the one under a name. A create that could do
so is refused and leaves none there. -/
def Spares (name : String) (input : κ × Op) (state : σ) : Prop :=
  Replaces name ⟨store.clock input.1, input.2⟩ (store.configOf name state) →
    store.configOf name (store.run input state).2 = none

instance (name : String) (input : κ × Op) (state : σ) : Decidable (store.Spares name input state) :=
  inferInstanceAs (Decidable (_ → _))

end Store

namespace Continues

variable {τ : Type} {goesOn : τ → τ → Prop} {before between after : Option τ}

theorem refl (hrefl : ∀ current, goesOn current current) (current : Option τ) :
    Continues goesOn current current := fun later h => ⟨later, h, hrefl later⟩

theorem gone (before : Option τ) : Continues goesOn before none := by simp [Continues]

/-- A stream that might be replaced and is gone then. -/
theorem or_gone {replaces : Prop} (hgone : replaces → after = none)
    (h : ¬ replaces → Continues goesOn before after) : Continues goesOn before after := by
  by_cases hreplaces : replaces
  · rw [hgone hreplaces]
    exact .gone _
  · exact h hreplaces

theorem trans (htrans : ∀ {first second third}, goesOn first second → goesOn second third →
    goesOn first third) (h : Continues goesOn before between) (h' : Continues goesOn between after) :
    Continues goesOn before after := by
  intro later hlater
  obtain ⟨middle, hmiddle, hlast⟩ := h' later hlater
  obtain ⟨earlier, hearlier, hfirst⟩ := h middle hmiddle
  exact ⟨earlier, hearlier, htrans hfirst hlast⟩

/-- A part of the stream that does not change. -/
theorem map_eq {ρ : Type} {part : τ → ρ} (h : Continues goesOn before after)
    (hpart : ∀ {first second}, goesOn first second → part second = part first) :
    Continues (· = ·) (before.map part) (after.map part) := by
  intro later hlater
  obtain ⟨current, hcurrent, rfl⟩ := Option.map_eq_some_iff.mp hlater
  obtain ⟨earlier, rfl, hgoes⟩ := h current hcurrent
  exact ⟨part earlier, rfl, (hpart hgoes).symm⟩

end Continues

/-- What one call that spares a stream allows, a run of such calls allows. -/
theorem Store.exec_continues {σ κ τ : Type} (store : Store σ κ) {name : String} (view : σ → Option τ)
    {goesOn : τ → τ → Prop} (Inv : σ → Prop) (hrefl : ∀ current, goesOn current current)
    (htrans : ∀ {first second third}, goesOn first second → goesOn second third →
      goesOn first third)
    (hinv : ∀ input state, Inv state → Inv (store.run input state).2)
    (hstep : ∀ input state, Inv state → store.Spares name input state →
      Continues goesOn (view state) (view (store.run input state).2))
    {inputs : List (κ × Op)} {state : σ} (h : Inv state)
    (hspares : Along store.run (store.Spares name) inputs state) :
    Continues goesOn (view state) (view (exec store.run inputs state).2) := by
  suffices hrun : Inv (exec store.run inputs state).2 ∧
      Continues goesOn (view state) (view (exec store.run inputs state).2) from hrun.2
  have hkeeps : ∀ input current, store.Spares name input current →
      (Inv current ∧ Continues goesOn (view state) (view current)) →
      Inv (store.run input current).2 ∧
        Continues goesOn (view state) (view (store.run input current).2) := by
    rintro input current hspared ⟨hcurrent, hcontinues⟩
    exact ⟨hinv input current hcurrent, hcontinues.trans htrans (hstep input current hcurrent hspared)⟩
  exact exec_invariant hkeeps hspares ⟨h, .refl hrefl _⟩

end DurableStreams

namespace DurableStreams.Memory

open Lib

/-- The configuration of the stream under a name. -/
def configOf (name : String) (storage : InMemoryStorage) : Option StreamConfig :=
  (storage.streams.lookup name).map StreamEntry.config

/-- A create that finds room would replace the stream. -/
theorem claim_name_replaces (call : Call) {storage free : InMemoryStorage}
    (hop : call.op.config.isSome = true)
    (hclaim : claimName call.clock storage call.op.name = .vacant free) :
    Replaces call.op.name call (configOf call.op.name storage) := by
  refine ⟨rfl, hop, fun config hconfig => ?_⟩
  obtain ⟨stream, hlookup, rfl⟩ := Option.map_eq_some_iff.mp hconfig
  rw [claimName, hlookup] at hclaim
  dsimp only at hclaim
  split at hclaim
  · assumption
  · cases hclaim

/-- Unless a call replaces the stream under a name, the stream grows or is gone. -/
theorem step_continues (limits : Limits) {call : Call} {storage : InMemoryStorage} {name : String}
    (h : ¬ Replaces name call (configOf name storage)) :
    Continues Grows (storage.streams.lookup name)
      ((step limits call storage).2.streams.lookup name) := by
  have hsame : Continues Grows (storage.streams.lookup name) (storage.streams.lookup name) :=
    .refl .refl _
  by_cases hname : call.op.name = name
  swap
  · rwa [step_others limits call storage hname]
  subst hname
  cases hop : onStream call.op with
  | true =>
      rw [step_of_stream_op limits storage hop]
      cases hlookup : storage.streams.lookup call.op.name with
      | none =>
          dsimp only
          rw [hlookup]
          exact .gone _
      | some stream =>
          dsimp only
          rw [Finmap.lookup_insert]
          rintro later ⟨⟩
          exact ⟨stream, rfl, (plan_grows call stream).run limits storage.totalBytes⟩
  | false =>
      have hwhole := step_whole limits storage hop
      generalize step limits call storage = result at hwhole ⊢
      cases hwhole with
      | unchanged _ => exact hsame
      | removed _ _ =>
          simp only [removeStream, Finmap.lookup_erase]
          exact .gone _
      | claimed hconfig hclaim _ => exact absurd (claim_name_replaces call hconfig hclaim) h
      | created hconfig hclaim _ _ => exact absurd (claim_name_replaces call hconfig hclaim) h

/-- The stream keeps its configuration or is gone. -/
theorem config_continues (limits : Limits) {call : Call} {storage : InMemoryStorage} {name : String}
    (h : ¬ Replaces name call (configOf name storage)) :
    Continues (· = ·) (configOf name storage) (configOf name (step limits call storage).2) :=
  (step_continues limits h).map_eq fun hgrows => hgrows.config

/-- The in-memory storage as a store. -/
def store (limits : Limits) : Store InMemoryStorage Clock where
  step clock op := step limits ⟨clock, op⟩
  clock := id
  configOf := configOf

/-- Over a run that does not replace the stream under a name, the stream grows or is gone. -/
theorem exec_continues {limits : Limits} {inputs : List (Clock × Op)} {storage : InMemoryStorage}
    {name : String} (hspares : Along (store limits).run ((store limits).Spares name) inputs storage) :
    Continues Grows (storage.streams.lookup name)
      ((exec (store limits).run inputs storage).2.streams.lookup name) :=
  (store limits).exec_continues (fun storage => storage.streams.lookup name) (fun _ => True)
    Grows.refl Grows.trans (fun _ _ _ => trivial)
    (fun _ _ _ hspared => .or_gone (fun hreplaces => Option.map_eq_none_iff.mp (hspared hreplaces))
      (step_continues limits)) trivial hspares

end DurableStreams.Memory

namespace DurableStreams.File

open Lib

/-- The configuration of the stream under a name. -/
def configOf (name : String) (file : FileStorage) : Option StreamConfig :=
  (file.streams.lookup name).map StreamEntry.config

/-- An entry whose counters are those of its index. -/
structure StreamEntry.Counted (stream : StreamEntry) : Prop where
  nextReadSeq : stream.nextReadSeq = wrap64 stream.index.length
  nextByteOffset : stream.nextByteOffset < 2 ^ 64

/-- What can become of an entry and of the log its messages are read from. -/
structure Grows (before after : StreamEntry × Bytes) : Prop where
  config : after.1.config = before.1.config
  dir : after.1.dir = before.1.dir
  index : before.1.index <+: after.1.index
  log : before.2 <+: after.2
  counted : before.1.Counted → after.1.Counted

namespace Grows

variable {first second third : StreamEntry × Bytes} {before after : StreamEntry} {log log' : Bytes}

theorem refl (current : StreamEntry × Bytes) : Grows current current :=
  ⟨rfl, rfl, List.prefix_rfl, List.prefix_rfl, id⟩

theorem trans (h : Grows first second) (h' : Grows second third) : Grows first third :=
  ⟨h'.config.trans h.config, h'.dir.trans h.dir, h.index.trans h'.index, h.log.trans h'.log,
    fun hcounted => h'.counted (h.counted hcounted)⟩

/-- Nothing is appended. -/
theorem same (h : SameIndex before after) (hlog : log <+: log') : Grows (before, log) (after, log') :=
  ⟨h.config, h.dir, h.index ▸ List.prefix_rfl, hlog, fun hcounted => ⟨by
    rw [h.nextReadSeq, h.index]
    exact hcounted.nextReadSeq, h.nextByteOffset ▸ hcounted.nextByteOffset⟩⟩

/-- One record is appended. -/
theorem push (stream : StreamEntry) (data log : Bytes) :
    Grows (stream, log) (stream.pushRecord data, log) :=
  ⟨rfl, rfl, List.prefix_append .., List.prefix_rfl, fun hcounted => ⟨by
    simp [StreamEntry.pushRecord, show stream.nextReadSeq = _ from hcounted.nextReadSeq, wrap64],
    Nat.mod_lt _ (by decide)⟩⟩

/-- A batch is appended. -/
theorem foldl_push (stream : StreamEntry) (messages : List Bytes) (log : Bytes) :
    Grows (stream, log) (messages.foldl StreamEntry.pushRecord stream, log) := by
  induction messages generalizing stream with
  | nil => exact .refl _
  | cons data messages ih => exact (push stream data log).trans (ih _)

/-- The log has more bytes. -/
theorem extend (h : Grows (before, log) (after, log)) (hlog : log <+: log') :
    Grows (before, log) (after, log') := ⟨h.config, h.dir, h.index, hlog, h.counted⟩

end Grows

section Sections

variable {config : Config} {faults : Faults} {name : String} {messages : List Bytes}

/-- Changes in a directory take nothing away from the log. -/
theorem prefix_run_log (actions : List DirAction) (found : Dir) :
    found.logBytes <+: (found.run actions).logBytes := by
  induction actions generalizing found with
  | nil => exact List.prefix_rfl
  | cons action actions ih =>
      refine List.IsPrefix.trans ?_ (ih (action.apply found))
      cases action with
      | appendLog bytes => exact List.prefix_append ..
      | openLog | writeTmp | renameMeta => exact List.prefix_rfl

/-- What `append_records` leaves of an entry. -/
theorem RecordsCase.grows {total : Nat} {stream : StreamEntry} {written : Outcome Unit}
    (h : RecordsCase total stream messages written) (log : Bytes) :
    Grows (stream, log) (written.stream, log) := by
  cases h with
  | quiet => exact .refl _
  | failed => exact ⟨rfl, rfl, List.prefix_rfl, List.prefix_rfl, fun h => ⟨h.1, h.2⟩⟩
  | written =>
      refine (Grows.foldl_push stream messages log).trans ?_
      exact ⟨rfl, rfl, List.prefix_rfl, List.prefix_rfl, fun h => ⟨h.1, h.2⟩⟩

/-- What an append leaves of an entry. -/
theorem AppendCase.grows {α : Type} {wrap : Result α → Reply} {outcome : Outcome α}
    {seq : Option String} {closes : Bool} {now : Timestamp} {total logLen : Nat}
    {stream : StreamEntry}
    (h : AppendCase config faults name messages seq closes now total logLen stream wrap outcome)
    (log : Bytes) :
    Grows (stream, log) (outcome.stream, log) := by
  cases h with
  | quiet hchecked => exact .same hchecked.sameIndex List.prefix_rfl
  | @failed checked _ _ hchecked =>
      exact (Grows.same hchecked.sameIndex List.prefix_rfl).trans
        ((append_records_outcome config faults name total logLen checked messages).grows log)
  | @stored checked _ _ _ _ hchecked _ _ hafter =>
      exact ((Grows.same hchecked.sameIndex List.prefix_rfl).trans
        ((append_records_outcome config faults name total logLen checked messages).grows log)).trans
        (.same hafter.index List.prefix_rfl)

/-- What closing leaves of an entry. -/
theorem close_section_grows (config : Config) (faults : Faults) (clock : Clock) (name : String)
    (total : Nat) (stream : StreamEntry) (log : Bytes) :
    Grows (stream, log) ((closeSection config faults clock name total stream).stream, log) := by
  unfold closeSection
  split
  · exact .refl _
  · dsimp only
    split <;> exact ⟨rfl, rfl, List.prefix_rfl, List.prefix_rfl, fun h => ⟨h.1, h.2⟩⟩

end Sections

section Steps

variable {config : Config} {faults : Faults} {file : FileStorage} {name : String}

/-- What changes in a directory take nothing away from its log. -/
theorem prefix_log_within (file : FileStorage) (dir : String) (actions : List DirAction) :
    file.log dir <+: (file.act dir actions).log dir := by
  simp only [FileStorage.log, FileStorage.act, lookup_within, ↓reduceIte]
  cases file.disk.lookup dir with
  | none => exact List.prefix_rfl
  | some found => exact prefix_run_log actions found

/-- A section that lets its entry grow lets the stream grow. -/
theorem with_stream_continues {α : Type} (body : Nat → Nat → StreamEntry → Outcome α)
    (hbody : ∀ total logLen stream log,
      Grows (stream, log) ((body total logLen stream).stream, log)) :
    Continues Grows (served file name) (served (withStream file name body).2 name) := by
  unfold withStream
  cases hlookup : file.streams.lookup name with
  | none => exact .refl .refl _
  | some stream =>
      intro later hlater
      simp only [served, Finmap.lookup_insert, Option.map_some, Option.some.injEq] at hlater
      obtain rfl := hlater
      have hgrows := hbody file.totalBytes (file.log stream.dir).length stream (file.log stream.dir)
      refine ⟨(stream, file.log stream.dir), by rw [served, hlookup, Option.map_some], ?_⟩
      rw [hgrows.dir]
      exact hgrows.extend (prefix_log_within file stream.dir _)

/-- A create that finds no live stream would replace it. -/
theorem claim_name_replaces {call : Call} (hop : call.op.config.isSome = true)
    (hclaim : ∀ stream, claimName config faults call.clock file call.op.name ≠ .occupied stream) :
    Replaces call.op.name call (configOf call.op.name file) := by
  refine ⟨rfl, hop, fun streamConfig hconfig => ?_⟩
  obtain ⟨stream, hlookup, rfl⟩ := Option.map_eq_some_iff.mp hconfig
  by_contra hlive
  refine hclaim stream ?_
  rw [claimName, hlookup]
  exact if_neg hlive

/-- Unless a call replaces the stream under its own name, the stream grows or is gone. -/
theorem own_step_continues (config : Config) (faults : Faults) {call : Call}
    (hkeeps : ¬ Replaces call.op.name call (configOf call.op.name file)) :
    Continues Grows (served file call.op.name)
      (served (step config faults call file).2 call.op.name) := by
  have hsame : Continues Grows (served file call.op.name) (served file call.op.name) :=
    .refl .refl _
  have hoccupied : call.op.config.isSome = true → ∃ stream,
      claimName config faults call.clock file call.op.name = .occupied stream := by
    intro hop
    by_contra hnone
    exact hkeeps (claim_name_replaces hop fun stream hclaim => hnone ⟨stream, hclaim⟩)
  cases hop : call.op.isAppend with
  | true =>
      obtain ⟨_, -, hstep⟩ | ⟨_, _, body, _, -, hcases, hstep⟩ := append_step config faults file hop
      · rw [hstep]
        exact hsame
      · rw [hstep]
        exact with_stream_continues body fun total logLen stream => (hcases total logLen stream).grows
  | false =>
  obtain ⟨clock, op⟩ := call
  cases op with
  | createStream target streamConfig =>
      obtain ⟨stream, hclaim⟩ := hoccupied rfl
      simp only [step, createStream, show claimName config faults clock file target = _ from hclaim]
      split <;> exact hsame
  | createStreamWithData target streamConfig messages shouldClose fits =>
      obtain ⟨stream, hclaim⟩ := hoccupied rfl
      simp only [step, createStreamWithData,
        show claimName config faults clock file target = _ from hclaim]
      split <;> exact hsame
  | append | batchAppend | appendWithProducer => cases hop
  | closeStream target =>
      exact with_stream_continues (fun total _ => closeSection config faults clock target total)
        fun total _ => close_section_grows config faults clock target total
  | delete target =>
      simp only [step, delete]
      cases hlookup : file.streams.lookup target with
      | none => exact hsame
      | some stream =>
          have hgone : served (removeStream config faults file target stream).2 target = none := by
            rw [served, remove_gone, Option.map_none]
          dsimp only [Prod.map, id, Op.name]
          rw [hgone]
          exact .gone _
  | read | head | «exists» | subscribe => exact hsame

/-- Unless a call replaces the stream under a name, the stream grows or is gone. -/
theorem step_continues (config : Config) (faults : Faults) {call : Call} (h : Named file)
    (hkeeps : ¬ Replaces name call (configOf name file)) :
    Continues Grows (served file name) (served (step config faults call file).2 name) := by
  by_cases hname : call.op.name = name
  · subst hname
    exact own_step_continues config faults hkeeps
  · have hlookup := step_others config faults call file hname
    have hlog : (step config faults call file).2.log (encodeName name) =
        file.log (encodeName name) := by
      rw [FileStorage.log, step_dir_others config faults h hname, FileStorage.log]
    have hserved : served (step config faults call file).2 name = served file name := by
      rw [served, served, hlookup]
      cases hentry : file.streams.lookup name with
      | none => rfl
      | some stream => simp only [Option.map_some, h.entries name stream hentry, hlog]
    rw [hserved]
    exact .refl .refl _

/-- The configuration is in the served entry. -/
theorem config_of_served (file : FileStorage) (name : String) :
    configOf name file = (served file name).map fun current => current.1.config := by
  rw [configOf, served, Option.map_map]
  rfl

/-- Unless a call replaces the stream under a name, the stream keeps its configuration or is gone. -/
theorem config_continues (config : Config) (faults : Faults) {call : Call}
    (hkeeps : ¬ Replaces name call (configOf name file)) :
    Continues (· = ·) (configOf name file) (configOf name (step config faults call file).2) := by
  by_cases hname : call.op.name = name
  · subst hname
    rw [config_of_served, config_of_served]
    exact (own_step_continues config faults hkeeps).map_eq fun hgrows => hgrows.config
  · rw [configOf, configOf, step_others config faults call file hname]
    exact .refl (fun _ => rfl) _

/-- A new entry is counted. -/
theorem create_counted {clock : Clock} {streamConfig : StreamConfig} {messages : List Bytes}
    {shouldClose : Bool}
    (h : ∀ stream, file.streams.lookup name = some stream → stream.Counted) :
    ∀ stream, (createStreamWithData config faults clock file name streamConfig messages
      shouldClose).2.streams.lookup name = some stream → stream.Counted := by
  intro stream hstream
  obtain ⟨hsame, -⟩ | hnone | ⟨total, logLen, fileLen, dir, -, -, -, hcreated⟩ :=
    create_cases config faults clock file name streamConfig messages shouldClose
  · exact h stream (hsame ▸ hstream)
  · cases hnone.symm.trans hstream
  · obtain rfl := Option.some.inj (hcreated.symm.trans hstream)
    have hnew : (StreamEntry.new clock.stamp streamConfig fileLen dir).Counted :=
      ⟨rfl, show 0 < 2 ^ 64 by decide⟩
    exact (((append_records_outcome config faults name total logLen _ messages).grows []).trans
      (.same (.closeIf shouldClose _) List.prefix_rfl)).counted hnew

/-- What holds of the entries of a storage after any calls. -/
structure Regular (file : FileStorage) : Prop where
  named : Named file
  counted : ∀ name stream, file.streams.lookup name = some stream → stream.Counted

/-- A call keeps it. -/
theorem Regular.step (h : Regular file) (config : Config) (faults : Faults) (call : Call) :
    Regular (step config faults call file).2 := by
  refine ⟨step_named config faults call h.named, fun name stream hstream => ?_⟩
  by_cases hname : call.op.name = name
  swap
  · rw [step_others config faults call file hname] at hstream
    exact h.counted name stream hstream
  subst hname
  by_cases hreplaces : Replaces call.op.name call (configOf call.op.name file)
  · obtain ⟨-, hop, -⟩ := hreplaces
    obtain ⟨clock, op⟩ := call
    cases op with
    | createStream target streamConfig =>
        simp only [File.step, create_stream_eq, Prod.map, id] at hstream
        exact create_counted (h.counted target) stream hstream
    | createStreamWithData target streamConfig messages shouldClose fits =>
        exact create_counted (h.counted target) stream hstream
    | append | batchAppend | appendWithProducer | closeStream | delete | read | head | «exists»
    | subscribe => cases hop
  · obtain ⟨earlier, hearlier, hgrows⟩ := step_continues config faults h.named hreplaces
      (stream, (File.step config faults call file).2.log stream.dir)
      (by rw [served, hstream, Option.map_some])
    obtain ⟨before, hbefore, rfl⟩ := Option.map_eq_some_iff.mp hearlier
    exact hgrows.counted (h.counted _ before hbefore)

end Steps

/-- The file backend as a store. Any calls to the file system may fail. -/
def store (config : Config) : Store FileStorage (Faults × Clock) where
  step choice op := step config choice.1 ⟨choice.2, op⟩
  clock := Prod.snd
  configOf := configOf

/-- Over a run that does not replace the stream under a name, the stream grows or is gone. -/
theorem exec_continues {config : Config} {inputs : List ((Faults × Clock) × Op)} {file : FileStorage}
    {name : String} (h : Regular file)
    (hspares : Along (store config).run ((store config).Spares name) inputs file) :
    Continues Grows (served file name) (served (exec (store config).run inputs file).2 name) :=
  (store config).exec_continues (fun file => served file name) Regular Grows.refl Grows.trans
    (fun input _ hregular => hregular.step config input.1.1 ⟨input.1.2, input.2⟩)
    (fun input _ hregular hspared => .or_gone
      (fun hreplaces => by rw [served, Option.map_eq_none_iff.mp (hspared hreplaces), Option.map_none])
      (step_continues config input.1.1 hregular.named)) h hspares

end DurableStreams.File

namespace DurableStreams.Acid

open Lib

variable {config : Config} {storage after : AcidStorage config} {name : String}

/-- The configuration of the stream under a name. -/
def configOf (name : String) (storage : AcidStorage config) : Option StreamConfig :=
  ((storage.shard name).streams.lookup name).map StoredStreamMeta.config

/-- It is kept in the shards. -/
theorem config_of_congr (h : after.shards = storage.shards) :
    configOf name after = configOf name storage := by
  simp only [configOf, AcidStorage.shard, h]

/-- Writing the row of a stream with its configuration. -/
theorem row_config {saved written : StoredStreamMeta} {table : OrderedTable MessageKey Bytes}
    (hlookup : (storage.shard name).streams.lookup name = some saved)
    (hshards : after.shards =
      (storage.commit name ((storage.shard name).write name (written, table))).shards)
    (hconfig : written.config = saved.config) : configOf name after = configOf name storage := by
  have hshard : after.shard name = (storage.shard name).write name (written, table) := by
    rw [AcidStorage.shard, hshards]
    exact Function.update_self ..
  rw [configOf, hshard, Shard.write, Finmap.lookup_insert, Option.map_some, hconfig, configOf,
    hlookup, Option.map_some]

/-- An operation on a stream keeps its configuration. -/
theorem update_config (call : Call) (storage : AcidStorage config)
    (hupdates : updates call.op = true) :
    configOf call.op.name (step call storage).2 = configOf call.op.name storage := by
  cases step_updated call storage hupdates with
  | nothing total hstep _ _ =>
      rw [hstep]
      exact config_of_congr (announced_shards ..)
  | row total saved written table hlookup hstep _ hrow _ _ =>
      have hshards : (step call storage).2.shards = (storage.commit call.op.name
          ((storage.shard call.op.name).write call.op.name (written, table))).shards := by
        rw [hstep, announced_shards]
        rfl
      exact row_config hlookup hshards (hrow.1.config.trans (insert_messages_keeps _ _ _ _).2)

/-- A create that finds room would replace the stream. -/
theorem claim_name_replaces (call : Call) {shard : Shard} {removed : Nat}
    (hop : call.op.config.isSome = true)
    (hclaim : claimName call.clock call.op.name (storage.shard call.op.name) =
      .vacant shard removed) :
    Replaces call.op.name call (configOf call.op.name storage) := by
  refine ⟨rfl, hop, fun streamConfig hconfig => ?_⟩
  obtain ⟨saved, hlookup, rfl⟩ := Option.map_eq_some_iff.mp hconfig
  rw [claimName, hlookup] at hclaim
  dsimp only at hclaim
  split at hclaim
  · assumption
  · cases hclaim

/-- Unless a call replaces the stream under a name, the stream keeps its configuration or is gone. -/
theorem step_continues {call : Call} (h : ¬ Replaces name call (configOf name storage)) :
    Continues (· = ·) (configOf name storage) (configOf name (step call storage).2) := by
  have hsame : Continues (· = ·) (configOf name storage) (configOf name storage) :=
    .refl (fun _ => rfl) _
  by_cases hname : call.op.name = name
  swap
  · have htouches := step_touches call storage name fun heq => hname heq.symm
    suffices hconfig : configOf name (step call storage).2 = configOf name storage by
      rwa [hconfig]
    rw [configOf, configOf, AcidStorage.shard, htouches]
  subst hname
  cases hupdates : updates call.op with
  | true => rwa [update_config call storage hupdates]
  | false =>
      by_cases hcreate : call.op.config.isSome = true
      · cases step_created call storage hcreate with
        | nothing _ hshards _ _ => rwa [config_of_congr hshards]
        | row _ hclaim _ _ _ _ => exact absurd (claim_name_replaces call hcreate hclaim) h
      obtain ⟨clock, op⟩ := call
      cases op with
      | createStream | createStreamWithData => exact absurd rfl hcreate
      | delete target =>
          simp only [step, delete]
          cases hlookup : (storage.shard target).streams.lookup target with
          | none => exact hsame
          | some found =>
              simp only [Prod.map, id, Op.name, configOf, deleted_lookup, Option.map_none]
              exact .gone _
      | subscribe target =>
          rw [show (step ⟨clock, .subscribe target⟩ storage).2 = (subscribe clock storage target).2
            from rfl, config_of_congr (subscribe_shards ..)]
          exact hsame
      | read | head | «exists» => exact hsame
      | append | batchAppend | appendWithProducer | closeStream => cases hupdates

/-- A call that the database aborts changes nothing. -/
theorem attempt_continues {error : Option Error} {call : Call}
    (h : ¬ Replaces name call (configOf name storage)) :
    Continues (· = ·) (configOf name storage) (configOf name (attempt (error, call) storage).2) := by
  cases error with
  | none => exact step_continues h
  | some error =>
      rw [attempt, abort_eq]
      exact .refl (fun _ => rfl) _

/-- The transactional storage as a store. The database may abort any call. -/
def store (config : Config) : Store (AcidStorage config) (Option Error × Clock) where
  step choice op := attempt (choice.1, ⟨choice.2, op⟩)
  clock := Prod.snd
  configOf := configOf

end DurableStreams.Acid
