import DurableStreams.Storage.Acid.Transactions
import DurableStreams.Storage.Subscribers
import Mathlib.Data.List.Perm.Basic

/-!
# Subscribers of the transactional storage

The channels are kept apart from the streams, and an operation sends after its transaction is
committed. So a subscriber may wait although the stream has changed, as long as the send is due.
Every transaction that moves the tail or closes the stream is followed by one.
-/

namespace DurableStreams.Acid

open Lib

variable {config : Config}

/-! ## Committing and sending -/

/-- The operations that work on a stream that is there, and send after their transaction. -/
def updates : Op → Bool
  | .append .. | .batchAppend .. | .appendWithProducer .. | .closeStream .. => true
  | _ => false

/-- Whether an operation sends, given its reply. -/
def sends : Op → Reply → Bool
  | .append .., .offset (.ok _) | .batchAppend .., .offset (.ok _) | .closeStream .., .done (.ok _) =>
      true
  | .appendWithProducer _ messages _ _ shouldClose _ _, .producer (.ok _) =>
      !messages.isEmpty || shouldClose
  | _, _ => false

/-- A storage with the streams on whose channels a send is due. -/
structure Server (config : Config) where
  storage : AcidStorage config
  due : List String

/-- Run an operation up to the commit of its transaction, if a send follows. Otherwise run it to its
end. -/
def Server.commit (call : Call) (server : Server config) : Server config :=
  let (reply, after) := step call server.storage
  if updates call.op then
    ⟨{ after with notifiers := server.storage.notifiers },
      if sends call.op reply then call.op.name :: server.due else server.due⟩
  else ⟨after, server.due⟩

/-- Make one of the sends that are due. -/
def Server.notify (index : Nat) (server : Server config) : Server config :=
  match server.due[index]? with
  | none => server
  | some name => ⟨server.storage.notifyStream name, server.due.eraseIdx index⟩

/-- The steps of the other clients. -/
inductive ServerEvent where
  | commit (call : Call)
  | notify (index : Nat)

/-- The storage after a step of another client. -/
def Server.run : ServerEvent → Server config → Server config
  | .commit call, server => server.commit call
  | .notify index, server => server.notify index

/-! ## What transactions change -/

section Changes

variable {storage : AcidStorage config} {name : String}

/-- What a transaction leaves of the tables of streams: nothing changes but the row of its stream. -/
def Touches (target : String) (storage : AcidStorage config)
    (shards : Fin config.shardCount → Shard) : Prop :=
  ∀ name, name ≠ target →
    (shards (shardIndex config name)).streams.lookup name = (storage.shard name).streams.lookup name

theorem Touches.refl (target : String) (storage : AcidStorage config) :
    Touches target storage storage.shards := fun _ _ => rfl

/-- A commit that keeps the other rows of the shard. -/
theorem Touches.commit {target : String} {shard : Shard}
    (h : ∀ name, name ≠ target →
      shard.streams.lookup name = (storage.shard target).streams.lookup name) :
    Touches target storage (storage.commit target shard).shards := by
  intro name hne
  simp only [AcidStorage.commit]
  by_cases hindex : shardIndex config name = shardIndex config target
  · rw [hindex, Function.update_self, h name hne, AcidStorage.shard, AcidStorage.shard, hindex]
  · rw [Function.update_of_ne hindex]
    rfl

theorem Touches.write {target : String} (state : StoredStreamMeta × OrderedTable MessageKey Bytes) :
    Touches target storage (storage.commit target ((storage.shard target).write target state)).shards :=
  .commit fun name hne => by rw [Shard.write, FiniteMap.lookup_insert_ite, if_neg hne]

/-- Send on the channel of the stream if the operation does. -/
def announced (op : Op) (reply : Reply) (storage : AcidStorage config) : AcidStorage config :=
  if sends op reply then storage.notifyStream op.name else storage

/-- What an operation on a stream comes to: nothing is committed, or a row is written, with the
messages that the reply reports, that shows the same or is announced. -/
inductive Updated (call : Call) (storage : AcidStorage config) : Prop
  | nothing (total : Nat)
      (hstep : (step call storage).2 =
        announced call.op (step call storage).1 { storage with totalBytes := total })
      (hquiet : (step call storage).1.appended = false)
      (hfailed : (step call storage).1.failed = true → (step call storage).2 = storage)
  | row (total : Nat) (saved written : StoredStreamMeta) (table : OrderedTable MessageKey Bytes)
      (hlookup : (storage.shard call.op.name).streams.lookup call.op.name = some saved)
      (hstep : (step call storage).2 = announced call.op (step call storage).1
        (AcidStorage.commit { storage with totalBytes := total } call.op.name
          ((storage.shard call.op.name).write call.op.name (written, table))))
      (htold : sends call.op (step call storage).1 = true ∨
        (written.nextOffset = saved.nextOffset ∧ written.closed = saved.closed))
      (hrow : WrittenRow call.op.name (call.added (step call storage).1) saved
        (storage.shard call.op.name).messages written table)
      (hwrites : (step call storage).1.writes = true)
      (hseq : ∃ pending, validateSeq saved.lastSeq call.op.seq = .ok pending ∧
        written.lastSeq = pending.or saved.lastSeq ∧
        ((step call storage).1.appended = true ∨ call.op.seq = none))

/-- An operation that commits a row and sends. -/
theorem Updated.committed {call : Call} {reply : Reply} {total : Nat} {shard : Shard}
    (hwritten : WrittenSeq call.op.seq call.op.name (call.added reply) (storage.shard call.op.name)
      shard)
    (hstep : step call storage = (reply, AcidStorage.notifyStream
      (AcidStorage.commit { storage with totalBytes := total } call.op.name shard) call.op.name))
    (hsends : sends call.op reply = true) (hwrites : reply.writes = true)
    (happended : reply.appended = true ∨ call.op.seq = none) : Updated call storage := by
  obtain ⟨saved, written, table, pending, hlookup, hrow, hseq, hlast, rfl⟩ := hwritten
  refine .row total saved written table hlookup ?_ (.inl (by rw [hstep]; exact hsends))
    (by rwa [hstep]) (by rwa [hstep]) ⟨pending, hseq, hlast, by rwa [hstep]⟩
  rw [announced, hstep, if_pos hsends]

/-- An operation that changes nothing. -/
theorem Updated.refused {call : Call} {reply : Reply} (hstep : step call storage = (reply, storage))
    (hsends : sends call.op reply = false) (hquiet : reply.appended = false) :
    Updated call storage := by
  refine .nothing storage.totalBytes ?_ (by rwa [hstep]) fun _ => by rw [hstep]
  rw [announced, hstep, if_neg (by rw [hsends]; decide)]

/-- A request of a producer without messages that does not close the stream shows nothing new. -/
theorem producer_txn_quiet {limits : Limits} {clock : Clock} {contentType : String}
    {producer : ProducerHeaders} {seq : Option String} {shard after : Shard}
    {result : ProducerAppendResult}
    (h : appendWithProducerTxn limits clock name [] contentType producer false seq shard =
      .ok (result, some after)) :
    ∃ saved written table pending, shard.streams.lookup name = some saved ∧
      after = shard.write name (written, table) ∧ validateSeq saved.lastSeq seq = .ok pending ∧
      (written.nextOffset = saved.nextOffset ∧ written.closed = saved.closed) ∧
      WrittenRow name [] saved shard.messages written table ∧
      written.lastSeq = pending.or saved.lastSeq := by
  obtain ⟨hnone, -⟩ | ⟨-, saved, pending, hlookup, hseq, hafter⟩ := producer_txn_ok h
  · cases hnone
  refine ⟨saved, _, _, pending, hlookup, Option.some.inj hafter, hseq, ?_⟩
  cases pending <;> exact ⟨⟨rfl, rfl⟩, ⟨⟨rfl, rfl, rfl, rfl⟩, rfl⟩, rfl⟩

/-- Every operation on a stream is one of these. -/
theorem step_updated (call : Call) (storage : AcidStorage config) (h : updates call.op = true) :
    Updated call storage := by
  obtain ⟨clock, op⟩ := call
  cases op with
  | append name data contentType fits =>
      cases hreserve : reserveTotalBytes config.limits storage.totalBytes (byteLen data) with
      | error error =>
          exact .refused (by simp only [step, append, hreserve]; rfl) rfl rfl
      | ok reserved =>
          cases htxn : appendTxn config.limits clock name data contentType (storage.shard name) with
          | error error =>
              exact .refused (by
                simp only [step, append, hreserve, shard_with_total, htxn]
                exact congrArg (Prod.mk _) (reserved_back hreserve)) rfl rfl
          | ok result =>
              refine .committed ?_
                (by simp only [step, append, hreserve, shard_with_total, htxn]; rfl) rfl rfl (.inr rfl)
              exact append_txn_written htxn
  | batchAppend name messages contentType seq fits =>
      by_cases hmessages : messages.isEmpty
      · exact .refused (by simp only [step, batchAppend, hmessages, ↓reduceIte]; rfl) rfl rfl
      cases hreserve : reserveTotalBytes config.limits storage.totalBytes (batchBytes messages) with
      | error error =>
          exact .refused (by simp only [step, batchAppend, hmessages, hreserve]; rfl) rfl rfl
      | ok reserved =>
          cases htxn : batchAppendTxn config.limits clock name messages contentType seq
              (storage.shard name) with
          | error error =>
              exact .refused (by
                simp only [step, batchAppend, hmessages, hreserve, shard_with_total, htxn]
                exact congrArg (Prod.mk _) (reserved_back hreserve)) rfl rfl
          | ok result =>
              refine .committed ?_ (by
                simp only [step, batchAppend, hmessages, hreserve, shard_with_total, htxn]; rfl) rfl
                rfl (.inl rfl)
              exact batch_append_txn_written htxn
  | appendWithProducer name messages contentType producer shouldClose seq fits =>
      cases hreserve : reserveTotalBytes config.limits storage.totalBytes (batchBytes messages) with
      | error error => exact .refused (by simp only [step, appendWithProducer, hreserve]; rfl) rfl rfl
      | ok reserved =>
          cases htxn : appendWithProducerTxn config.limits clock name messages contentType producer
              shouldClose seq (storage.shard name) with
          | error error =>
              exact .refused (by
                simp only [step, appendWithProducer, hreserve, shard_with_total, htxn]
                exact congrArg (Prod.mk _) (reserved_back hreserve)) rfl rfl
          | ok result =>
              obtain ⟨result, _ | shard⟩ := result
              · refine .nothing (reserved - batchBytes messages) ?_ ?_ ?_ <;>
                  simp only [step, appendWithProducer, hreserve, shard_with_total, htxn]
                · rfl
                · exact producer_txn_none htxn
                · exact fun hfailed => by cases hfailed
              · have hstep : step ⟨clock, .appendWithProducer name messages contentType producer
                    shouldClose seq fits⟩ storage = (.producer (.ok result),
                      if !messages.isEmpty || shouldClose then
                        (AcidStorage.commit { storage with totalBytes := reserved } name
                          shard).notifyStream name
                      else AcidStorage.commit { storage with totalBytes := reserved } name shard) := by
                  simp only [step, appendWithProducer, hreserve, shard_with_total, htxn]
                  rfl
                have hadded : Call.added ⟨clock, .appendWithProducer name messages contentType
                    producer shouldClose seq fits⟩ (.producer (.ok result)) = messages :=
                  if_pos (producer_txn_some htxn).1
                obtain ⟨happended, hwrites⟩ := producer_txn_some htxn
                cases hsends : !messages.isEmpty || shouldClose with
                | true =>
                    rw [hsends] at hstep
                    exact .committed (hadded.symm ▸ producer_txn_written htxn) hstep hsends hwrites
                      (.inl happended)
                | false =>
                    simp only [Bool.or_eq_false_iff, Bool.not_eq_false', List.isEmpty_iff] at hsends
                    obtain ⟨rfl, rfl⟩ := hsends
                    obtain ⟨saved, written, table, pending, hlookup, rfl, hseq, hsame, hrow, hlast⟩ :=
                      producer_txn_quiet htxn
                    refine .row reserved saved written table hlookup ?_ (.inr hsame)
                      (by rwa [hstep, hadded]) (by rwa [hstep])
                      ⟨pending, hseq, hlast, .inl (by rwa [hstep])⟩
                    rw [announced, hstep]
                    rfl
  | closeStream name =>
      cases htxn : closeTxn clock name (storage.shard name) with
      | error error => exact .refused (by simp only [step, closeStream, htxn]; rfl) rfl rfl
      | ok shard =>
          refine .committed ?_ (by simp only [step, closeStream, htxn]; rfl) rfl rfl (.inr rfl)
          exact close_txn_written htxn
  | _ => cases h

/-- Sending changes the channels only. -/
theorem announced_eq (op : Op) (reply : Reply) (storage : AcidStorage config) :
    ({ announced op reply storage with notifiers := storage.notifiers } : AcidStorage config) =
      storage := by
  unfold announced AcidStorage.notifyStream
  split
  · cases storage.notifiers.lookup op.name <;> rfl
  · rfl

theorem announced_shards (op : Op) (reply : Reply) (storage : AcidStorage config) :
    (announced op reply storage).shards = storage.shards := by
  unfold announced
  split
  · exact (notify_stream_shards storage op.name).1
  · rfl

/-- An operation on a stream leaves every stream there. It sends if it shows something new. -/
theorem update_lookup {call : Call} {saved : StoredStreamMeta} (hupdates : updates call.op = true)
    (hlookup : (storage.shard name).streams.lookup name = some saved) :
    ∃ written, ((step call storage).2.shard name).streams.lookup name = some written ∧
      ((written.nextOffset = saved.nextOffset ∧ written.closed = saved.closed) ∨
        call.op.name = name ∧ sends call.op (step call storage).1 = true) := by
  rw [AcidStorage.shard]
  cases step_updated call storage hupdates with
  | nothing total hstep _ _ =>
      rw [hstep, announced_shards]
      exact ⟨saved, hlookup, .inl ⟨rfl, rfl⟩⟩
  | row total found written table hfound hstep htold _ _ _ =>
      have hshards : (step call storage).2.shards = (storage.commit call.op.name
          ((storage.shard call.op.name).write call.op.name (written, table))).shards := by
        rw [hstep, announced_shards]
        rfl
      by_cases hname : call.op.name = name
      · subst hname
        refine ⟨written, ?_, ?_⟩
        · simp only [hshards, AcidStorage.commit, Function.update_self, Shard.write,
            Finmap.lookup_insert]
        · obtain rfl := Option.some.inj (hfound.symm.trans hlookup)
          exact htold.symm.imp_right fun hsends => ⟨rfl, hsends⟩
      · refine ⟨saved, ?_, .inl ⟨rfl, rfl⟩⟩
        rw [hshards, Touches.write _ name fun h => hname h.symm, hlookup]

/-- An operation on a stream is its commit followed by its send. -/
theorem commit_notify {call : Call} (hupdates : updates call.op = true)
    (storage : AcidStorage config) (due : List String) :
    (if sends call.op (step call storage).1 then (Server.commit call ⟨storage, due⟩).notify 0
      else Server.commit call ⟨storage, due⟩) = ⟨(step call storage).2, due⟩ := by
  obtain ⟨base, hstep, hbase⟩ : ∃ base : AcidStorage config,
      (step call storage).2 = announced call.op (step call storage).1 base ∧
        base.notifiers = storage.notifiers := by
    cases step_updated call storage hupdates with
    | nothing total hstep _ _ => exact ⟨_, hstep, rfl⟩
    | row total saved written table hlookup hstep htold _ _ _ => exact ⟨_, hstep, rfl⟩
  have hcommitted : ({ (step call storage).2 with notifiers := storage.notifiers } :
      AcidStorage config) = base := by
    rw [hstep, ← hbase]
    exact announced_eq ..
  simp only [Server.commit, hupdates, ↓reduceIte, hcommitted]
  cases hsends : sends call.op (step call storage).1 with
  | true =>
      rw [announced, hsends] at hstep
      simpa [Server.notify] using hstep.symm
  | false =>
      rw [announced, hsends] at hstep
      simpa using hstep.symm

/-- A send is counted on its channel. -/
theorem notify_lookup {sent : Nat} (target : String)
    (hopen : storage.notifiers.lookup name = some sent) :
    (storage.notifyStream target).notifiers.lookup name =
      some (sent + if target = name then 1 else 0) := by
  unfold AcidStorage.notifyStream
  by_cases htarget : target = name
  · subst htarget
    simp [hopen]
  · rw [if_neg htarget, Nat.add_zero]
    cases hlookup : storage.notifiers.lookup target with
    | none => exact hopen
    | some count => exact (FiniteMap.lookup_insert_ite ..).trans ((if_neg (Ne.symm htarget)).trans hopen)

/-- A create that finds room writes nothing but the row of its stream. -/
theorem claim_vacant_touches {clock : Clock} {target : String} {shard : Shard} {removed : Nat}
    (hclaim : claimName clock target (storage.shard target) = .vacant shard removed)
    (state : StoredStreamMeta × OrderedTable MessageKey Bytes) :
    Touches target storage (storage.commit target (shard.write target state)).shards := by
  refine .commit fun other hne => ?_
  rw [Shard.write, FiniteMap.lookup_insert_ite, if_neg hne]
  unfold claimName at hclaim
  split at hclaim
  · cases hclaim
    rfl
  · split at hclaim
    · cases hclaim
      rw [Shard.removeStream, FiniteMap.lookup_erase_ite, if_neg hne]
    · cases hclaim

/-- A create that does not replace a stream finds room under another name only, and writes nothing
but its row. -/
theorem claim_touches {clock : Clock} {target : String} {saved : StoredStreamMeta} {shard : Shard}
    {removed : Nat} (hlookup : (storage.shard name).streams.lookup name = some saved)
    (hlive : target = name → isStreamExpired clock.expiry saved.config = false)
    (hclaim : claimName clock target (storage.shard target) = .vacant shard removed)
    (state : StoredStreamMeta × OrderedTable MessageKey Bytes) :
    target ≠ name ∧ Touches target storage (storage.commit target (shard.write target state)).shards := by
  refine ⟨?_, claim_vacant_touches hclaim state⟩
  rintro rfl
  simp [claimName, hlookup, hlive rfl] at hclaim

/-- Releasing the bytes of a stream closes no other channel. -/
theorem release_notifiers {target : String} (hne : target ≠ name) (removed : Nat) :
    (releaseExpired storage target removed).notifiers.lookup name =
      storage.notifiers.lookup name := by
  unfold releaseExpired
  split
  · exact (FiniteMap.lookup_erase_ite ..).trans (if_neg fun h => hne h.symm)
  · rfl

/-- Sends that are made only sometimes are not taken back. -/
theorem notified_lookup {sent : Nat} (notify : Bool) (target : String)
    (hopen : storage.notifiers.lookup name = some sent) :
    ∃ more ≥ sent, (if notify then storage.notifyStream target else storage).notifiers.lookup name =
      some more := by
  cases notify
  · exact ⟨sent, Nat.le_refl _, hopen⟩
  · exact ⟨_, Nat.le_add_right .., notify_lookup target hopen⟩

/-- The row of a new stream and the table with its batch. A batch without a byte is not written. -/
def newRow (call : Call) (streamConfig : StreamConfig) (table : OrderedTable MessageKey Bytes) :
    StoredStreamMeta × OrderedTable MessageKey Bytes :=
  insertMessages call.op.name (if 0 < batchBytes call.op.messages then call.op.messages else [])
    (.new call.clock.stamp streamConfig) table

/-- What a create comes to: the shards stay as they are, or the row of a new stream is written where
there is room. It closes no channel of another stream. -/
inductive Created (call : Call) (storage : AcidStorage config) (reply : Reply)
    (after : AcidStorage config) : Prop
  | nothing (hreply : reply.writes = false) (hshards : after.shards = storage.shards)
      (hopen : ∀ name sent, storage.notifiers.lookup name = some sent →
        ∃ more ≥ sent, after.notifiers.lookup name = some more)
      (hfailed : reply.failed = true → after = storage)
  | row {shard : Shard} {removed : Nat} {streamConfig : StreamConfig} (closed : Bool)
      (hclaim : claimName call.clock call.op.name (storage.shard call.op.name) =
        .vacant shard removed)
      (hconfig : call.op.config = some streamConfig) (hreply : reply.writes = true)
      (hshards : after.shards = (storage.commit call.op.name (shard.write call.op.name
        ((newRow call streamConfig shard.messages).1.closeIf closed,
          (newRow call streamConfig shard.messages).2))).shards)
      (hopen : ∀ name sent, call.op.name ≠ name → storage.notifiers.lookup name = some sent →
        ∃ more ≥ sent, after.notifiers.lookup name = some more)

/-- Every create is one of these. -/
theorem step_created (call : Call) (storage : AcidStorage config)
    (hcreate : call.op.config.isSome = true) :
    Created call storage (step call storage).1 (step call storage).2 := by
  have hsame {reply : Reply} (hreply : reply.writes = false) : Created call storage reply storage :=
    .nothing hreply rfl (fun _ sent hopen => ⟨sent, Nat.le_refl _, hopen⟩) fun _ => rfl
  obtain ⟨clock, op⟩ := call
  cases op with
  | createStream target streamConfig =>
      simp only [step, createStream]
      cases hclaim : claimName clock target (storage.shard target) with
      | occupied found => dsimp only; split <;> exact hsame rfl
      | vacant shard removed =>
          refine .row false hclaim rfl rfl (release_expired_shards ..).1 fun name sent hne hopen => ?_
          exact ⟨sent, Nat.le_refl _, (release_notifiers hne removed).trans hopen⟩
  | createStreamWithData target streamConfig messages shouldClose fits =>
      simp only [step, createStreamWithData]
      cases hclaim : claimName clock target (storage.shard target) with
      | occupied found =>
          dsimp only
          split
          · exact .nothing rfl (notified_shards ..).1 (fun _ _ => notified_lookup _ target)
              fun hfailed => by cases hfailed
          · exact hsame rfl
      | vacant shard removed =>
          dsimp only
          split
          · exact hsame rfl
          next reserved hreserve =>
          split
          · next hover =>
              rw [if_pos hover.1] at hreserve
              rw [reserved_back hreserve]
              exact hsame rfl
          have hrow : (if 0 < batchBytes messages then insertMessages target messages
                (.new clock.stamp streamConfig) shard.messages
              else (.new clock.stamp streamConfig, shard.messages)) =
              newRow ⟨clock, .createStreamWithData target streamConfig messages shouldClose fits⟩
                streamConfig shard.messages := by
            rw [newRow, apply_ite (insertMessages _ · _ _)]
            rfl
          rw [hrow]
          refine .row shouldClose hclaim rfl rfl ((notified_shards ..).1.trans
            (release_expired_shards ..).1) fun name sent hne hopen => ?_
          exact notified_lookup _ target ((release_notifiers hne removed).trans hopen)
  | _ => cases hcreate

/-- A stream that was deleted is gone. -/
theorem deleted_lookup (storage : AcidStorage config) (name : String) (bytes : Nat) :
    ((((storage.commit name ((storage.shard name).removeStream name)).subTotalBytes
      bytes).dropNotifier name).shard name).streams.lookup name = none := by
  have hshard : (storage.commit name ((storage.shard name).removeStream name)).shard name =
      (storage.shard name).removeStream name := Function.update_self ..
  have hlookup : ((storage.shard name).removeStream name).streams.lookup name = none :=
    Finmap.lookup_erase ..
  rwa [← hshard] at hlookup

/-- A call touches the row of its stream only. -/
theorem step_touches (call : Call) (storage : AcidStorage config) :
    Touches call.op.name storage (step call storage).2.shards := by
  cases hupdates : updates call.op with
  | true =>
      cases step_updated call storage hupdates with
      | nothing total hstep _ _ =>
          rw [hstep, announced_shards]
          exact .refl _ _
      | row total saved written table hlookup hstep htold _ _ _ =>
          rw [hstep, announced_shards]
          exact .write (written, table)
  | false =>
      by_cases hcreate : call.op.config.isSome = true
      · cases step_created call storage hcreate with
        | nothing _ hshards _ _ => exact hshards ▸ .refl _ _
        | row _ hclaim _ _ hshards _ => exact hshards ▸ claim_vacant_touches hclaim _
      obtain ⟨clock, op⟩ := call
      cases op with
      | createStream | createStreamWithData => exact absurd rfl hcreate
      | delete target =>
          simp only [step, delete]
          cases (storage.shard target).streams.lookup target with
          | none => exact .refl _ _
          | some found =>
              exact .commit fun other hother =>
                (FiniteMap.lookup_erase_ite ..).trans (if_neg hother)
      | subscribe target =>
          simp only [step, subscribe]
          repeat' split
          all_goals exact .refl _ _
      | read | head | «exists» => exact .refl _ _
      | append | batchAppend | appendWithProducer | closeStream => cases hupdates

/-- The other operations leave a stream that is neither deleted nor replaced as it is, and its channel
open. -/
theorem other_lookup {call : Call} {saved : StoredStreamMeta} {sent : Nat}
    (hupdates : updates call.op = false)
    (hlookup : (storage.shard name).streams.lookup name = some saved)
    (hopen : storage.notifiers.lookup name = some sent)
    (hkeeps : Memory.Keeps name saved.config call) :
    ((step call storage).2.shard name).streams.lookup name = some saved ∧
      ∃ more ≥ sent, (step call storage).2.notifiers.lookup name = some more := by
  have hsame : ∃ more ≥ sent, storage.notifiers.lookup name = some more :=
    ⟨sent, Nat.le_refl _, hopen⟩
  by_cases hcreate : call.op.config.isSome = true
  · cases step_created call storage hcreate with
    | nothing _ hshards hstays _ =>
        rw [AcidStorage.shard, hshards]
        exact ⟨hlookup, hstays name sent hopen⟩
    | row _ hclaim _ _ hshards hstays =>
        obtain ⟨hne, htouches⟩ := claim_touches hlookup (fun heq => (hkeeps heq).2 hcreate) hclaim _
        rw [AcidStorage.shard, hshards]
        exact ⟨(htouches name fun h => hne h.symm).trans hlookup, hstays name sent hne hopen⟩
  obtain ⟨clock, op⟩ := call
  cases op with
  | createStream | createStreamWithData => exact absurd rfl hcreate
  | delete target =>
      have hne : target ≠ name := fun heq => (hkeeps heq).1 (by rw [heq])
      simp only [step, delete]
      cases hfound : (storage.shard target).streams.lookup target with
      | none => exact ⟨hlookup, hsame⟩
      | some found =>
          refine ⟨?_, sent, Nat.le_refl _, ?_⟩
          · refine (Touches.commit (fun other hother => ?_) name fun h => hne h.symm).trans hlookup
            rw [Shard.removeStream, FiniteMap.lookup_erase_ite, if_neg hother]
          · exact (FiniteMap.lookup_erase_ite ..).trans ((if_neg fun h => hne h.symm).trans hopen)
  | subscribe target =>
      simp only [step, subscribe]
      split
      · exact ⟨hlookup, hsame⟩
      split
      · exact ⟨hlookup, hsame⟩
      split
      · exact ⟨hlookup, hsame⟩
      · next hclosed =>
          refine ⟨hlookup, sent, Nat.le_refl _, ?_⟩
          dsimp only [Prod.map, id]
          rw [FiniteMap.lookup_insert_ite, if_neg, hopen]
          rintro rfl
          simp [hclosed] at hopen
  | read | head | «exists» => exact ⟨hlookup, hsame⟩
  | append | batchAppend | appendWithProducer | closeStream => cases hupdates

end Changes

/-! ## The subscriber's side -/

/-- What a subscriber sees of a stream. -/
def board (name : String) : Board (Server config) (Option (Offset × Bool)) where
  view := fun server => ((server.storage.shard name).streams.lookup name).map fun saved =>
    (saved.nextOffset, saved.closed)
  sent := fun server => (server.storage.notifiers.lookup name).getD 0
  due := fun server => server.due.count name

/-- The stream is there and its channel is open. -/
def Listened (name : String) (server : Server config) : Prop :=
  (∃ saved, (server.storage.shard name).streams.lookup name = some saved) ∧
    ∃ sent, server.storage.notifiers.lookup name = some sent

/-- A step that leaves the stream there. -/
def ServerEvent.Keeps (name : String) (server : Server config) : ServerEvent → Prop
  | .commit call =>
      ∀ saved, (server.storage.shard name).streams.lookup name = some saved →
        Memory.Keeps name saved.config call
  | .notify _ => True

section Board

variable {name : String} {server : Server config}

/-- A commit keeps the channel of a stream that is there, and a send is due if it shows something
new. -/
theorem commit_board {call : Call} (hlistened : Listened name server)
    (hkeeps : (ServerEvent.commit call).Keeps name server) :
    Listened name (server.commit call) ∧ (board name).Advances server (server.commit call) ∧
      (board name).Announces server (server.commit call) := by
  obtain ⟨⟨saved, hlookup⟩, sent, hopen⟩ := hlistened
  cases hupdates : updates call.op with
  | true =>
      obtain ⟨written, hwritten, htold⟩ := update_lookup hupdates hlookup
      simp only [Server.commit, hupdates, ↓reduceIte]
      refine ⟨⟨⟨written, hwritten⟩, sent, hopen⟩, ⟨Nat.le_refl _, ?_⟩, ?_⟩
      · refine Nat.add_le_add_left ?_ _
        simp only [board]
        split
        · exact List.count_le_count_cons
        · exact Nat.le_refl _
      · rcases htold with ⟨hoffset, hclosed⟩ | ⟨rfl, hsends⟩
        · refine .inl ?_
          simp only [board, hlookup, Option.map_some, ← hoffset, ← hclosed]
          rw [AcidStorage.shard] at hwritten ⊢
          rw [hwritten, Option.map_some]
        · refine .inr (Nat.add_lt_add_left ?_ _)
          simp [board, hsends]
  | false =>
      obtain ⟨hafter, more, hmore, hsent⟩ :=
        other_lookup hupdates hlookup hopen (hkeeps saved hlookup)
      simp only [Server.commit, hupdates, Bool.false_eq_true, ↓reduceIte]
      refine ⟨⟨⟨saved, hafter⟩, more, hsent⟩, ⟨?_, ?_⟩, .inl ?_⟩
      · simpa [board, hopen, hsent] using hmore
      · simpa [board, hopen, hsent] using hmore
      · simp [board, hafter, hlookup]

/-- A send that is due and is made. -/
theorem notify_board (index : Nat) (hlistened : Listened name server) :
    Listened name (server.notify index) ∧ (board name).Advances server (server.notify index) ∧
      (board name).Announces server (server.notify index) := by
  obtain ⟨⟨saved, hlookup⟩, sent, hopen⟩ := hlistened
  unfold Server.notify
  cases hdue : server.due[index]? with
  | none => exact ⟨⟨⟨saved, hlookup⟩, sent, hopen⟩, .refl server, .inl rfl⟩
  | some target =>
      obtain ⟨hindex, rfl⟩ := List.getElem?_eq_some_iff.mp hdue
      have hcount := (List.getElem_cons_eraseIdx_perm hindex).count_eq name
      have hshards := (notify_stream_shards server.storage server.due[index]).1
      have hafter : ((server.storage.notifyStream server.due[index]).shard name).streams.lookup name =
          some saved := by
        rw [AcidStorage.shard, hshards]
        exact hlookup
      have hsent := notify_lookup server.due[index] hopen
      rw [List.count_cons] at hcount
      simp only [beq_iff_eq] at hcount
      refine ⟨⟨⟨saved, hafter⟩, _, hsent⟩, ⟨?_, ?_⟩, .inl ?_⟩
      · simp [board, hopen, hsent]
      · simp only [board, hopen, hsent, Option.getD_some]
        omega
      · simp [board, hafter, hlookup]

/-- The receiver of a subscriber has seen what was sent so far. -/
theorem subscribe_board {clock : Clock} {storage after : AcidStorage config} {receiver : Receiver}
    (h : step ⟨clock, .subscribe name⟩ storage = (.receiver (some receiver), after)) :
    (∃ saved, (after.shard name).streams.lookup name = some saved) ∧
      after.notifiers.lookup name = some receiver.seen := by
  simp only [step, subscribe] at h
  cases hlookup : (storage.shard name).streams.lookup name with
  | none => simp [hlookup] at h
  | some saved =>
      simp only [hlookup] at h
      split at h
      · simp at h
      split at h
      · next sent hopen =>
          cases h
          exact ⟨⟨saved, hlookup⟩, hopen⟩
      · cases h
        exact ⟨⟨saved, hlookup⟩, Finmap.lookup_insert _⟩

/-- A read returns the tail offset and the closed flag. -/
theorem read_board {clock : Clock} {storage after : AcidStorage config} {offset : Offset}
    {result : ReadResult}
    (h : step ⟨clock, .read name offset⟩ storage = (.read (.ok result), after)) :
    after = storage ∧ ∃ saved, (storage.shard name).streams.lookup name = some saved ∧
      saved.nextOffset = result.nextOffset ∧ saved.closed = result.closed := by
  simp only [step, Prod.mk.injEq, Reply.read.injEq] at h
  obtain ⟨hread, rfl⟩ := h
  refine ⟨rfl, ?_⟩
  unfold readTxn at hread
  cases hlookup : (storage.shard name).streams.lookup name with
  | none => simp [hlookup] at hread
  | some saved =>
      simp only [hlookup] at hread
      refine ⟨saved, rfl, ?_⟩
      split at hread
      · cases hread
      split at hread
      · cases hread
        exact ⟨rfl, rfl⟩
      split at hread
      · cases hread
      · cases hread
        exact ⟨rfl, rfl⟩

/-- Every step keeps the channel of a stream that is there, and announces what it shows. -/
theorem run_board {event : ServerEvent} (hlistened : Listened name server)
    (hkeeps : event.Keeps name server) :
    Listened name (server.run event) ∧ (board name).Advances server (server.run event) ∧
      (board name).Announces server (server.run event) := by
  cases event with
  | commit call => exact commit_board hlistened hkeeps
  | notify index => exact notify_board index hlistened

end Board

/-- The transactional storage as a subscriber uses it. The commit of an operation and its send are
separate steps. -/
def backend (config : Config) : Backend (Server config) ServerEvent where
  call := fun call server => (step call server.storage).map id fun after => ⟨after, server.due⟩
  other := fun event server => server.run event
  board := board
  Open := Listened
  Keeps := fun name event server => event.Keeps name server
  Heard := fun _ _ _ => True
  subscribe_opens := by
    intro clock name server receiver after hcall
    cases hstep : step ⟨clock, .subscribe name⟩ server.storage with
    | mk reply storage =>
        rw [hstep] at hcall
        cases hcall
        obtain ⟨hsaved, hsent⟩ := subscribe_board hstep
        exact ⟨⟨hsaved, _, hsent⟩, by simp [board, hsent]⟩
  read_views := by
    intro clock name offset server result after hcall
    cases hstep : step ⟨clock, .read name offset⟩ server.storage with
    | mk reply storage =>
        rw [hstep] at hcall
        cases hcall
        obtain ⟨rfl, saved, hlookup, hoffset, hclosed⟩ := read_board hstep
        exact ⟨rfl, by simp [board, hlookup, hoffset, hclosed]⟩
  other_advances := by
    intro name event server hlistened hkeeps
    obtain ⟨hstays, hadvances, -⟩ := run_board hlistened hkeeps
    exact ⟨hstays, hadvances⟩
  other_announces := by
    intro name event server hlistened hkeeps _
    exact (run_board hlistened hkeeps).2.2

end DurableStreams.Acid
