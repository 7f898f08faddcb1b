import DurableStreams.Storage.Memory.Concurrent
import DurableStreams.Storage.Memory.Invariant

/-!
# Concurrent runs explained by serial ones

A concurrent run of the in-memory storage is explained by a history of the operations that have taken
effect, together with where in it every entry was taken out of the map. `Inv` relates the shared state
and the threads to the explanation. A step of a thread is either silent (`Inv.silent`) or the point at
which its operation takes effect, at the end of the history (`Inv.last`) or, for an operation that
still works on an entry that is no longer in the map, right before the entry was taken out
(`Inv.perform`). What the other threads rely on is kept in all three cases.
-/

namespace DurableStreams.Memory.Concurrent

open Lib

/-! ## Creating and replacing streams -/

section Creating

variable (limits : Limits) {call : Call} {create : Creation}

/-- What a create does once there is no entry of its name. -/
def Creation.settle (call : Call) (create : Creation) (storage : InMemoryStorage) :
    Reply × InMemoryStorage :=
  if create.messages.isEmpty then
    (create.reply (create.entry call.clock),
      ⟨storage.streams.insert call.op.name (create.entry call.clock), storage.totalBytes⟩)
  else
    match reserveTotalBytes limits storage.totalBytes (batchBytes create.messages) with
    | none => (create.refused .memoryLimitExceeded, storage)
    | some reserved =>
        if overStreamLimit limits create.messages (.new call.clock.stamp create.config) then
          (create.refused .streamSizeLimitExceeded,
            ⟨storage.streams, reserved - batchBytes create.messages⟩)
        else (create.reply (create.entry call.clock),
          ⟨storage.streams.insert call.op.name (create.entry call.clock), reserved⟩)

/-- The two creates as one. -/
theorem step_create (h : creation call.op = some create) (storage : InMemoryStorage) :
    step limits call storage =
      match storage.streams.lookup call.op.name with
      | none => create.settle limits call storage
      | some stream =>
          if isStreamExpired call.clock.expiry stream.config then
            create.settle limits call (removeStream storage call.op.name stream)
          else (create.existing stream, storage) := by
  obtain ⟨clock, op⟩ := call
  cases op with
  | createStream name config =>
      obtain rfl := Option.some.inj h
      simp only [step, createStream, claimName, Op.name]
      cases storage.streams.lookup name with
      | none => rfl
      | some stream =>
          dsimp only
          cases isStreamExpired clock.expiry stream.config with
          | true => rfl
          | false =>
              simp only [Bool.false_eq_true, if_false, Creation.empty]
              split <;> rfl
  | createStreamWithData name config messages shouldClose fits =>
      obtain rfl := Option.some.inj h
      have hsettle {free : InMemoryStorage} (hclaim : claimName clock storage name = .vacant free) :
          step limits ⟨clock, .createStreamWithData name config messages shouldClose fits⟩ storage =
            Creation.settle limits
              ⟨clock, .createStreamWithData name config messages shouldClose fits⟩
              (.withData config messages shouldClose) free := by
        simp only [step, createStreamWithData, hclaim, Creation.settle, Creation.entry,
          Creation.withData, commitMessages, Op.name]
        by_cases hempty : messages.isEmpty = true
        · simp only [hempty, if_true]
          rfl
        · simp only [hempty, Bool.false_eq_true, if_false, reserveAndCommit, overStreamLimit,
            decide_eq_true_eq]
          cases reserveTotalBytes limits free.totalBytes (batchBytes messages) with
          | none => rfl
          | some reserved =>
              dsimp only
              split_ifs <;> rfl
      simp only [Op.name]
      cases hlookup : storage.streams.lookup name with
      | none => exact hsettle (by rw [claimName, hlookup])
      | some stream =>
          dsimp only
          cases hexpired : isStreamExpired clock.expiry stream.config with
          | true => exact hsettle (by rw [claimName, hlookup]; exact if_pos hexpired)
          | false =>
              simp only [step, createStreamWithData, claimName, hlookup, hexpired,
                Bool.false_eq_true, if_false, Creation.withData]
              split <;> rfl
  | append | batchAppend | read | delete | head | closeStream | appendWithProducer | «exists»
  | subscribe => cases h

/-- An operation that takes the stream of a name out does not care what is in it, but for its
configuration and its size. -/
def Indifferent (name : String) (call : Call) (storage : InMemoryStorage) : Prop :=
  ∀ stream after, storage.streams.lookup name = some stream → after.config = stream.config →
    after.totalBytes = stream.totalBytes →
    step limits call ⟨storage.streams.insert name after, storage.totalBytes⟩ =
      step limits call storage

theorem delete_indifferent (clock : Clock) (name : String) (storage : InMemoryStorage) :
    Indifferent limits name ⟨clock, .delete name⟩ storage := by
  intro stream after hlookup hconfig hbytes
  simp only [step, delete, Finmap.lookup_insert, hlookup, removeStream, FiniteMap.erase_insert,
    hbytes]

theorem create_indifferent (h : creation call.op = some create) {storage : InMemoryStorage}
    (hexpired : ∀ stream, storage.streams.lookup call.op.name = some stream →
      isStreamExpired call.clock.expiry stream.config = true) :
    Indifferent limits call.op.name call storage := by
  intro stream after hlookup hconfig hbytes
  rw [step_create limits h, step_create limits h]
  simp only [Finmap.lookup_insert, hlookup, hconfig, hexpired stream hlookup, if_true, removeStream,
    FiniteMap.erase_insert, hbytes]

variable {limits} in
/-- It still does not after the stream was changed. -/
theorem Indifferent.insert {name : String} {storage : InMemoryStorage} {stream after : StreamEntry}
    (h : Indifferent limits name call storage) (hlookup : storage.streams.lookup name = some stream)
    (hconfig : after.config = stream.config) (hbytes : after.totalBytes = stream.totalBytes) :
    Indifferent limits name call ⟨storage.streams.insert name after, storage.totalBytes⟩ := by
  intro found next hfound hfoundConfig hfoundBytes
  rw [Finmap.lookup_insert, Option.some.injEq] at hfound
  subst hfound
  rw [Finmap.insert_insert, h stream after hlookup hconfig hbytes,
    h stream next hlookup (hfoundConfig.trans hconfig) (hfoundBytes.trans hbytes)]

end Creating

/-! ## The invariant -/

/-- How a run is explained: the history of what has taken effect and the storage it leads to, the
entries that are in the map as far as it says, the names of all entries, and for an entry that was
taken out where in the history that was. -/
structure Ghost where
  blocks : List (Block InMemoryStorage Call Reply)
  storage : InMemoryStorage
  linked : HashMap Nat
  nameOf : Nat → String
  grave : Nat → Option Nat

/-- The bytes that were reserved and are about to be given back. -/
def pendingBytes (threads : List Thread) : Nat := (threads.map (·.phase.pending)).sum

/-- The bytes that a create has released before it reserves its own. -/
def releasedBytes (threads : List Thread) : Nat := (threads.map (·.phase.released)).sum

/-- The operations that have taken effect. -/
def outcome (threads : List Thread) (index : Nat) : Option (Call × Reply) :=
  threads[index]?.bind fun thread => thread.phase.answer.map fun reply => (thread.call, reply)

/-- The entry an operation has taken out of the map before it takes effect. -/
def Phase.takenOut : Phase → Option Nat
  | .deleting id | .uncharging id | .releasing id _ | .creating (some (id, _)) => some id
  | _ => none

/-- The entry an operation holds on to. -/
def Phase.arc : Phase → Option Nat
  | .found id | .reserving id .. => some id
  | _ => none

/-- An entry that was taken out by the main operation of a block, and is as it was before that. -/
structure Buried (limits : Limits) (shared : Shared) (ghost : Ghost) (id index : Nat) : Prop where
  allocated : id < shared.allocated
  unlinked : ∀ name, ghost.linked.lookup name ≠ some id
  block : ∃ block, ghost.blocks[index]? = some block ∧
    block.ready.streams.lookup (ghost.nameOf id) = some (shared.entries id) ∧
    Indifferent limits (ghost.nameOf id) block.main.input block.ready

/-- What an operation relies on. -/
def Placed (shared : Shared) (ghost : Ghost) (thread : Thread) : Prop :=
  let name := thread.call.op.name
  match thread.phase with
  | .found id => onStream thread.call.op = true ∧ ghost.nameOf id = name ∧ id < shared.allocated ∧
      (ghost.linked.lookup name = some id ∨ (ghost.grave id).isSome = true)
  | .reserving id messages stream refused reply committed =>
      onStream thread.call.op = true ∧
      (ghost.linked.lookup name = some id ∨ (ghost.grave id).isSome = true) ∧
      plan thread.call (shared.entries id) = .commit messages stream refused reply committed
  | .probing id => (∃ name, thread.call.op = .exists name) ∧ ghost.linked.lookup name = some id
  | .deleting id | .uncharging id =>
      (∃ name, thread.call.op = .delete name) ∧ ghost.linked.lookup name = some id
  | .claiming id => ghost.linked.lookup name = some id
  | .releasing id bytes => ghost.linked.lookup name = some id ∧
      (shared.entries id).totalBytes = bytes ∧
      isStreamExpired thread.call.clock.expiry (shared.entries id).config = true
  | .creating released =>
      (∀ create, creation thread.call.op = some create → create.messages.isEmpty = false) ∧
      match released with
      | none => ghost.linked.lookup name = none
      | some (id, bytes) => ghost.linked.lookup name = some id ∧
          (shared.entries id).totalBytes = bytes ∧
          isStreamExpired thread.call.clock.expiry (shared.entries id).config = true
  | _ => True

/-- The entries are where the explanation has them. -/
structure Heap (limits : Limits) (shared : Shared) (ghost : Ghost) (streams : HashMap StreamEntry) :
    Prop where
  streams : ∀ name, streams.lookup name = (ghost.linked.lookup name).map shared.entries
  names : ∀ name id, ghost.linked.lookup name = some id →
    ghost.nameOf id = name ∧ id < shared.allocated
  graves : ∀ id index, ghost.grave id = some index → Buried limits shared ghost id index
  distinct : ∀ id other index, ghost.grave id = some index → ghost.grave other = some index →
    id = other

/-- The explanation and the map differ by the entry that an operation has taken out before it takes
effect. -/
structure Mapped (shared : Shared) (threads : List Thread) (linked : HashMap Nat) : Prop where
  present : (∀ (i : Nat) (thread : Thread), threads[i]? = some thread →
    thread.phase.takenOut = none) → linked = shared.streams
  taken : ∀ (i : Nat) (thread : Thread), threads[i]? = some thread →
    ∀ id, thread.phase.takenOut = some id →
      linked = shared.streams.insert thread.call.op.name id ∧
        shared.streams.lookup thread.call.op.name = none

/-- A run is explained. -/
structure Inv (limits : Limits) (before : Nat → Nat → Prop) (system : System Shared Thread)
    (ghost : Ghost) : Prop where
  linked : Linked (step limits) .new ghost.blocks ghost.storage
  recorded : Recorded (outcome system.threads) before ghost.blocks
  heap : Heap limits system.shared ghost ghost.storage.streams
  counter : system.shared.totalBytes + releasedBytes system.threads =
    ghost.storage.totalBytes + pendingBytes system.threads
  locks : Compatible Thread.mode system.threads
  mapped : Mapped system.shared system.threads ghost.linked
  placed : ∀ (i : Nat) (thread : Thread), system.threads[i]? = some thread →
    Placed system.shared ghost thread
  behind : ∀ (j : Nat) (thread : Thread), system.threads[j]? = some thread →
    ∀ id index, thread.phase.arc = some id → ghost.grave id = some index →
      ∀ i, before i j → ∃ k < index, At ghost.blocks i k

/-! ## One thread takes a step -/

section Replaced

variable {threads : List Thread} {index : Nat} {thread : Thread} {phase : Phase}

/-- What holds of the thread and of the others. -/
theorem forall_set {property : Nat → Thread → Prop} {after : Thread}
    (hthread : threads[index]? = some thread) (hafter : property index after)
    (hothers : ∀ (i : Nat) (other : Thread), i ≠ index → threads[i]? = some other →
      property i other) :
    ∀ (i : Nat) (other : Thread), (threads.set index after)[i]? = some other →
      property i other := by
  intro i other hother
  rw [Machine.get_set hthread] at hother
  split at hother
  · next heq =>
      obtain rfl := Option.some.inj hother
      exact heq ▸ hafter
  · next hne => exact hothers i other hne hother

/-- The outcomes after a step. -/
theorem outcome_set (hthread : threads[index]? = some thread) (i : Nat) :
    outcome (threads.set index ⟨thread.call, phase⟩) i =
      if i = index then phase.answer.map fun reply => (thread.call, reply)
      else outcome threads i := by
  rw [outcome, Machine.get_set hthread]
  split <;> rfl

/-- A sum over the threads after a step. -/
theorem sum_set (measure : Thread → Nat) {after : Thread} (hthread : threads[index]? = some thread) :
    ((threads.set index after).map measure).sum + measure thread =
      (threads.map measure).sum + measure after := by
  obtain ⟨front, back, rfl, rfl⟩ := Machine.split_at hthread
  rw [Machine.set_split]
  simp only [List.map_append, List.map_cons, List.sum_append, List.sum_cons]
  omega

end Replaced

/-- How a step may change what a thread holds. -/
def Permitted (threads : List Thread) (thread : Thread) (phase : Phase) : Prop :=
  ∀ lock, phase.mode lock = .free ∨ phase.mode lock = thread.phase.mode lock ∨
    (phase.mode lock = .shared ∧ canShare Thread.mode threads lock = true) ∨
    canLock Thread.mode threads lock = true

section Silent

variable {limits : Limits} {before : Nat → Nat → Prop} {system : System Shared Thread} {ghost : Ghost}
  {index : Nat} {thread : Thread} {phase : Phase} {shared : Shared}

/-- What threads rely on does not change with the counter and the map. -/
theorem placed_congr {later : Shared} (hentries : later.entries = shared.entries)
    (hallocated : later.allocated = shared.allocated) (other : Thread) :
    Placed later ghost other = Placed shared ghost other := by
  unfold Placed
  rw [hentries, hallocated]

theorem Heap.congr {later : Shared} {streams : HashMap StreamEntry}
    (h : Heap limits shared ghost streams) (hentries : later.entries = shared.entries)
    (hallocated : later.allocated = shared.allocated) : Heap limits later ghost streams := by
  refine ⟨fun name => by rw [hentries]; exact h.streams name,
    fun name id hid => by rw [hallocated]; exact h.names name id hid, fun id k hid => ?_, h.distinct⟩
  obtain ⟨hlt, hunlinked, hblock⟩ := h.graves id k hid
  exact ⟨by rw [hallocated]; exact hlt, hunlinked, by rw [hentries]; exact hblock⟩

/-- The counter follows the bytes of a thread. -/
theorem counter_set (h : system.shared.totalBytes + releasedBytes system.threads =
      ghost.storage.totalBytes + pendingBytes system.threads)
    (hthread : system.threads[index]? = some thread) {total : Nat} {storage : InMemoryStorage}
    (hcounter : total + phase.released + thread.phase.pending + ghost.storage.totalBytes =
      system.shared.totalBytes + thread.phase.released + phase.pending + storage.totalBytes) :
    total + releasedBytes (system.threads.set index ⟨thread.call, phase⟩) =
      storage.totalBytes + pendingBytes (system.threads.set index ⟨thread.call, phase⟩) := by
  have hreleased := @sum_set _ _ _ (fun other => other.phase.released) ⟨thread.call, phase⟩ hthread
  have hpending := @sum_set _ _ _ (fun other => other.phase.pending) ⟨thread.call, phase⟩ hthread
  unfold releasedBytes pendingBytes at h ⊢
  dsimp only at hreleased hpending
  omega

/-- A step of an operation that takes nothing out. -/
theorem Mapped.keep {linked : HashMap Nat} (h : Mapped system.shared system.threads linked)
    (hthread : system.threads[index]? = some thread)
    (hstreams : shared.streams = system.shared.streams)
    (htaken : phase.takenOut = thread.phase.takenOut) :
    Mapped shared (system.threads.set index ⟨thread.call, phase⟩) linked := by
  constructor
  · intro hall
    rw [hstreams]
    refine h.present fun i other hother => ?_
    by_cases heq : i = index
    · subst heq
      obtain rfl := Option.some.inj (hother.symm.trans hthread)
      rw [← htaken]
      exact hall i ⟨other.call, phase⟩ (by rw [Machine.get_set hthread, if_pos rfl])
    · exact hall i other (by rw [Machine.get_set hthread, if_neg heq]; exact hother)
  · rw [hstreams]
    refine forall_set hthread ?_ fun i other _ hother => h.taken i other hother
    rw [htaken]
    exact h.taken index thread hthread

/-- A step that changes nothing but the counter, before or after the operation takes effect. -/
theorem Inv.silent (h : Inv limits before system ghost)
    (hthread : system.threads[index]? = some thread)
    (hentries : shared.entries = system.shared.entries)
    (hallocated : shared.allocated = system.shared.allocated)
    (hanswer : phase.answer = thread.phase.answer)
    (hcounter : shared.totalBytes + phase.released + thread.phase.pending =
      system.shared.totalBytes + thread.phase.released + phase.pending)
    (hlocks : Permitted system.threads thread phase)
    (hmapped : Mapped shared (system.threads.set index ⟨thread.call, phase⟩) ghost.linked)
    (hplaced : Placed system.shared ghost ⟨thread.call, phase⟩)
    (harc : ∀ id k, phase.arc = some id → ghost.grave id = some k → thread.phase.arc = some id) :
    Inv limits before ⟨shared, system.threads.set index ⟨thread.call, phase⟩⟩ ghost where
  linked := h.linked
  recorded := by
    have hsame : outcome (system.threads.set index ⟨thread.call, phase⟩) = outcome system.threads := by
      funext i
      rw [outcome_set hthread]
      split
      · next heq => rw [heq, outcome, hthread, hanswer, Option.bind_some]
      · rfl
    rw [hsame]
    exact h.recorded
  heap := h.heap.congr hentries hallocated
  counter := counter_set h.counter hthread (by dsimp only; omega)
  locks := h.locks.set hthread hlocks
  mapped := hmapped
  placed := by
    refine forall_set hthread ?_ fun i other _ hother => ?_
    · rw [placed_congr hentries hallocated]
      exact hplaced
    · rw [placed_congr hentries hallocated]
      exact h.placed i other hother
  behind := by
    refine forall_set hthread ?_ fun j other _ hother => h.behind j other hother
    intro id k hid hgrave
    exact h.behind index thread hthread id k (harc id k hid hgrave) hgrave

end Silent

/-! ## Operations take effect -/

/-- An operation takes effect at the end of the history. -/
def Ghost.record (ghost : Ghost) (effect : Performed Call Reply) (storage : InMemoryStorage) : Ghost :=
  { ghost with
    blocks := ghost.blocks ++ [.last ghost.storage effect storage]
    storage := storage }

/-- An entry is taken out by the main operation of a block. -/
def Ghost.bury (ghost : Ghost) (name : String) (id index : Nat) : Ghost :=
  { ghost with
    linked := ghost.linked.erase name
    grave := Function.update ghost.grave id (some index) }

/-- A new entry is put in. -/
def Ghost.link (ghost : Ghost) (name : String) (id : Nat) : Ghost :=
  { ghost with
    linked := ghost.linked.insert name id
    nameOf := Function.update ghost.nameOf id name }

section Heap

variable {limits : Limits} {shared : Shared} {ghost : Ghost} {streams : HashMap StreamEntry}
  {name : String} {id : Nat}

/-- The written entry. -/
theorem Shared.write_self (stream : StreamEntry) : (shared.write id stream).entries id = stream :=
  Function.update_self ..

/-- The other entries. -/
theorem Shared.write_of_ne {other : Nat} (h : other ≠ id) {stream : StreamEntry} :
    (shared.write id stream).entries other = shared.entries other :=
  Function.update_of_ne h ..

/-- The blocks of a longer history. -/
theorem Heap.record (h : Heap limits shared ghost streams) (effect : Performed Call Reply)
    (storage : InMemoryStorage) : Heap limits shared (ghost.record effect storage) streams := by
  refine ⟨h.streams, h.names, fun other index hother => ?_, h.distinct⟩
  obtain ⟨hlt, hunlinked, block, hblock, hready⟩ := h.graves other index hother
  have hindex := (List.getElem?_eq_some_iff.mp hblock).1
  exact ⟨hlt, hunlinked, block, by rw [Ghost.record, List.getElem?_append_left hindex]; exact hblock,
    hready⟩

/-- An entry in the map is written. -/
theorem Heap.write (h : Heap limits shared ghost streams)
    (hlinked : ghost.linked.lookup name = some id) (stream : StreamEntry) :
    Heap limits (shared.write id stream) ghost (streams.insert name stream) := by
  refine ⟨fun other => ?_, h.names, fun other index hother => ?_, h.distinct⟩
  · rw [FiniteMap.lookup_insert_ite]
    split
    · next heq => rw [heq, hlinked, Option.map_some, Shared.write_self]
    · next hne =>
        rw [h.streams]
        refine Option.map_congr fun found hfound => ?_
        have hid : found ≠ id := by
          rintro rfl
          exact hne ((h.names other found hfound).1.symm.trans (h.names name found hlinked).1)
        rw [Shared.write_of_ne hid]
  · obtain ⟨hlt, hunlinked, hblock⟩ := h.graves other index hother
    have hid : other ≠ id := by
      rintro rfl
      exact hunlinked name hlinked
    exact ⟨hlt, hunlinked, by rw [Shared.write_of_ne hid]; exact hblock⟩

/-- The entry is in its grave. -/
theorem Ghost.bury_self {index : Nat} : (ghost.bury name id index).grave id = some index :=
  Function.update_self ..

/-- The others stay where they are. -/
theorem Ghost.bury_of_ne {index other : Nat} (h : other ≠ id) :
    (ghost.bury name id index).grave other = ghost.grave other :=
  Function.update_of_ne h ..

/-- An entry is taken out. -/
theorem Heap.bury (h : Heap limits shared ghost streams)
    (hlinked : ghost.linked.lookup name = some id) {index : Nat}
    {block : Block InMemoryStorage Call Reply} (hnew : ∀ other, ghost.grave other ≠ some index)
    (hblock : ghost.blocks[index]? = some block)
    (hready : block.ready.streams.lookup name = some (shared.entries id))
    (hmain : Indifferent limits name block.main.input block.ready) :
    Heap limits shared (ghost.bury name id index) (streams.erase name) := by
  obtain ⟨hname, hlt⟩ := h.names name id hlinked
  refine ⟨fun other => ?_, fun other found hfound => ?_, fun other k hother => ?_,
    fun first second k hfirst hsecond => ?_⟩
  · rw [Ghost.bury, FiniteMap.lookup_erase_ite, FiniteMap.lookup_erase_ite]
    split
    · rfl
    · exact h.streams other
  · rw [Ghost.bury, FiniteMap.lookup_erase_ite] at hfound
    split at hfound
    · cases hfound
    · exact h.names other found hfound
  · have hunlinked {found : Nat} (hfound : ∀ other, ghost.linked.lookup other ≠ some found)
        (other : String) : (ghost.bury name id index).linked.lookup other ≠ some found := by
      rw [Ghost.bury, FiniteMap.lookup_erase_ite]
      split
      · exact (Option.some_ne_none found).symm
      · exact hfound other
    by_cases heq : other = id
    · subst heq
      rw [Ghost.bury_self, Option.some.injEq] at hother
      subst hother
      refine ⟨hlt, fun found hfound => ?_, block, hblock, ?_, ?_⟩
      · rw [Ghost.bury, FiniteMap.lookup_erase_ite] at hfound
        split at hfound
        · cases hfound
        · next hne => exact hne ((h.names found other hfound).1.symm.trans hname)
      · exact hname ▸ hready
      · exact hname ▸ hmain
    · rw [Ghost.bury_of_ne heq] at hother
      obtain ⟨hother, hfound, hrest⟩ := h.graves other k hother
      exact ⟨hother, hunlinked hfound, hrest⟩
  · by_cases hone : first = id <;> by_cases htwo : second = id
    · exact hone.trans htwo.symm
    · rw [hone, Ghost.bury_self, Option.some.injEq] at hfirst
      rw [Ghost.bury_of_ne htwo, ← hfirst] at hsecond
      exact absurd hsecond (hnew second)
    · rw [htwo, Ghost.bury_self, Option.some.injEq] at hsecond
      rw [Ghost.bury_of_ne hone, ← hsecond] at hfirst
      exact absurd hfirst (hnew first)
    · rw [Ghost.bury_of_ne hone] at hfirst
      rw [Ghost.bury_of_ne htwo] at hsecond
      exact h.distinct first second k hfirst hsecond

/-- The new entry. -/
theorem Shared.insert_self {stream : StreamEntry} :
    (shared.insert name stream).entries shared.allocated = stream :=
  Function.update_self ..

/-- The entries there were before. -/
theorem Shared.insert_of_lt {other : Nat} (h : other < shared.allocated) {stream : StreamEntry} :
    (shared.insert name stream).entries other = shared.entries other :=
  Function.update_of_ne (Nat.ne_of_lt h) ..

/-- A new entry is put in. -/
theorem Heap.link (h : Heap limits shared ghost streams) (stream : StreamEntry) :
    Heap limits (shared.insert name stream) (ghost.link name shared.allocated)
      (streams.insert name stream) := by
  have hnameOf {other : Nat} (hother : other < shared.allocated) :
      (ghost.link name shared.allocated).nameOf other = ghost.nameOf other :=
    Function.update_of_ne (Nat.ne_of_lt hother) ..
  refine ⟨fun other => ?_, fun other found hfound => ?_, fun other k hother => ?_, h.distinct⟩
  · rw [Ghost.link, FiniteMap.lookup_insert_ite, FiniteMap.lookup_insert_ite]
    split
    · rw [Option.map_some, Shared.insert_self]
    · rw [h.streams]
      refine Option.map_congr fun found hfound => ?_
      rw [Shared.insert_of_lt (h.names other found hfound).2]
  · rw [Ghost.link, FiniteMap.lookup_insert_ite] at hfound
    split at hfound
    · next heq =>
        obtain rfl := Option.some.inj hfound
        exact ⟨(Function.update_self ..).trans heq.symm, Nat.lt_succ_self _⟩
    · obtain ⟨hname, hlt⟩ := h.names other found hfound
      exact ⟨(hnameOf hlt).trans hname, Nat.lt_succ_of_lt hlt⟩
  · obtain ⟨hlt, hunlinked, hblock⟩ := h.graves other k hother
    refine ⟨Nat.lt_succ_of_lt hlt, fun found => ?_, ?_⟩
    · rw [Ghost.link, FiniteMap.lookup_insert_ite]
      split
      · rw [ne_eq, Option.some.injEq]
        exact Nat.ne_of_gt hlt
      · exact hunlinked found
    · rw [hnameOf hlt, Shared.insert_of_lt hlt]
      exact hblock

/-- An entry is taken out by an operation that takes effect. -/
theorem Heap.remove (h : Heap limits shared ghost ghost.storage.streams)
    (hlinked : ghost.linked.lookup name = some id) {effect : Performed Call Reply}
    (hmain : Indifferent limits name effect.input ghost.storage) (storage : InMemoryStorage) :
    Heap limits shared ((ghost.record effect storage).bury name id ghost.blocks.length)
      (ghost.storage.streams.erase name) := by
  refine (h.record effect storage).bury hlinked (fun other hother => ?_)
    List.getElem?_concat_length ?_ hmain
  · obtain ⟨block, hblock, -⟩ := (h.graves other _ hother).block
    exact Nat.lt_irrefl _ (List.getElem?_eq_some_iff.mp hblock).1
  · exact (h.streams name).trans (by rw [hlinked, Option.map_some])

/-- An entry that is not in the map any more is written. -/
theorem Heap.late (h : Heap limits shared ghost streams) {index : Nat}
    (hgrave : ghost.grave id = some index) {block : Block InMemoryStorage Call Reply}
    (hblock : ghost.blocks[index]? = some block) {stream : StreamEntry}
    (hconfig : stream.config = (shared.entries id).config)
    (hbytes : stream.totalBytes = (shared.entries id).totalBytes) (effect : Performed Call Reply) :
    Heap limits (shared.write id stream)
      { ghost with
        blocks := ghost.blocks.set index (block.insert effect
          ⟨block.ready.streams.insert (ghost.nameOf id) stream, block.ready.totalBytes⟩) }
      streams := by
  obtain ⟨hlt, hunlinked, found, hfound, hready, hmain⟩ := h.graves id index hgrave
  obtain rfl := Option.some.inj (hfound.symm.trans hblock)
  refine ⟨fun name => ?_, h.names, fun other k hother => ?_, h.distinct⟩
  · rw [h.streams]
    refine Option.map_congr fun other hother => ?_
    have hne : other ≠ id := by
      rintro rfl
      exact hunlinked name hother
    rw [Shared.write_of_ne hne]
  · by_cases heq : other = id
    · subst heq
      obtain rfl := Option.some.inj (hother.symm.trans hgrave)
      refine ⟨hlt, hunlinked, _, by rw [Machine.get_set hblock, if_pos rfl], ?_, ?_⟩
      · rw [Shared.write_self]
        exact Finmap.lookup_insert _
      · exact hmain.insert hready hconfig hbytes
    · obtain ⟨hother', hfree, hrest⟩ := h.graves other k hother
      have hne : k ≠ index := by
        rintro rfl
        exact heq (h.distinct other id k hother hgrave)
      refine ⟨hother', hfree, ?_⟩
      rw [Machine.get_set hblock, if_neg hne, Shared.write_of_ne heq]
      exact hrest

end Heap

section Performed

variable {limits : Limits} {before : Nat → Nat → Prop} {system : System Shared Thread}
  {ghost after : Ghost} {index : Nat} {thread : Thread} {phase : Phase} {shared : Shared}
  {reply : Reply}

/-- An operation that has taken effect relies on nothing. -/
theorem placed_of_answer (h : phase.answer = some reply) (call : Call) :
    Placed shared ghost ⟨call, phase⟩ ∧ phase.arc = none ∧ phase.takenOut = none ∧
      phase.released = 0 := by
  cases phase with
  | rollback | unlocking | returned => exact ⟨trivial, rfl, rfl, rfl⟩
  | invoked | found | reserving | probing | deleting | uncharging | claiming | releasing | creating =>
      cases h

/-- An operation that has not taken effect has nothing to give back. -/
theorem pending_of_unanswered (h : phase.answer = none) : phase.pending = 0 := by
  cases phase with
  | rollback | unlocking | returned => cases h
  | invoked | found | reserving | probing | deleting | uncharging | claiming | releasing | creating =>
      rfl

/-- What an operation that takes effect leaves behind. -/
structure Leaves (limits : Limits) (system : System Shared Thread) (ghost : Ghost) (index : Nat)
    (thread : Thread) (shared : Shared) (phase : Phase) (after : Ghost) : Prop where
  heap : Heap limits shared after after.storage.streams
  counter : shared.totalBytes + ghost.storage.totalBytes =
    system.shared.totalBytes + thread.phase.released + phase.pending + after.storage.totalBytes
  locks : Permitted system.threads thread phase
  mapped : Mapped shared (system.threads.set index ⟨thread.call, phase⟩) after.linked
  others : ∀ (i : Nat) (other : Thread), i ≠ index → system.threads[i]? = some other →
    Placed shared after other
  graves : ∀ id k, after.grave id = some k → ghost.grave id = some k ∨ k = ghost.blocks.length

/-- An operation takes effect, wherever in the history that is. -/
theorem Inv.perform (h : Inv limits before system ghost)
    (hthread : system.threads[index]? = some thread) (hnone : thread.phase.answer = none)
    (hreply : phase.answer = some reply)
    (hlinked : Linked (step limits) .new after.blocks after.storage) {position : Nat}
    (hgrows : Grows ghost.blocks after.blocks ⟨index, thread.call, reply⟩ position)
    (hbefore : ∀ i, before i index → ∃ k < position, At ghost.blocks i k)
    (hleaves : Leaves limits system ghost index thread shared phase after) :
    Inv limits before ⟨shared, system.threads.set index ⟨thread.call, phase⟩⟩ after := by
  obtain ⟨hplaced, harc, -, hreleased⟩ := @placed_of_answer after phase shared reply hreply thread.call
  refine ⟨hlinked, ?_, hleaves.heap, ?_, h.locks.set hthread hleaves.locks, hleaves.mapped,
    forall_set hthread hplaced hleaves.others, ?_⟩
  · refine h.recorded.grow hgrows ?_ hbefore fun i => ?_
    · rw [outcome, hthread, Option.bind_some, hnone, Option.map_none]
    · rw [outcome_set hthread, hreply, Option.map_some]
  · refine counter_set h.counter hthread ?_
    rw [hreleased, pending_of_unanswered hnone]
    exact hleaves.counter
  · refine forall_set hthread ?_ fun j other _ hother id k hid hgrave i hij => ?_
    · intro id k hid
      rw [harc] at hid
      cases hid
    · have hold : ∃ l < k, At ghost.blocks i l := by
        rcases hleaves.graves id k hgrave with hgrave | rfl
        · exact h.behind j other hother id k hid hgrave i hij
        · obtain ⟨l, hat, -⟩ := h.recorded.order i j hij
          exact ⟨l, at_lt hat, hat⟩
      obtain ⟨l, hlt, hat⟩ := hold
      exact ⟨l, hlt, (hgrows.at_iff i l).mpr (.inl hat)⟩

/-- An operation takes effect at the end of the history. -/
theorem Inv.last (h : Inv limits before system ghost)
    (hthread : system.threads[index]? = some thread) (hnone : thread.phase.answer = none)
    (hreply : phase.answer = some reply)
    (hstep : step limits thread.call ghost.storage = (reply, after.storage))
    (hblocks : after.blocks = ghost.blocks ++
      [.last ghost.storage ⟨index, thread.call, reply⟩ after.storage])
    (hleaves : Leaves limits system ghost index thread shared phase after) :
    Inv limits before ⟨shared, system.threads.set index ⟨thread.call, phase⟩⟩ after := by
  obtain ⟨hlinked, hgrows⟩ := @Linked.last _ _ _ _ _ _ after.storage _
    ⟨index, thread.call, reply⟩ h.linked hstep
  rw [← hblocks] at hlinked hgrows
  refine h.perform hthread hnone hreply hlinked hgrows (fun i hi => ?_) hleaves
  obtain ⟨k, hat, -⟩ := h.recorded.order i index hi
  exact ⟨k, at_lt hat, hat⟩

end Performed

/-! ## The other threads -/

section Others

variable {shared later : Shared} {ghost after : Ghost} {other : Thread}

/-- The expired entry that a create has taken out. -/
def Phase.expired : Phase → Option Nat
  | .releasing id _ | .creating (some (id, _)) => some id
  | _ => none

/-- What is written to an entry agrees with it on what the create that has taken it out relies on. -/
theorem write_agrees {id found : Nat} {stream : StreamEntry} (h : found = id →
      stream.config = (shared.entries id).config ∧
        stream.totalBytes = (shared.entries id).totalBytes) :
    ((shared.write id stream).entries found).config = (shared.entries found).config ∧
      ((shared.write id stream).entries found).totalBytes = (shared.entries found).totalBytes := by
  by_cases heq : found = id
  · subst heq
    rw [Shared.write_self]
    exact h rfl
  · rw [Shared.write_of_ne heq]
    exact ⟨rfl, rfl⟩

/-- An entry is written under its lock. -/
theorem Placed.write (h : Placed shared ghost other) {id : Nat} {stream : StreamEntry}
    (hmode : other.mode (.entry id) ≠ .exclusive)
    (hsame : other.phase.expired = some id → stream.config = (shared.entries id).config ∧
      stream.totalBytes = (shared.entries id).totalBytes) :
    Placed (shared.write id stream) ghost other := by
  obtain ⟨call, phase⟩ := other
  cases phase with
  | reserving found messages checked refused reply committed =>
      have hne : found ≠ id := by
        rintro rfl
        exact hmode (if_pos rfl)
      obtain ⟨hop, hheld, hplan⟩ := h
      exact ⟨hop, hheld, by rw [Shared.write_of_ne hne]; exact hplan⟩
  | releasing found bytes =>
      obtain ⟨hconfig, hbytes⟩ := @write_agrees shared id found stream fun heq => hsame (heq ▸ rfl)
      obtain ⟨hlinked, htotal, hexpired⟩ := h
      exact ⟨hlinked, hbytes.trans htotal, by rw [hconfig]; exact hexpired⟩
  | creating released =>
      obtain ⟨hmessages, h⟩ := h
      refine ⟨hmessages, ?_⟩
      cases released with
      | none => exact h
      | some released =>
          obtain ⟨found, bytes⟩ := released
          obtain ⟨hconfig, hbytes⟩ := @write_agrees shared id found stream fun heq => hsame (heq ▸ rfl)
          obtain ⟨hlinked, htotal, hexpired⟩ := h
          exact ⟨hlinked, hbytes.trans htotal, by rw [hconfig]; exact hexpired⟩
  | invoked | found | probing | deleting | uncharging | claiming | rollback | unlocking | returned =>
      exact h

/-- The entries there were are still there, in the map or in their graves. -/
structure Extends (shared : Shared) (ghost : Ghost) (later : Shared) (after : Ghost) : Prop where
  allocated : shared.allocated ≤ later.allocated
  entries : ∀ id < shared.allocated, later.entries id = shared.entries id
  names : ∀ id < shared.allocated, after.nameOf id = ghost.nameOf id
  linked : ∀ name id, ghost.linked.lookup name = some id →
    after.linked.lookup name = some id ∨ (after.grave id).isSome = true
  graves : ∀ id, (ghost.grave id).isSome = true → (after.grave id).isSome = true

theorem Extends.trans {last : Shared} {final : Ghost} (h : Extends shared ghost later after)
    (hnext : Extends later after last final) : Extends shared ghost last final where
  allocated := Nat.le_trans h.allocated hnext.allocated
  entries id hid := (hnext.entries id (Nat.lt_of_lt_of_le hid h.allocated)).trans (h.entries id hid)
  names id hid := (hnext.names id (Nat.lt_of_lt_of_le hid h.allocated)).trans (h.names id hid)
  linked name id hid := by
    rcases h.linked name id hid with hlinked | hgrave
    · exact hnext.linked name id hlinked
    · exact .inr (hnext.graves id hgrave)
  graves id hid := hnext.graves id (h.graves id hid)

/-- A longer history. -/
theorem extends_record (effect : Performed Call Reply) (storage : InMemoryStorage) :
    Extends shared ghost shared (ghost.record effect storage) :=
  ⟨Nat.le_refl _, fun _ _ => rfl, fun _ _ => rfl, fun _ _ hid => .inl hid, fun _ hid => hid⟩

/-- Updating the counter. -/
theorem extends_count (count : Nat) : Extends shared ghost (shared.count count) ghost :=
  ⟨Nat.le_refl _, fun _ _ => rfl, fun _ _ => rfl, fun _ _ hid => .inl hid, fun _ hid => hid⟩

/-- Taking an entry out. -/
theorem extends_bury {name : String} {id : Nat} (hlinked : ghost.linked.lookup name = some id)
    (index : Nat) : Extends shared ghost shared (ghost.bury name id index) where
  allocated := Nat.le_refl _
  entries _ _ := rfl
  names _ _ := rfl
  linked other found hfound := by
    rw [Ghost.bury, FiniteMap.lookup_erase_ite]
    split
    · next heq =>
        subst heq
        obtain rfl := Option.some.inj (hlinked.symm.trans hfound)
        exact .inr (Option.isSome_iff_exists.mpr ⟨index, Ghost.bury_self⟩)
    · exact .inl hfound
  graves other hother := by
    by_cases heq : other = id
    · rw [heq, Ghost.bury_self]
      rfl
    · rw [Ghost.bury_of_ne heq]
      exact hother

/-- Putting a new entry in. -/
theorem extends_link {name : String} (hlinked : ghost.linked.lookup name = none)
    (stream : StreamEntry) :
    Extends shared ghost (shared.insert name stream) (ghost.link name shared.allocated) where
  allocated := Nat.le_succ _
  entries _ hid := Shared.insert_of_lt hid
  names _ hid := Function.update_of_ne (Nat.ne_of_lt hid) ..
  linked other found hfound := by
    rw [Ghost.link, FiniteMap.lookup_insert_ite]
    split
    · next heq =>
        rw [heq, hlinked] at hfound
        cases hfound
    · exact .inl hfound
  graves _ hother := hother

/-- A thread that holds on to an entry relies on no more than that. -/
theorem Placed.extend {limits : Limits} {streams : HashMap StreamEntry}
    (h : Placed shared ghost other) (hfree : other.mode .map = .free)
    (hheap : Heap limits shared ghost streams) (hextends : Extends shared ghost later after) :
    Placed later after other := by
  have hheld {name : String} {id : Nat}
      (hid : ghost.linked.lookup name = some id ∨ (ghost.grave id).isSome = true) :
      after.linked.lookup name = some id ∨ (after.grave id).isSome = true := by
    rcases hid with hlinked | hgrave
    · exact hextends.linked name id hlinked
    · exact .inr (hextends.graves id hgrave)
  have hallocated {name : String} {id : Nat}
      (hid : ghost.linked.lookup name = some id ∨ (ghost.grave id).isSome = true) :
      id < shared.allocated := by
    rcases hid with hlinked | hgrave
    · exact (hheap.names name id hlinked).2
    · obtain ⟨index, hindex⟩ := Option.isSome_iff_exists.mp hgrave
      exact (hheap.graves id index hindex).allocated
  obtain ⟨call, phase⟩ := other
  cases phase with
  | found id =>
      obtain ⟨hop, hname, hlt, hid⟩ := h
      exact ⟨hop, (hextends.names id hlt).trans hname, Nat.lt_of_lt_of_le hlt hextends.allocated,
        hheld hid⟩
  | reserving id messages stream refused reply committed =>
      obtain ⟨hop, hid, hplan⟩ := h
      exact ⟨hop, hheld hid, by rw [hextends.entries id (hallocated hid)]; exact hplan⟩
  | probing | deleting | uncharging | claiming | releasing | creating =>
      simp [Thread.mode, Phase.mode] at hfree
  | invoked | rollback | unlocking | returned => trivial

end Others

/-! ## The lock of the map -/

section MapLock

variable {limits : Limits} {before : Nat → Nat → Prop} {system : System Shared Thread}
  {ghost : Ghost} {index : Nat} {thread : Thread} {phase : Phase} {shared : Shared}

/-- No other thread holds the lock of the map. -/
def Alone (threads : List Thread) (index : Nat) : Prop :=
  ∀ (i : Nat) (other : Thread), i ≠ index → threads[i]? = some other → other.mode .map = .free

theorem alone_of_exclusive (h : Compatible Thread.mode system.threads)
    (hthread : system.threads[index]? = some thread) (hmode : thread.mode .map = .exclusive) :
    Alone system.threads index := by
  intro i other hne hother
  by_contra hheld
  exact hne (h .map index i thread other hthread hother hmode hheld).symm

theorem alone_of_can_lock (h : canLock Thread.mode system.threads .map = true) (index : Nat) :
    Alone system.threads index :=
  fun _ _ _ hother => free_of_can_lock h (List.mem_of_getElem? hother)

/-- An operation that has taken an entry out keeps the map locked. -/
theorem exclusive_of_taken_out {id : Nat} (h : phase.takenOut = some id) :
    phase.mode .map = .exclusive := by
  cases phase with
  | deleting | uncharging | releasing | creating => rfl
  | invoked | found | reserving | probing | claiming | rollback | unlocking | returned => cases h

theorem exclusive_of_released (h : phase.released ≠ 0) : phase.mode .map = .exclusive := by
  cases phase with
  | creating => rfl
  | invoked | found | reserving | probing | deleting | uncharging | claiming | releasing | rollback
  | unlocking | returned => exact absurd rfl h

theorem taken_out_of_not_exclusive (h : phase.mode .map ≠ .exclusive) : phase.takenOut = none := by
  rw [Option.eq_none_iff_forall_ne_some]
  exact fun id hid => h (exclusive_of_taken_out hid)

/-- The others have taken nothing out. -/
theorem Alone.taken_out (h : Alone system.threads index) {i : Nat} {other : Thread} (hne : i ≠ index)
    (hother : system.threads[i]? = some other) : other.phase.takenOut = none := by
  refine taken_out_of_not_exclusive fun hmode => ?_
  have hfree : other.phase.mode .map = .free := h i other hne hother
  rw [hfree] at hmode
  cases hmode

/-- The others have released nothing. -/
theorem Alone.released (h : Alone system.threads index)
    (hthread : system.threads[index]? = some thread) :
    releasedBytes system.threads = thread.phase.released := by
  have hzero {other : Thread} (hfree : other.mode .map = .free) : other.phase.released = 0 := by
    by_contra hne
    have hmode : other.mode .map = .exclusive := exclusive_of_released hne
    rw [hfree] at hmode
    cases hmode
  obtain ⟨front, back, hsplit, rfl⟩ := Machine.split_at hthread
  have hrest {i : Nat} {other : Thread} (hne : i ≠ front.length)
      (hother : (front ++ thread :: back)[i]? = some other) : other.phase.released = 0 :=
    hzero (h i other hne (hsplit ▸ hother))
  have hfront : (front.map (·.phase.released)).sum = 0 := by
    refine List.sum_eq_zero fun bytes hbytes => ?_
    obtain ⟨other, hother, rfl⟩ := List.mem_map.mp hbytes
    obtain ⟨i, hlt, rfl⟩ := List.mem_iff_getElem.mp hother
    exact hrest (Nat.ne_of_lt hlt)
      (by rw [List.getElem?_append_left hlt]; exact List.getElem?_eq_getElem hlt)
  have hback : (back.map (·.phase.released)).sum = 0 := by
    refine List.sum_eq_zero fun bytes hbytes => ?_
    obtain ⟨other, hother, rfl⟩ := List.mem_map.mp hbytes
    obtain ⟨i, hlt, rfl⟩ := List.mem_iff_getElem.mp hother
    refine @hrest (front.length + (i + 1)) _ (by omega) ?_
    rw [List.getElem?_append_right (by omega), Nat.add_sub_cancel_left, List.getElem?_cons_succ]
    exact List.getElem?_eq_getElem hlt
  rw [releasedBytes, hsplit, List.map_append, List.map_cons, List.sum_append, List.sum_cons, hfront,
    hback]
  omega

/-- While the lock of the map is not held for writing, the explanation has the entries of the map. -/
theorem Inv.linked_eq (h : Inv limits before system ghost)
    (hshare : canShare Thread.mode system.threads .map = true) :
    ghost.linked = system.shared.streams := by
  refine h.mapped.present fun i other hother => taken_out_of_not_exclusive ?_
  have hmode : other.mode .map ≠ .exclusive :=
    not_exclusive_of_can_share hshare (List.mem_of_getElem? hother)
  exact hmode

/-- An entry is taken out of the map. -/
theorem Mapped.take {linked : HashMap Nat} (hlinked : linked = system.shared.streams)
    (hthread : system.threads[index]? = some thread) (halone : Alone system.threads index) {id : Nat}
    (hlookup : system.shared.streams.lookup thread.call.op.name = some id)
    (htaken : phase.takenOut = some id) :
    Mapped (system.shared.remove thread.call.op.name)
      (system.threads.set index ⟨thread.call, phase⟩) linked := by
  constructor
  · intro hall
    have hown := hall index ⟨thread.call, phase⟩ (by rw [Machine.get_set hthread, if_pos rfl])
    rw [show phase.takenOut = none from hown] at htaken
    cases htaken
  · refine forall_set hthread (fun found hfound => ?_) fun i other hne hother found hfound => ?_
    · obtain rfl := Option.some.inj (htaken.symm.trans hfound)
      refine ⟨?_, Finmap.lookup_erase ..⟩
      rw [hlinked, Shared.remove, FiniteMap.insert_erase, FiniteMap.insert_lookup hlookup]
    · rw [halone.taken_out hne hother] at hfound
      cases hfound

/-- The explanation and the map agree again. -/
theorem Mapped.settle {linked : HashMap Nat} (hthread : system.threads[index]? = some thread)
    (halone : Alone system.threads index) (htaken : phase.takenOut = none)
    (hlinked : linked = shared.streams) :
    Mapped shared (system.threads.set index ⟨thread.call, phase⟩) linked := by
  refine ⟨fun _ => hlinked, forall_set hthread (fun id hid => ?_) fun i other hne hother id hid => ?_⟩
  · rw [htaken] at hid
    cases hid
  · rw [halone.taken_out hne hother] at hid
    cases hid

end MapLock

/-! ## The counter -/

section Counter

variable {limits : Limits} {before : Nat → Nat → Prop} {system : System Shared Thread}
  {ghost : Ghost} {name : String} {id : Nat}

/-- The storage of the explanation is reachable. -/
theorem Inv.invariant (h : Inv limits before system ghost) : Invariant limits ghost.storage := by
  have hexec := congrArg Prod.snd h.linked.exec
  dsimp only at hexec
  rw [← hexec]
  exact reachable_invariant limits _

/-- The stream of an entry. -/
theorem Inv.lookup (h : Inv limits before system ghost)
    (hlinked : ghost.linked.lookup name = some id) :
    ghost.storage.streams.lookup name = some (system.shared.entries id) := by
  rw [h.heap.streams, hlinked, Option.map_some]

theorem Inv.bytes_le (h : Inv limits before system ghost)
    (hlinked : ghost.linked.lookup name = some id) :
    (system.shared.entries id).totalBytes ≤ ghost.storage.totalBytes :=
  h.invariant.stream_le_total (h.lookup hlinked)

/-- No more bytes have been released than there were. -/
theorem Inv.released_le (h : Inv limits before system ghost) :
    releasedBytes system.threads ≤ ghost.storage.totalBytes := by
  by_cases hzero : ∀ thread ∈ system.threads, thread.phase.released = 0
  · have hnone : releasedBytes system.threads = 0 := by
      refine List.sum_eq_zero fun bytes hbytes => ?_
      obtain ⟨thread, hthread, rfl⟩ := List.mem_map.mp hbytes
      exact hzero thread hthread
    omega
  · push Not at hzero
    obtain ⟨⟨call, phase⟩, hmem, hreleased⟩ := hzero
    obtain ⟨index, hindex⟩ := List.getElem?_of_mem hmem
    have halone := alone_of_exclusive h.locks hindex (exclusive_of_released hreleased)
    rw [halone.released hindex]
    have hplaced := h.placed index _ hindex
    cases phase with
    | creating released =>
        cases released with
        | none => exact absurd rfl hreleased
        | some released =>
            obtain ⟨id, bytes⟩ := released
            obtain ⟨-, hlinked, rfl, -⟩ := hplaced
            exact h.bytes_le hlinked
    | invoked | found | reserving | probing | deleting | uncharging | claiming | releasing | rollback
    | unlocking | returned => exact absurd rfl hreleased

end Counter

end DurableStreams.Memory.Concurrent
