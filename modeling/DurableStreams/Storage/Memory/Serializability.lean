import DurableStreams.Storage.Memory.Explained

/-!
# Serializable runs of the in-memory storage

Operations take effect one after another. One on an entry does so in its section, or when it reserves
bytes, a create when it makes its last update of the counter and a delete when it takes the bytes of
its entry off. An operation on an entry that has been taken out of the map takes effect right before
the entry was taken out, which is the only place left for it. This explains every run in which
reservations are not disturbed by operations that are not done yet.
-/

namespace DurableStreams.Memory.Concurrent

open Lib

/-! ## The condition -/

/-- An entry is still counted: it is in the map, or a delete has not locked it yet. -/
def Charged (system : System Shared Thread) (name : String) (id : Nat) : Prop :=
  system.shared.streams.lookup name = some id ∨
    ∃ thread ∈ system.threads, thread.phase.deletes id = true

instance (system : System Shared Thread) (name : String) (id : Nat) :
    Decidable (Charged system name id) :=
  inferInstanceAs (Decidable (_ ∨ _))

/-- Two values of the counter lead to the same verdict on a reservation. -/
def SameVerdict (limits : Limits) (first second bytes : Nat) : Prop :=
  (reserveTotalBytes limits first bytes).isSome = (reserveTotalBytes limits second bytes).isSome

instance (limits : Limits) (first second bytes : Nat) :
    Decidable (SameVerdict limits first second bytes) :=
  inferInstanceAs (Decidable (_ = _))

/-- An operation does not reserve bytes for an entry that is not counted any more, and gets the
verdict that it would get without the reservations and releases of operations that are not done. -/
def FairVerdict (limits : Limits) (system : System Shared Thread) (call : Call) : Phase → Prop
  | .reserving id messages .. =>
      Charged system call.op.name id ∧
        SameVerdict limits system.shared.totalBytes
          (system.shared.totalBytes + releasedBytes system.threads - pendingBytes system.threads)
          (batchBytes messages)
  | .creating _ =>
      SameVerdict limits system.shared.totalBytes
        (system.shared.totalBytes - pendingBytes system.threads) (batchBytes call.op.messages)
  | _ => True

instance (limits : Limits) (system : System Shared Thread) (call : Call) (phase : Phase) :
    Decidable (FairVerdict limits system call phase) :=
  match phase with
  | .reserving .. => inferInstanceAs (Decidable (_ ∧ _))
  | .creating _ => inferInstanceAs (Decidable (SameVerdict ..))
  | .invoked | .found _ | .probing _ | .deleting _ | .uncharging _ | .claiming _ | .releasing ..
  | .rollback .. | .unlocking .. | .returned _ => isTrue trivial

/-- The thread whose turn it is gets a fair verdict if it reserves bytes. -/
def Undisturbed (limits : Limits) (action : Action Call Unit) (system : System Shared Thread) :
    Prop :=
  match action with
  | .spawn _ => True
  | .run index _ => ∀ thread ∈ system.threads[index]?,
      FairVerdict limits system thread.call thread.phase

instance (limits : Limits) (action : Action Call Unit) (system : System Shared Thread) :
    Decidable (Undisturbed limits action system) :=
  match action with
  | .spawn _ => isTrue trivial
  | .run _ _ => inferInstanceAs (Decidable (∀ _ ∈ _, _))

section Steps

variable {limits : Limits} {before : Nat → Nat → Prop} {system : System Shared Thread}
  {ghost after : Ghost} {index : Nat} {call : Call} {phase next : Phase} {shared : Shared}
  {reply : Reply}

/-! ## Operations that change nothing -/

/-- An operation that has taken nothing out has released nothing. -/
theorem released_of_taken_out (h : phase.takenOut = none) : phase.released = 0 := by
  cases phase with
  | creating released =>
      cases released with
      | none => rfl
      | some released => cases h
  | invoked | found | reserving | probing | deleting | uncharging | claiming | releasing | rollback
  | unlocking | returned => rfl

/-- An operation returns without changing anything. -/
theorem Inv.returns (h : Inv limits before system ghost)
    (hthread : system.threads[index]? = some ⟨call, phase⟩) (hnone : phase.answer = none)
    (htaken : phase.takenOut = none) (hstep : step limits call ghost.storage = (reply, ghost.storage)) :
    Inv limits before ⟨system.shared, system.threads.set index ⟨call, .returned reply⟩⟩
      (ghost.record ⟨index, call, reply⟩ ghost.storage) := by
  refine h.last hthread hnone rfl hstep rfl ⟨h.heap.record _ _, ?_, fun lock => .inl rfl,
    h.mapped.keep hthread rfl htaken.symm, fun i other _ hother => h.placed i other hother,
    fun _ _ hgrave => .inl hgrave⟩
  rw [released_of_taken_out htaken]
  rfl

/-! ## Sections -/

/-- An operation writes an entry that is in the map. -/
theorem Inv.writes (h : Inv limits before system ghost)
    (hthread : system.threads[index]? = some ⟨call, phase⟩) (hnone : phase.answer = none)
    (htaken : phase.takenOut = none) (hreply : next.answer = some reply) {id total count : Nat}
    {stream : StreamEntry} (hlinked : ghost.linked.lookup call.op.name = some id)
    (hstep : step limits call ghost.storage =
      (reply, ⟨ghost.storage.streams.insert call.op.name stream, total⟩))
    (hcounter : count + ghost.storage.totalBytes = system.shared.totalBytes + next.pending + total)
    (hlocks : Permitted system.threads ⟨call, phase⟩ next)
    (hothers : ∀ (i : Nat) (other : Thread), i ≠ index → system.threads[i]? = some other →
      other.mode (.entry id) ≠ .exclusive ∧ (other.phase.expired = some id →
        stream.config = (system.shared.entries id).config ∧
          stream.totalBytes = (system.shared.entries id).totalBytes)) :
    Inv limits before
      ⟨(system.shared.write id stream).count count, system.threads.set index ⟨call, next⟩⟩
      (ghost.record ⟨index, call, reply⟩
        ⟨ghost.storage.streams.insert call.op.name stream, total⟩) := by
  obtain ⟨-, -, hnext, -⟩ := @placed_of_answer ghost next system.shared reply hreply call
  refine h.last hthread hnone hreply hstep rfl ⟨?_, ?_, hlocks,
    h.mapped.keep hthread rfl (hnext.trans htaken.symm), fun i other hne hother => ?_,
    fun _ _ hgrave => .inl hgrave⟩
  · exact ((h.heap.write hlinked stream).record _ _).congr rfl rfl
  · rw [released_of_taken_out htaken]
    exact hcounter
  · obtain ⟨hmode, hsame⟩ := hothers i other hne hother
    exact (h.placed i other hother).write hmode hsame

/-- An operation finishes on an entry that has been taken out. It takes effect before that. -/
theorem Inv.late (h : Inv limits before system ghost) {id position : Nat} {stream : StreamEntry}
    (hthread : system.threads[index]? = some ⟨call, .found id⟩)
    (hplan : plan call (system.shared.entries id) = .finish reply stream)
    (hgrave : ghost.grave id = some position)
    (hothers : ∀ (i : Nat) (other : Thread), i ≠ index → system.threads[i]? = some other →
      other.mode (.entry id) ≠ .exclusive) :
    ∃ after, Inv limits before
      ⟨system.shared.write id stream, system.threads.set index ⟨call, .returned reply⟩⟩ after := by
  obtain ⟨hop, hname, -, -⟩ := h.placed index _ hthread
  obtain ⟨block, hblock, hready, hmain⟩ := (h.heap.graves id position hgrave).block
  have hsame : SameLog (system.shared.entries id) stream := by
    have hrespects := plan_spec call (system.shared.entries id)
    rw [hplan] at hrespects
    exact hrespects.1
  have hstep : step limits call block.ready =
      (reply, ⟨block.ready.streams.insert (ghost.nameOf id) stream, block.ready.totalBytes⟩) := by
    rw [hname] at hready ⊢
    rw [step_on_stream limits hop hready, hplan]
    rfl
  obtain ⟨hlinked, hgrows⟩ := @Linked.insert _ _ _ _ _ _ _ ⟨index, call, reply⟩ _ _ _ h.linked hblock
    hstep (hmain _ stream hready hsame.config hsame.totalBytes)
  refine ⟨{ ghost with blocks := _ }, h.perform hthread rfl rfl hlinked hgrows
    (h.behind index _ hthread id position rfl hgrave) ⟨?_, rfl, fun lock => .inl rfl,
      h.mapped.keep hthread rfl rfl, fun i other hne hother => ?_, fun _ _ hold => .inl hold⟩⟩
  · exact h.heap.late hgrave hblock hsame.config hsame.totalBytes ⟨index, call, reply⟩
  · exact (h.placed i other hother).write (hothers i other hne hother) fun _ =>
      ⟨hsame.config, hsame.totalBytes⟩

/-- Only an operation that locks its entry for writing commits messages. -/
theorem writes_of_commit {stream checked committed : StreamEntry} {messages : List Bytes}
    {refused : Error → Reply} (h : plan call stream = .commit messages checked refused reply committed) :
    writes call.op = true := by
  obtain ⟨clock, op⟩ := call
  cases op with
  | read | head | subscribe => cases h
  | createStream | append | batchAppend | delete | closeStream | appendWithProducer
  | createStreamWithData | «exists» => rfl

/-- What a section can do, and the lock it needs. -/
theorem enter_cases {threads : List Thread} {id : Nat} {later : Shared}
    (h : enter call threads shared id = some (later, next)) :
    canShare Thread.mode threads (.entry id) = true ∧
      ((∃ reply stream, plan call (shared.entries id) = .finish reply stream ∧
        later = shared.write id stream ∧ next = .returned reply) ∨
      ∃ messages stream refused reply committed,
        plan call (shared.entries id) = .commit messages stream refused reply committed ∧
        canLock Thread.mode threads (.entry id) = true ∧ later = shared ∧
        next = .reserving id messages stream refused reply committed) := by
  unfold enter at h
  by_cases hlock : (if writes call.op then canLock Thread.mode threads (.entry id)
      else canShare Thread.mode threads (.entry id)) = true
  · rw [if_pos hlock] at h
    refine ⟨?_, ?_⟩
    · split at hlock
      · exact can_share_of_can_lock hlock
      · exact hlock
    · cases hplan : plan call (shared.entries id) with
      | finish reply stream =>
          rw [hplan] at h
          cases h
          exact .inl ⟨reply, stream, rfl, rfl, rfl⟩
      | commit messages stream refused reply committed =>
          rw [hplan] at h
          cases h
          rw [if_pos (writes_of_commit hplan)] at hlock
          exact .inr ⟨messages, stream, refused, reply, committed, rfl, hlock, rfl, rfl⟩
  · rw [if_neg hlock] at h
    cases h

/-- The section of an operation on a stream. -/
theorem Inv.enter (h : Inv limits before system ghost) {id : Nat}
    (hthread : system.threads[index]? = some ⟨call, .found id⟩)
    (hnext : enter call system.threads system.shared id = some (shared, next)) :
    ∃ after, Inv limits before ⟨shared, system.threads.set index ⟨call, next⟩⟩ after := by
  obtain ⟨hop, hname, hlt, hheld⟩ := h.placed index _ hthread
  obtain ⟨hshare, hcases⟩ := enter_cases hnext
  have hothers (i : Nat) (other : Thread) (_ : i ≠ index) (hother : system.threads[i]? = some other) :
      other.mode (.entry id) ≠ .exclusive :=
    not_exclusive_of_can_share hshare (List.mem_of_getElem? hother)
  rcases hcases with ⟨reply, stream, hplan, rfl, rfl⟩ |
    ⟨messages, stream, refused, reply, committed, hplan, hlock, rfl, rfl⟩
  · rcases hheld with hlinked | hgrave
    · have hsame := plan_spec call (system.shared.entries id)
      rw [hplan] at hsame
      refine ⟨_, h.writes hthread rfl rfl rfl hlinked ?_ rfl (fun lock => .inl rfl)
        fun i other hne hother => ⟨hothers i other hne hother, fun _ =>
          ⟨hsame.1.config, hsame.1.totalBytes⟩⟩⟩
      rw [step_on_stream limits hop (h.lookup hlinked), hplan]
      rfl
    · obtain ⟨position, hposition⟩ := Option.isSome_iff_exists.mp hgrave
      exact h.late hthread hplan hposition hothers
  · refine ⟨ghost, h.silent hthread rfl rfl rfl rfl (fun lock => ?_) (h.mapped.keep hthread rfl rfl)
      ⟨hop, hheld, hplan⟩ fun _ _ harc _ => harc⟩
    simp only [Phase.mode]
    split
    · next heq => exact .inr (.inr (.inr (heq ▸ hlock)))
    · exact .inl rfl

/-- An entry that is still counted is in the explanation, and no create has taken it out. -/
theorem Inv.charged (h : Inv limits before system ghost) {id : Nat} {name : String}
    (hheld : ghost.linked.lookup name = some id ∨ (ghost.grave id).isSome = true)
    (hcharged : Charged system name id) :
    ghost.linked.lookup name = some id ∧ ∀ (i : Nat) (other : Thread),
      system.threads[i]? = some other → other.phase.expired ≠ some id := by
  have htaken {other : Thread} (hexpired : other.phase.expired = some id) :
      other.phase.takenOut = some id := by
    obtain ⟨call, phase⟩ := other
    cases phase with
    | releasing => exact hexpired
    | creating released =>
        cases released with
        | none => cases hexpired
        | some => exact hexpired
    | invoked | found | reserving | probing | deleting | uncharging | claiming | rollback | unlocking
    | returned => cases hexpired
  rcases hcharged with hlookup | ⟨thread, hmem, hdeletes⟩
  · have hlinked : ghost.linked.lookup name = some id := by
      by_cases hnone : ∀ (i : Nat) (other : Thread), system.threads[i]? = some other →
          other.phase.takenOut = none
      · rw [h.mapped.present hnone]
        exact hlookup
      · push Not at hnone
        obtain ⟨i, other, hother, hsome⟩ := hnone
        obtain ⟨found, hfound⟩ := Option.ne_none_iff_exists'.mp hsome
        obtain ⟨hinsert, habsent⟩ := h.mapped.taken i other hother found hfound
        rw [hinsert, FiniteMap.lookup_insert_ite, if_neg]
        · exact hlookup
        · rintro rfl
          rw [hlookup] at habsent
          cases habsent
    refine ⟨hlinked, fun i other hother hexpired => ?_⟩
    obtain ⟨hinsert, habsent⟩ := h.mapped.taken i other hother id (htaken hexpired)
    have hother : ghost.linked.lookup other.call.op.name = some id := by
      rw [hinsert]
      exact Finmap.lookup_insert _
    have hname : name = other.call.op.name :=
      (h.heap.names name id hlinked).1.symm.trans (h.heap.names _ id hother).1
    rw [← hname, hlookup] at habsent
    cases habsent
  · obtain ⟨j, hj⟩ := List.getElem?_of_mem hmem
    obtain ⟨call, phase⟩ := thread
    cases phase with
    | deleting found =>
        obtain rfl := beq_iff_eq.mp hdeletes
        obtain ⟨-, hplaced⟩ := h.placed j _ hj
        constructor
        · rcases hheld with hlinked | hgrave
          · exact hlinked
          · obtain ⟨position, hposition⟩ := Option.isSome_iff_exists.mp hgrave
            exact absurd hplaced ((h.heap.graves _ position hposition).unlinked _)
        · intro i other hother hexpired
          -- Both operations would hold the map locked.
          have hmode : other.mode .map ≠ .free := by
            rw [Thread.mode, exclusive_of_taken_out (htaken hexpired)]
            decide
          obtain rfl := h.locks .map j i _ other hj hother rfl hmode
          obtain rfl := Option.some.inj (hj.symm.trans hother)
          cases hexpired
    | invoked | found | reserving | probing | uncharging | claiming | releasing | creating | rollback
    | unlocking | returned => cases hdeletes

/-- The same verdict, spelled out. -/
theorem SameVerdict.cases {first second bytes : Nat} (h : SameVerdict limits first second bytes) :
    (reserveTotalBytes limits first bytes = none ∧ reserveTotalBytes limits second bytes = none) ∨
    (reserveTotalBytes limits first bytes = some (first + bytes) ∧
      reserveTotalBytes limits second bytes = some (second + bytes)) := by
  unfold SameVerdict at h
  cases hfirst : reserveTotalBytes limits first bytes with
  | none =>
      rw [hfirst] at h
      exact .inl ⟨rfl, Option.isNone_iff_eq_none.mp (by rw [← Option.not_isSome, ← h]; rfl)⟩
  | some reserved =>
      rw [hfirst] at h
      obtain ⟨other, hsecond⟩ := Option.isSome_iff_exists.mp h.symm
      rw [hsecond, (reserve_eq_some_iff.mp hfirst).1, (reserve_eq_some_iff.mp hsecond).1]
      exact .inr ⟨rfl, rfl⟩

/-- An operation on a stream reserves the bytes of its messages. -/
theorem Inv.reserve (h : Inv limits before system ghost) {id : Nat} {messages : List Bytes}
    {stream committed : StreamEntry} {refused : Error → Reply}
    (hthread : system.threads[index]? =
      some ⟨call, .reserving id messages stream refused reply committed⟩)
    (hcharged : Charged system call.op.name id)
    (hverdict : SameVerdict limits system.shared.totalBytes
      (system.shared.totalBytes + releasedBytes system.threads - pendingBytes system.threads)
      (batchBytes messages)) :
    ∃ after, Inv limits before
      ⟨(reserve limits system.shared id messages stream refused reply committed).1,
        system.threads.set index
          ⟨call, (reserve limits system.shared id messages stream refused reply committed).2⟩⟩
      after := by
  obtain ⟨hop, hheld, hplan⟩ := h.placed index _ hthread
  obtain ⟨hlinked, hnone⟩ := h.charged hheld hcharged
  have hothers (i : Nat) (other : Thread) (stream : StreamEntry) (hne : i ≠ index)
      (hother : system.threads[i]? = some other) :
      other.mode (.entry id) ≠ .exclusive ∧ (other.phase.expired = some id →
        stream.config = (system.shared.entries id).config ∧
          stream.totalBytes = (system.shared.entries id).totalBytes) := by
    refine ⟨fun hmode => ?_, fun hexpired => absurd hexpired (hnone i other hother)⟩
    refine hne (h.locks (.entry id) i index other _ hother hthread hmode ?_)
    simp [Thread.mode, Phase.mode]
  have hlocks {held : Phase} (hmode : held.mode = (Phase.unlocking (.entry id) reply).mode) :
      Permitted system.threads
        ⟨call, .reserving id messages stream refused reply committed⟩ held := by
    intro lock
    rw [hmode]
    exact .inr (.inl rfl)
  have hsettled : system.shared.totalBytes + releasedBytes system.threads -
      pendingBytes system.threads = ghost.storage.totalBytes := by
    have hcounter := h.counter
    omega
  rw [hsettled] at hverdict
  have hstep := step_on_stream limits hop (h.lookup hlinked)
  rw [hplan, Plan.run] at hstep
  unfold Concurrent.reserve
  rcases hverdict.cases with ⟨hshared, hstorage⟩ | ⟨hshared, hstorage⟩
  · rw [hshared]
    rw [hstorage] at hstep
    exact ⟨_, h.writes hthread rfl rfl rfl hlinked hstep rfl (hlocks rfl)
      fun i other hne hother => hothers i other _ hne hother⟩
  · rw [hshared]
    rw [hstorage] at hstep
    dsimp only at hstep ⊢
    split
    · next hover =>
        rw [if_pos hover] at hstep
        refine ⟨_, h.writes hthread rfl rfl rfl hlinked hstep ?_ (hlocks rfl)
          fun i other hne hother => hothers i other _ hne hother⟩
        simp only [Phase.pending]
        omega
    · next hover =>
        rw [if_neg hover] at hstep
        refine ⟨_, h.writes hthread rfl rfl rfl hlinked hstep ?_ (hlocks rfl)
          fun i other hne hother => hothers i other _ hne hother⟩
        simp only [Phase.pending]
        omega

/-! ## Creates and deletes -/

/-- An operation has taken effect, and the explanation agrees with the map again. -/
structure Vacates (limits : Limits) (shared : Shared) (ghost : Ghost) (effect : Performed Call Reply)
    (storage : InMemoryStorage) (streams : HashMap StreamEntry) (after : Ghost) : Prop where
  blocks : after.blocks = ghost.blocks ++ [.last ghost.storage effect storage]
  storage : after.storage = storage
  linked : after.linked = shared.streams
  heap : Heap limits shared after streams
  keeps : Extends shared ghost shared after
  graves : ∀ id k, after.grave id = some k → ghost.grave id = some k ∨ k = ghost.blocks.length

/-- An operation that has taken nothing out. -/
theorem Inv.vacates (h : Inv limits before system ghost)
    (hlinked : ghost.linked = system.shared.streams) (effect : Performed Call Reply)
    (storage : InMemoryStorage) :
    Vacates limits system.shared ghost effect storage ghost.storage.streams
      (ghost.record effect storage) :=
  ⟨rfl, rfl, hlinked, h.heap.record effect storage, extends_record effect storage,
    fun _ _ hgrave => .inl hgrave⟩

/-- An operation that has taken an entry out, and does not care what it holds. -/
theorem Inv.vacates_taken (h : Inv limits before system ghost) {name : String} {id : Nat}
    (hlinked : ghost.linked = system.shared.streams.insert name id)
    (hvacant : system.shared.streams.lookup name = none) {effect : Performed Call Reply}
    (hmain : Indifferent limits name effect.input ghost.storage) (storage : InMemoryStorage) :
    Vacates limits system.shared ghost effect storage (ghost.storage.streams.erase name)
      ((ghost.record effect storage).bury name id ghost.blocks.length) := by
  have hlookup : ghost.linked.lookup name = some id := by
    rw [hlinked]
    exact Finmap.lookup_insert _
  refine ⟨rfl, rfl, ?_, h.heap.remove hlookup hmain storage,
    (extends_record effect storage).trans
      (@extends_bury _ (ghost.record effect storage) _ _ hlookup _), fun other k hother => ?_⟩
  · change ghost.linked.erase name = _
    rw [hlinked, FiniteMap.erase_insert, FiniteMap.erase_of_lookup_none hvacant]
  · by_cases heq : other = id
    · rw [heq, Ghost.bury_self] at hother
      exact .inr (Option.some.inj hother).symm
    · rw [Ghost.bury_of_ne heq] at hother
      exact .inl hother

/-- An operation takes effect that has the map locked and puts nothing into it. -/
theorem Inv.vacated (h : Inv limits before system ghost)
    (hthread : system.threads[index]? = some ⟨call, phase⟩) (hnone : phase.answer = none)
    (hreply : next.answer = some reply) {storage : InMemoryStorage}
    (hstep : step limits call ghost.storage = (reply, storage))
    (hvacates : Vacates limits system.shared ghost ⟨index, call, reply⟩ storage storage.streams after)
    {count : Nat} (hcounter : count + ghost.storage.totalBytes =
      system.shared.totalBytes + phase.released + next.pending + storage.totalBytes)
    (hlocks : Permitted system.threads ⟨call, phase⟩ next) (halone : Alone system.threads index) :
    Inv limits before ⟨system.shared.count count, system.threads.set index ⟨call, next⟩⟩ after := by
  obtain ⟨-, -, htaken, -⟩ := @placed_of_answer ghost next system.shared reply hreply call
  obtain rfl := hvacates.storage
  refine h.last hthread hnone hreply hstep hvacates.blocks ⟨hvacates.heap.congr rfl rfl, hcounter,
    hlocks, .settle hthread halone htaken hvacates.linked, fun i other hne hother => ?_,
    hvacates.graves⟩
  exact (h.placed i other hother).extend (halone i other hne hother) h.heap
    (hvacates.keeps.trans (extends_count count))

/-- An operation takes effect that has the map locked and puts a new entry into it. -/
theorem Inv.inserted (h : Inv limits before system ghost)
    (hthread : system.threads[index]? = some ⟨call, phase⟩) (hnone : phase.answer = none)
    (hreply : next.answer = some reply) {streams : HashMap StreamEntry} {name : String}
    {stream : StreamEntry} {total : Nat}
    (hstep : step limits call ghost.storage = (reply, ⟨streams.insert name stream, total⟩))
    (hvacates : Vacates limits system.shared ghost ⟨index, call, reply⟩
      ⟨streams.insert name stream, total⟩ streams after)
    (hvacant : system.shared.streams.lookup name = none) {count : Nat}
    (hcounter : count + ghost.storage.totalBytes =
      system.shared.totalBytes + phase.released + next.pending + total)
    (hlocks : Permitted system.threads ⟨call, phase⟩ next) (halone : Alone system.threads index) :
    Inv limits before
      ⟨(system.shared.count count).insert name stream, system.threads.set index ⟨call, next⟩⟩
      (after.link name system.shared.allocated) := by
  obtain ⟨-, -, htaken, -⟩ := @placed_of_answer ghost next system.shared reply hreply call
  have hstorage : (after.link name system.shared.allocated).storage =
      ⟨streams.insert name stream, total⟩ := hvacates.storage
  have hlinked : after.linked.lookup name = none := by
    rw [hvacates.linked]
    exact hvacant
  refine h.last hthread hnone hreply (hstep.trans (by rw [hstorage])) ?_
    ⟨?_, ?_, hlocks, .settle hthread halone htaken ?_, fun i other hne hother => ?_, hvacates.graves⟩
  · rw [hstorage]
    exact hvacates.blocks
  · rw [hstorage]
    exact (hvacates.heap.link stream).congr rfl rfl
  · rw [hstorage]
    exact hcounter
  · change after.linked.insert name _ = _
    rw [hvacates.linked]
    rfl
  · exact (h.placed i other hother).extend (halone i other hne hother) h.heap
      (hvacates.keeps.trans ((extends_count count).trans (extends_link hlinked stream)))

/-- A create finds no entry of its name any more, and goes on from a storage without it. -/
structure Cleared (limits : Limits) (shared : Shared) (ghost : Ghost) (call : Call)
    (create : Creation) (free : InMemoryStorage) : Prop where
  step : step limits call ghost.storage = create.settle limits call free
  vacant : shared.streams.lookup call.op.name = none
  vacates : ∀ caller reply storage, ∃ after,
    Vacates limits shared ghost ⟨caller, call, reply⟩ storage free.streams after

section Creates

variable {create : Creation} {free : InMemoryStorage}

/-- There was no entry. -/
theorem Inv.cleared (h : Inv limits before system ghost) (hcreation : creation call.op = some create)
    (hlinked : ghost.linked = system.shared.streams)
    (hvacant : system.shared.streams.lookup call.op.name = none) :
    Cleared limits system.shared ghost call create ghost.storage := by
  refine ⟨?_, hvacant, fun caller reply storage => ⟨_, h.vacates hlinked _ storage⟩⟩
  rw [step_create limits hcreation, h.heap.streams, hlinked, hvacant]
  rfl

/-- An expired entry has been taken out. -/
theorem Inv.cleared_taken (h : Inv limits before system ghost)
    (hthread : system.threads[index]? = some ⟨call, phase⟩)
    (hcreation : creation call.op = some create) {id : Nat} (htaken : phase.takenOut = some id)
    (hexpired : isStreamExpired call.clock.expiry (system.shared.entries id).config = true) :
    Cleared limits system.shared ghost call create
        (removeStream ghost.storage call.op.name (system.shared.entries id)) ∧
      (removeStream ghost.storage call.op.name (system.shared.entries id)).totalBytes +
        (system.shared.entries id).totalBytes = ghost.storage.totalBytes := by
  obtain ⟨hlinked, hvacant⟩ := h.mapped.taken index _ hthread id htaken
  have hlookup : ghost.linked.lookup call.op.name = some id := by
    rw [hlinked]
    exact Finmap.lookup_insert _
  have hstream := h.lookup hlookup
  refine ⟨⟨?_, hvacant, fun caller reply storage => ⟨_, h.vacates_taken hlinked hvacant ?_ storage⟩⟩,
    Nat.sub_add_cancel (h.bytes_le hlookup)⟩
  · rw [step_create limits hcreation, hstream]
    simp only [hexpired, if_true]
  · refine create_indifferent limits hcreation fun stream hfound => ?_
    obtain rfl := Option.some.inj (hstream.symm.trans hfound)
    exact hexpired

/-- A thread that has the map locked keeps it so. -/
theorem permitted_map (h : phase.mode .map = .exclusive ∨
      canLock Thread.mode system.threads .map = true)
    (hnext : ∀ lock, lock ≠ .map → next.mode lock = .free) :
    next.mode .map = .exclusive → Permitted system.threads ⟨call, phase⟩ next := by
  intro hmap lock
  by_cases hlock : lock = .map
  · subst hlock
    rcases h with hmode | hlock
    · exact .inr (.inl (hmap.trans hmode.symm))
    · exact .inr (.inr (.inr hlock))
  · exact .inl (hnext lock hlock)

/-- A create without messages puts its entry in. -/
theorem Cleared.empty (hcleared : Cleared limits system.shared ghost call create free)
    (h : Inv limits before system ghost) (hthread : system.threads[index]? = some ⟨call, phase⟩)
    (hnone : phase.answer = none) (hempty : create.messages.isEmpty = true) {count : Nat}
    (hcounter : count + ghost.storage.totalBytes =
      system.shared.totalBytes + phase.released + free.totalBytes)
    (hmode : phase.mode .map = .exclusive ∨ canLock Thread.mode system.threads .map = true)
    (halone : Alone system.threads index) :
    ∃ after, Inv limits before
      ⟨(system.shared.count count).insert call.op.name (create.entry call.clock),
        system.threads.set index
          ⟨call, .unlocking .map (create.reply (create.entry call.clock))⟩⟩ after := by
  have hstep := hcleared.step
  rw [Creation.settle, if_pos hempty] at hstep
  obtain ⟨after, hvacates⟩ := hcleared.vacates index _ _
  exact ⟨_, h.inserted hthread hnone rfl hstep hvacates hcleared.vacant hcounter
    (permitted_map hmode (fun lock hlock => if_neg hlock) rfl) halone⟩

/-- A create reserves the bytes of its messages. -/
theorem Cleared.reserve (hcleared : Cleared limits system.shared ghost call create free)
    (h : Inv limits before system ghost) (hthread : system.threads[index]? = some ⟨call, phase⟩)
    (hnone : phase.answer = none) (hmessages : create.messages.isEmpty = false)
    (hcounter : phase.released + free.totalBytes = ghost.storage.totalBytes)
    (hverdict : SameVerdict limits system.shared.totalBytes free.totalBytes
      (batchBytes create.messages))
    (hmode : phase.mode .map = .exclusive) (halone : Alone system.threads index) :
    ∃ after, Inv limits before
      ⟨(Concurrent.create limits call system.shared create).1, system.threads.set index
        ⟨call, (Concurrent.create limits call system.shared create).2⟩⟩ after := by
  have hlocks {held : Phase} (hheld : ∀ lock, held.mode lock = if lock = .map then .exclusive else .free) :
      Permitted system.threads ⟨call, phase⟩ held :=
    permitted_map (.inl hmode) (fun lock hlock => (hheld lock).trans (if_neg hlock)) (hheld .map)
  have hstep := hcleared.step
  rw [Creation.settle, hmessages, if_neg Bool.false_ne_true] at hstep
  unfold Concurrent.create
  rcases hverdict.cases with ⟨hshared, hfree⟩ | ⟨hshared, hfree⟩
  · rw [hshared]
    rw [hfree] at hstep
    obtain ⟨after, hvacates⟩ := hcleared.vacates index (create.refused .memoryLimitExceeded) free
    refine ⟨_, h.vacated hthread hnone rfl hstep hvacates ?_ (hlocks fun _ => rfl) halone⟩
    change system.shared.totalBytes + ghost.storage.totalBytes =
      system.shared.totalBytes + phase.released + 0 + free.totalBytes
    omega
  · rw [hshared]
    rw [hfree] at hstep
    dsimp only at hstep ⊢
    split
    · next hover =>
        rw [if_pos hover] at hstep
        obtain ⟨after, hvacates⟩ := hcleared.vacates index (create.refused .streamSizeLimitExceeded)
          ⟨free.streams, free.totalBytes + batchBytes create.messages - batchBytes create.messages⟩
        refine ⟨_, h.vacated hthread hnone rfl hstep hvacates ?_ (hlocks fun _ => rfl) halone⟩
        simp only [Phase.pending]
        omega
    · next hover =>
        rw [if_neg hover] at hstep
        obtain ⟨after, hvacates⟩ := hcleared.vacates index (create.reply (create.entry call.clock))
          ⟨free.streams.insert call.op.name (create.entry call.clock),
            free.totalBytes + batchBytes create.messages⟩
        refine ⟨_, h.inserted hthread hnone rfl hstep hvacates hcleared.vacant ?_
          (hlocks fun _ => rfl) halone⟩
        simp only [Phase.pending]
        omega

end Creates

/-! ## One step -/

/-- What `get_stream`, `exists`, `delete` and an empty batch do first. -/
theorem Inv.invoke (h : Inv limits before system ghost)
    (hthread : system.threads[index]? = some ⟨call, .invoked⟩) (hcreation : creation call.op = none)
    (hnext : invoke call system.threads system.shared = some (shared, next)) :
    ∃ after, Inv limits before ⟨shared, system.threads.set index ⟨call, next⟩⟩ after := by
  have hstream (hshare : canShare Thread.mode system.threads .map = true) :
      ghost.storage.streams.lookup call.op.name =
        (system.shared.streams.lookup call.op.name).map system.shared.entries := by
    rw [h.heap.streams, h.linked_eq hshare]
  unfold Concurrent.invoke at hnext
  by_cases hop : onStream call.op = true
  · rw [if_pos hop] at hnext
    split at hnext
    · next hshare =>
        have hlinked := h.linked_eq hshare
        cases hlookup : system.shared.streams.lookup call.op.name with
        | none =>
            rw [hlookup] at hnext
            cases hnext
            refine ⟨_, h.returns hthread rfl rfl ?_⟩
            rw [step_of_stream_op limits _ hop, hstream hshare, hlookup]
            rfl
        | some id =>
            rw [hlookup] at hnext
            cases hnext
            rw [← hlinked] at hlookup
            obtain ⟨hname, hlt⟩ := h.heap.names _ id hlookup
            refine ⟨ghost, h.silent hthread rfl rfl rfl rfl (fun lock => .inl rfl)
              (h.mapped.keep hthread rfl rfl) ⟨hop, hname, hlt, .inl hlookup⟩
              fun found k hfound hgrave => ?_⟩
            obtain rfl := Option.some.inj hfound
            exact absurd hlookup ((h.heap.graves _ k hgrave).unlinked _)
    · cases hnext
  · rw [if_neg hop] at hnext
    obtain ⟨clock, op⟩ := call
    cases op with
    | «exists» name =>
        dsimp only at hnext
        split at hnext
        · next hshare =>
            have hlinked := h.linked_eq hshare
            cases hlookup : system.shared.streams.lookup name with
            | none =>
                rw [show (Op.exists name).name = name from rfl, hlookup] at hnext
                cases hnext
                refine ⟨_, h.returns hthread rfl rfl ?_⟩
                have habsent := hstream hshare
                rw [show (Op.exists name).name = name from rfl, hlookup] at habsent
                simp only [step, existsStream, habsent, Option.map_none]
            | some id =>
                rw [show (Op.exists name).name = name from rfl, hlookup] at hnext
                cases hnext
                refine ⟨ghost, h.silent hthread rfl rfl rfl rfl (fun lock => ?_)
                  (h.mapped.keep hthread rfl rfl) ⟨⟨name, rfl⟩, hlinked ▸ hlookup⟩
                  fun _ _ hfound _ => hfound⟩
                simp only [Phase.mode]
                split
                · next heq => exact .inr (.inr (.inl ⟨rfl, heq ▸ hshare⟩))
                · exact .inl rfl
        · cases hnext
    | delete name =>
        dsimp only at hnext
        split at hnext
        · next hlock =>
            have hlinked := h.linked_eq (can_share_of_can_lock hlock)
            cases hlookup : system.shared.streams.lookup name with
            | none =>
                rw [show (Op.delete name).name = name from rfl, hlookup] at hnext
                cases hnext
                refine ⟨_, h.returns hthread rfl rfl ?_⟩
                have habsent := hstream (can_share_of_can_lock hlock)
                rw [show (Op.delete name).name = name from rfl, hlookup] at habsent
                simp only [step, delete, habsent, Option.map_none]
                rfl
            | some id =>
                rw [show (Op.delete name).name = name from rfl, hlookup] at hnext
                cases hnext
                refine ⟨ghost, h.silent hthread rfl rfl rfl rfl
                  (permitted_map (.inr hlock) (fun lock hne => if_neg hne) rfl)
                  (.take hlinked hthread (alone_of_can_lock hlock index) hlookup rfl)
                  ⟨⟨name, rfl⟩, hlinked ▸ hlookup⟩ fun _ _ hfound _ => hfound⟩
        · cases hnext
    | batchAppend name messages contentType seq fits =>
        cases hnext
        refine ⟨_, h.returns hthread rfl rfl ?_⟩
        have hempty : messages.isEmpty = true := by simpa [onStream] using hop
        simp only [step, batchAppend, hempty, if_true]
        rfl
    | createStream | createStreamWithData => cases hcreation
    | append | read | head | closeStream | appendWithProducer | subscribe => cases hnext

/-- A create that knows that its messages have to be reserved. -/
theorem creating_placed {create : Creation} (hcreation : creation call.op = some create)
    (hmessages : create.messages.isEmpty = false) (other : Creation)
    (hother : creation call.op = some other) : other.messages.isEmpty = false := by
  obtain rfl := Option.some.inj (hcreation.symm.trans hother)
  exact hmessages

/-- The first step of a create. -/
theorem Inv.claim (h : Inv limits before system ghost) {create : Creation}
    (hthread : system.threads[index]? = some ⟨call, .invoked⟩)
    (hcreation : creation call.op = some create)
    (hnext : claim call system.threads system.shared create = some (shared, next)) :
    ∃ after, Inv limits before ⟨shared, system.threads.set index ⟨call, next⟩⟩ after := by
  unfold Concurrent.claim at hnext
  split at hnext
  · next hlock =>
    have hlinked := h.linked_eq (can_share_of_can_lock hlock)
    have halone := alone_of_can_lock hlock index
    cases hlookup : system.shared.streams.lookup call.op.name with
    | none =>
        rw [hlookup] at hnext
        dsimp only at hnext
        cases hmessages : create.messages.isEmpty with
        | true =>
            rw [proceed, if_pos hmessages] at hnext
            cases hnext
            exact (h.cleared hcreation hlinked hlookup).empty h hthread rfl hmessages rfl (.inr hlock)
              halone
        | false =>
            rw [proceed, hmessages, if_neg Bool.false_ne_true] at hnext
            cases hnext
            exact ⟨ghost, h.silent hthread rfl rfl rfl rfl
              (permitted_map (.inr hlock) (fun lock hne => if_neg hne) rfl)
              (h.mapped.keep hthread rfl rfl)
              ⟨creating_placed hcreation hmessages, by rw [hlinked]; exact hlookup⟩
              fun _ _ hfound _ => hfound⟩
    | some id =>
        rw [hlookup] at hnext
        cases hnext
        exact ⟨ghost, h.silent hthread rfl rfl rfl rfl
          (permitted_map (.inr hlock) (fun lock hne => if_neg hne) rfl)
          (h.mapped.keep hthread rfl rfl) (hlinked ▸ hlookup : ghost.linked.lookup _ = some id)
          fun _ _ hfound _ => hfound⟩
  · cases hnext

/-- The explanation has the entries of the map while one thread holds its lock and has taken nothing
out. -/
theorem Inv.linked_eq_of_alone (h : Inv limits before system ghost)
    (hthread : system.threads[index]? = some ⟨call, phase⟩) (halone : Alone system.threads index)
    (htaken : phase.takenOut = none) : ghost.linked = system.shared.streams := by
  refine h.mapped.present fun i other hother => ?_
  by_cases hindex : i = index
  · subst hindex
    obtain rfl := Option.some.inj (hthread.symm.trans hother)
    exact htaken
  · exact halone.taken_out hindex hother

/-- A create looks at the entry of its name. -/
theorem Inv.claimed (h : Inv limits before system ghost) {id : Nat} {create : Creation}
    (hthread : system.threads[index]? = some ⟨call, .claiming id⟩)
    (hcreation : creation call.op = some create) :
    ∃ after, Inv limits before
      (if isStreamExpired call.clock.expiry (system.shared.entries id).config then
        ⟨system.shared.remove call.op.name, system.threads.set index
          ⟨call, .releasing id (system.shared.entries id).totalBytes⟩⟩
      else ⟨system.shared, system.threads.set index
        ⟨call, .returned (create.existing (system.shared.entries id))⟩⟩) after := by
  have hlookup : ghost.linked.lookup call.op.name = some id := h.placed index _ hthread
  have halone := alone_of_exclusive h.locks hthread rfl
  have hlinked := h.linked_eq_of_alone hthread halone rfl
  split
  · next hexpired =>
      exact ⟨ghost, h.silent hthread rfl rfl rfl rfl
        (permitted_map (.inl rfl) (fun lock hne => if_neg hne) rfl)
        (.take hlinked hthread halone (hlinked ▸ hlookup) rfl) ⟨hlookup, rfl, hexpired⟩
        fun _ _ hfound _ => hfound⟩
  · next hlive =>
      refine ⟨_, h.returns hthread rfl rfl ?_⟩
      rw [step_create limits hcreation, h.lookup hlookup]
      dsimp only
      rw [if_neg hlive]

/-- A create has taken the bytes of an expired entry off the counter. -/
theorem Inv.released (h : Inv limits before system ghost) {id bytes : Nat} {create : Creation}
    (hthread : system.threads[index]? = some ⟨call, .releasing id bytes⟩)
    (hcreation : creation call.op = some create) :
    ∃ after, Inv limits before
      ⟨(proceed call (system.shared.count (system.shared.totalBytes - bytes)) create
          (some (id, bytes))).1,
        system.threads.set index ⟨call, (proceed call
          (system.shared.count (system.shared.totalBytes - bytes)) create (some (id, bytes))).2⟩⟩
      after := by
  obtain ⟨hlookup, rfl, hexpired⟩ := h.placed index _ hthread
  have halone := alone_of_exclusive h.locks hthread rfl
  have hnone : releasedBytes system.threads = 0 := halone.released hthread
  have hle := h.bytes_le hlookup
  have hcounter := h.counter
  rw [proceed]
  cases hmessages : create.messages.isEmpty with
  | true =>
      obtain ⟨hcleared, htotal⟩ := h.cleared_taken hthread hcreation rfl hexpired
      refine hcleared.empty h hthread rfl hmessages ?_ (.inl rfl) halone
      simp only [Phase.released]
      omega
  | false =>
      refine ⟨ghost, h.silent hthread rfl rfl rfl ?_
        (permitted_map (.inl rfl) (fun lock hne => if_neg hne) rfl) (h.mapped.keep hthread rfl rfl)
        ⟨creating_placed hcreation hmessages, hlookup, rfl, hexpired⟩ fun _ _ hfound _ => hfound⟩
      simp only [Bool.false_eq_true, if_false, Phase.released, Phase.pending, Shared.count]
      omega

/-- The messages of a create. -/
theorem creation_messages {create : Creation} (h : creation call.op = some create) :
    create.messages = call.op.messages := by
  obtain ⟨clock, op⟩ := call
  cases op with
  | createStream | createStreamWithData =>
      obtain rfl := Option.some.inj h
      rfl
  | append | batchAppend | read | delete | head | closeStream | appendWithProducer | «exists»
  | subscribe => cases h

/-- A create has the name to itself when it reserves bytes. -/
theorem Inv.creating_cleared (h : Inv limits before system ghost) {create : Creation}
    {released : Option (Nat × Nat)}
    (hthread : system.threads[index]? = some ⟨call, .creating released⟩)
    (hcreation : creation call.op = some create) :
    ∃ free, Cleared limits system.shared ghost call create free ∧
      (Phase.creating released).released + free.totalBytes = ghost.storage.totalBytes := by
  obtain ⟨-, hplaced⟩ := h.placed index _ hthread
  cases released with
  | none =>
      have hlinked := h.linked_eq_of_alone hthread (alone_of_exclusive h.locks hthread rfl) rfl
      exact ⟨ghost.storage, h.cleared hcreation hlinked (hlinked ▸ hplaced), Nat.zero_add _⟩
  | some released =>
      obtain ⟨id, bytes⟩ := released
      obtain ⟨-, rfl, hexpired⟩ := hplaced
      obtain ⟨hcleared, htotal⟩ := h.cleared_taken hthread hcreation rfl hexpired
      exact ⟨_, hcleared, (Nat.add_comm _ _).trans htotal⟩

/-- A create reserves bytes. -/
theorem Inv.creates (h : Inv limits before system ghost) {create : Creation}
    {released : Option (Nat × Nat)}
    (hthread : system.threads[index]? = some ⟨call, .creating released⟩)
    (hcreation : creation call.op = some create)
    (hverdict : SameVerdict limits system.shared.totalBytes
      (system.shared.totalBytes - pendingBytes system.threads) (batchBytes call.op.messages)) :
    ∃ after, Inv limits before
      ⟨(Concurrent.create limits call system.shared create).1, system.threads.set index
        ⟨call, (Concurrent.create limits call system.shared create).2⟩⟩ after := by
  obtain ⟨free, hcleared, htotal⟩ := h.creating_cleared hthread hcreation
  have halone := alone_of_exclusive h.locks hthread rfl
  have hsettled : system.shared.totalBytes - pendingBytes system.threads = free.totalBytes := by
    have hcounter := h.counter
    have hreleased := halone.released hthread
    dsimp only at hreleased
    omega
  rw [hsettled, ← creation_messages hcreation] at hverdict
  exact hcleared.reserve h hthread rfl ((h.placed index _ hthread).1 create hcreation) htotal hverdict
    rfl halone

/-- A delete takes the bytes of its entry off the counter. -/
theorem Inv.uncharges (h : Inv limits before system ghost) {id : Nat}
    (hthread : system.threads[index]? = some ⟨call, .uncharging id⟩) :
    ∃ after, Inv limits before
      ⟨system.shared.count (system.shared.totalBytes - (system.shared.entries id).totalBytes),
        system.threads.set index ⟨call, .returned (.done (.ok ()))⟩⟩ after := by
  obtain ⟨⟨name, hop⟩, hlookup⟩ := h.placed index _ hthread
  obtain ⟨clock, op⟩ := call
  obtain rfl : op = .delete name := hop
  have halone := alone_of_exclusive h.locks hthread rfl
  have hnone : releasedBytes system.threads = 0 := halone.released hthread
  obtain ⟨hlinked, hvacant⟩ := h.mapped.taken index _ hthread id rfl
  have hstep : step limits ⟨clock, .delete name⟩ ghost.storage =
      (.done (.ok ()), removeStream ghost.storage name (system.shared.entries id)) := by
    have hstream : ghost.storage.streams.lookup name = some (system.shared.entries id) :=
      h.lookup hlookup
    simp only [step, delete, hstream]
    rfl
  have hvacates := @Inv.vacates_taken _ _ _ _ h name id hlinked hvacant
    ⟨index, ⟨clock, .delete name⟩, .done (.ok ())⟩ (delete_indifferent limits clock name _)
    (removeStream ghost.storage name (system.shared.entries id))
  refine ⟨_, h.vacated hthread rfl rfl hstep hvacates ?_ (fun lock => .inl rfl) halone⟩
  have hle := h.bytes_le hlookup
  have hcounter := h.counter
  simp only [Phase.released, Phase.pending, removeStream]
  omega

/-- Bytes that were reserved are given back. -/
theorem Inv.rolls_back (h : Inv limits before system ghost) {held : Lock} {bytes : Nat}
    (hthread : system.threads[index]? = some ⟨call, .rollback held bytes reply⟩) :
    Inv limits before ⟨system.shared.count (system.shared.totalBytes - bytes),
      system.threads.set index ⟨call, .unlocking held reply⟩⟩ ghost := by
  refine h.silent hthread rfl rfl rfl ?_ (fun lock => .inr (.inl rfl)) (h.mapped.keep hthread rfl rfl)
    trivial fun _ _ hfound _ => hfound
  have hreleased := h.released_le
  have hcounter := h.counter
  have hpending := @sum_set _ _ _ (fun other => other.phase.pending) ⟨call, .unlocking held reply⟩
    hthread
  simp only [Phase.pending, Phase.released, Shared.count, pendingBytes] at hpending hcounter ⊢
  omega

/-- One step of an operation. -/
theorem Inv.advance (h : Inv limits before system ghost)
    (hthread : system.threads[index]? = some ⟨call, phase⟩)
    (hundisturbed : Undisturbed limits (.run index ()) system)
    (hnext : advance limits call system.threads system.shared phase = some (shared, next)) :
    ∃ after, Inv limits before ⟨shared, system.threads.set index ⟨call, next⟩⟩ after := by
  have hcondition := hundisturbed ⟨call, phase⟩ hthread
  unfold Concurrent.advance at hnext
  cases phase with
  | invoked =>
      dsimp only at hnext
      cases hcreation : creation call.op with
      | none =>
          rw [hcreation] at hnext
          exact h.invoke hthread hcreation hnext
      | some create =>
          rw [hcreation] at hnext
          exact h.claim hthread hcreation hnext
  | found id => exact h.enter hthread hnext
  | reserving id messages stream refused reply committed =>
      have hreserve := h.reserve hthread hcondition.1 hcondition.2
      rw [Option.some.inj hnext] at hreserve
      exact hreserve
  | probing id =>
      dsimp only at hnext
      split at hnext
      · cases hnext
        obtain ⟨⟨name, hop⟩, hlookup⟩ := h.placed index _ hthread
        obtain ⟨clock, op⟩ := call
        obtain rfl : op = .exists name := hop
        have hstream : ghost.storage.streams.lookup name = some (system.shared.entries id) :=
          h.lookup hlookup
        refine ⟨_, h.returns hthread rfl rfl ?_⟩
        simp only [step, existsStream, hstream]
      · cases hnext
  | deleting id =>
      dsimp only at hnext
      split at hnext
      · next hshare =>
          cases hnext
          have hplaced := h.placed index _ hthread
          refine ⟨ghost, h.silent hthread rfl rfl rfl rfl (fun lock => ?_)
            (h.mapped.keep hthread rfl rfl) hplaced fun _ _ hfound _ => hfound⟩
          simp only [Phase.mode]
          split
          · exact .inr (.inl rfl)
          · split
            · next heq => exact .inr (.inr (.inl ⟨rfl, heq ▸ hshare⟩))
            · exact .inl rfl
      · cases hnext
  | uncharging id =>
      cases hnext
      exact h.uncharges hthread
  | claiming id =>
      dsimp only at hnext
      split at hnext
      · cases hcreation : creation call.op with
        | none =>
            rw [hcreation] at hnext
            cases hnext
        | some create =>
            rw [hcreation] at hnext
            obtain ⟨after, hafter⟩ := h.claimed hthread hcreation
            refine ⟨after, ?_⟩
            rw [Option.map_some] at hnext
            split at hnext
            · next hexpired =>
                cases hnext
                rw [if_pos hexpired] at hafter
                exact hafter
            · next hlive =>
                cases hnext
                rw [if_neg hlive] at hafter
                exact hafter
      · cases hnext
  | releasing id bytes =>
      dsimp only at hnext
      obtain ⟨create, hcreation, hproceed⟩ := Option.map_eq_some_iff.mp hnext
      have hreleased := h.released hthread hcreation
      rw [hproceed] at hreleased
      exact hreleased
  | creating released =>
      dsimp only at hnext
      obtain ⟨create, hcreation, hcreate⟩ := Option.map_eq_some_iff.mp hnext
      have hcreates := h.creates hthread hcreation hcondition
      rw [hcreate] at hcreates
      exact hcreates
  | rollback held bytes reply =>
      cases hnext
      exact ⟨ghost, h.rolls_back hthread⟩
  | unlocking held reply =>
      cases hnext
      exact ⟨ghost, h.silent hthread rfl rfl rfl rfl (fun lock => .inl rfl)
        (h.mapped.keep hthread rfl rfl) trivial fun _ _ hfound _ => hfound⟩
  | returned reply => cases hnext

end Steps

/-! ## Runs -/

section Runs

variable {limits : Limits} {before : Nat → Nat → Prop} {system : System Shared Thread} {ghost : Ghost}

/-- An operation is called. -/
theorem Inv.spawn (h : Inv limits before system ghost) (call : Call) :
    Inv limits before ⟨system.shared, system.threads ++ [⟨call, .invoked⟩]⟩ ghost := by
  have hold {i : Nat} {other : Thread} (hother : system.threads[i]? = some other) :
      (system.threads ++ [⟨call, .invoked⟩])[i]? = some other := by
    rw [List.getElem?_append_left (List.getElem?_eq_some_iff.mp hother).1]
    exact hother
  refine ⟨h.linked, ?_, h.heap, ?_, h.locks.concat fun _ => rfl,
    ⟨fun hall => h.mapped.present fun i other hother => hall i other (hold hother), ?_⟩, ?_, ?_⟩
  · have hsame : outcome (system.threads ++ [⟨call, .invoked⟩]) = outcome system.threads := by
      funext i
      unfold outcome
      rcases Nat.lt_or_ge i system.threads.length with hlt | hge
      · rw [List.getElem?_append_left hlt]
      · rw [List.getElem?_append_right hge, List.getElem?_eq_none hge, List.getElem?_singleton]
        split <;> rfl
    rw [hsame]
    exact h.recorded
  · have hcounter := h.counter
    simpa [releasedBytes, pendingBytes, Phase.released, Phase.pending] using hcounter
  · intro i other hother id hid
    rcases Machine.get_concat hother with hother | ⟨-, rfl⟩
    · exact h.mapped.taken i other hother id hid
    · cases hid
  · intro i other hother
    rcases Machine.get_concat hother with hother | ⟨-, rfl⟩
    · exact h.placed i other hother
    · trivial
  · intro j other hother id k hid
    rcases Machine.get_concat hother with hother | ⟨-, rfl⟩
    · exact h.behind j other hother id k hid
    · cases hid

/-- Operations that have returned come before those that are not called yet. -/
theorem Inv.extend (h : Inv limits before system ghost) {extended : Nat → Nat → Prop}
    (hextended : ∀ i j, extended i j → before i j ∨
      ((∃ thread, system.threads[i]? = some thread ∧ thread.phase.isReturned = true) ∧
        system.threads.length ≤ j)) :
    Inv limits extended system ghost := by
  refine ⟨h.linked, h.recorded.extend fun i j hij => ?_, h.heap, h.counter, h.locks, h.mapped,
    h.placed, fun j thread hthread id k hid hgrave i hij => ?_⟩
  · rcases hextended i j hij with hbefore | ⟨⟨⟨call, phase⟩, hthread, hreturned⟩, hlength⟩
    · exact .inl hbefore
    · refine .inr ⟨?_, by rw [outcome, List.getElem?_eq_none hlength, Option.bind_none]⟩
      rw [outcome, hthread]
      cases phase with
      | returned reply => rfl
      | invoked | found | reserving | probing | deleting | uncharging | claiming | releasing
      | creating | rollback | unlocking => cases hreturned
  · rcases hextended i j hij with hbefore | ⟨-, hlength⟩
    · exact h.behind j thread hthread id k hid hgrave i hbefore
    · rw [List.getElem?_eq_none hlength] at hthread
      cases hthread

/-- One action of an undisturbed run. -/
theorem Inv.act (h : Inv limits before system ghost) {action : Action Call Unit}
    (hundisturbed : Undisturbed limits action system) :
    ∃ after, Inv limits before ((machine limits).act system action) after := by
  cases action with
  | spawn call => exact ⟨ghost, h.spawn call⟩
  | run index choice =>
      unfold Machine.act
      dsimp only
      cases hthread : system.threads[index]? with
      | none => exact ⟨ghost, h⟩
      | some thread =>
          dsimp only
          cases hadvance : Concurrent.advance limits thread.call system.threads system.shared
              thread.phase with
          | none =>
              have hnext : (machine limits).next choice system thread = none := by
                simp only [machine, hadvance, Option.map_none]
              rw [hnext]
              exact ⟨ghost, h⟩
          | some result =>
              have hnext : (machine limits).next choice system thread =
                  some (result.1, ⟨thread.call, result.2⟩) := by
                simp only [machine, hadvance, Option.map_some]
              rw [hnext]
              exact h.advance hthread hundisturbed hadvance

/-- What comes before what after one more action. -/
theorem precedes_concat {past : List (Action Call Unit)} {action : Action Call Unit} {i j : Nat}
    (h : Precedes limits (past ++ [action]) i j) :
    Precedes limits past i j ∨
      ((∃ thread, (run limits (past ++ [action])).threads[i]? = some thread ∧
        thread.phase.isReturned = true) ∧
        (run limits (past ++ [action])).threads.length ≤ j) := by
  obtain ⟨front, back, hsplit, hreturned, hlength⟩ := h
  rcases back.eq_nil_or_concat with rfl | ⟨rest, last, rfl⟩
  · rw [List.append_nil] at hsplit
    rw [hsplit]
    exact .inr ⟨hreturned, hlength⟩
  · rw [List.concat_eq_append, ← List.append_assoc] at hsplit
    exact .inl ⟨front, rest, (List.append_inj' hsplit rfl).1, hreturned, hlength⟩

/-- Every undisturbed run is explained. -/
theorem undisturbed_explained {actions : List (Action Call Unit)}
    (h : Along (machine limits).step (Undisturbed limits) actions ⟨.new, []⟩) :
    ∃ ghost, Inv limits (Precedes limits actions) (run limits actions) ghost := by
  refine @exec_history _ _ _ _ _
    (fun past => ∃ ghost, Inv limits (Precedes limits past) (run limits past) ghost) _ ?_ ?_ _ h
  · refine ⟨⟨[], .new, ∅, fun _ => "", fun _ => none⟩, rfl, ⟨?_, List.nodup_nil, ?_⟩,
      ⟨fun _ => rfl, ?_, ?_, ?_⟩, rfl, ?_, ⟨fun _ => rfl, ?_⟩, ?_, ?_⟩
    · intro effect
      exact ⟨fun hmem => absurd hmem List.not_mem_nil, fun hsome => by cases hsome⟩
    · rintro i j ⟨front, back, hsplit, ⟨thread, hthread, -⟩, -⟩
      obtain ⟨rfl, rfl⟩ := List.append_eq_nil_iff.mp hsplit.symm
      cases hthread
    · exact fun _ _ hid => by cases hid
    · exact fun _ _ hid => by cases hid
    · exact fun _ _ _ hid => by cases hid
    · exact fun _ _ _ _ _ hthread => by cases hthread
    · exact fun _ _ hthread => by cases hthread
    · exact fun _ _ hthread => by cases hthread
    · exact fun _ _ hthread => by cases hthread
  · rintro past action hundisturbed ⟨ghost, hghost⟩
    obtain ⟨after, hafter⟩ := hghost.act hundisturbed
    have hrun : run limits (past ++ [action]) = (machine limits).act (run limits past) action :=
      exec_concat past action _
    rw [← hrun] at hafter
    exact ⟨after, hafter.extend fun i j => precedes_concat⟩

end Runs

/-! ## Serializability -/

section Finished

variable {limits : Limits} {before : Nat → Nat → Prop} {system : System Shared Thread} {ghost : Ghost}

/-- The phase of an operation that has returned. -/
theorem Finished.phase (h : Finished system) {i : Nat} {thread : Thread}
    (hthread : system.threads[i]? = some thread) : ∃ reply, thread.phase = .returned reply := by
  have hdone := h thread (List.mem_of_getElem? hthread)
  obtain ⟨call, phase⟩ := thread
  cases phase with
  | returned reply => exact ⟨reply, rfl⟩
  | invoked | found | reserving | probing | deleting | uncharging | claiming | releasing
  | creating | rollback | unlocking => cases hdone

/-- The outcomes are the calls and the answers of the operations. -/
theorem Finished.outcome (h : Finished system) (i : Nat) :
    ((outcome system.threads i).isSome = true ↔ i < system.threads.length) ∧
      (Concurrent.outcome system.threads i).map Prod.fst = system.threads[i]?.map Thread.call ∧
      (Concurrent.outcome system.threads i).map Prod.snd =
        system.threads[i]?.bind (·.phase.answer) := by
  unfold Concurrent.outcome
  cases hthread : system.threads[i]? with
  | none =>
      rw [List.getElem?_eq_none_iff] at hthread
      exact ⟨⟨fun hsome => (by cases hsome), fun hlt => absurd hlt (Nat.not_lt.mpr hthread)⟩, rfl, rfl⟩
  | some thread =>
      obtain ⟨reply, hphase⟩ := h.phase hthread
      rw [Option.bind_some, Option.bind_some, hphase]
      exact ⟨⟨fun _ => (List.getElem?_eq_some_iff.mp hthread).1, fun _ => rfl⟩, rfl, rfl⟩

/-- Nothing is reserved or released, and nothing is taken out, when all operations have returned. -/
theorem Inv.shows (h : Inv limits before system ghost) (hfinished : Finished system) :
    system.shared.Shows ghost.storage := by
  have hzero (measure : Phase → Nat) (hmeasure : ∀ reply, measure (.returned reply) = 0) :
      (system.threads.map (measure ·.phase)).sum = 0 := by
    refine List.sum_eq_zero fun bytes hbytes => ?_
    obtain ⟨thread, hthread, rfl⟩ := List.mem_map.mp hbytes
    obtain ⟨i, hi⟩ := List.getElem?_of_mem hthread
    obtain ⟨reply, hphase⟩ := hfinished.phase hi
    rw [hphase, hmeasure]
  have hlinked : ghost.linked = system.shared.streams := by
    refine h.mapped.present fun i thread hthread => ?_
    obtain ⟨reply, hphase⟩ := hfinished.phase hthread
    rw [hphase]
    rfl
  refine ⟨?_, fun name => by rw [h.heap.streams, hlinked]⟩
  have hcounter := h.counter
  rw [releasedBytes, pendingBytes, hzero Phase.released fun _ => rfl, hzero Phase.pending fun _ => rfl]
    at hcounter
  omega

end Finished

/-- A run is equivalent to a serial one when every reservation is made for an entry that is still
counted, and gets the verdict that it would get without the reservations and releases of operations
that are not done. -/
theorem undisturbed_runs_serialize {limits : Limits} {actions : List (Action Call Unit)}
    (hundisturbed : Along (machine limits).step (Undisturbed limits) actions ⟨.new, []⟩)
    (hfinished : Finished (run limits actions)) : Serializable limits actions := by
  obtain ⟨ghost, h⟩ := undisturbed_explained hundisturbed
  obtain ⟨order, hperm, hreal, hexec⟩ :=
    h.recorded.serial h.linked fun i => (hfinished.outcome i).1
  refine ⟨order, ghost.storage, hperm, hreal, ?_, h.shows hfinished⟩
  have hcalls := funext fun i => (hfinished.outcome i).2.1
  have hanswers := funext fun i => (hfinished.outcome i).2.2
  rw [← hcalls, ← hanswers]
  exact hexec

/-- A read finds an entry to which a message is appended, the stream is deleted, and then the read
returns the message from the entry it holds on to. -/
def lateRead : List (Action Call Unit) :=
  [.spawn ⟨.at 0, .createStream "a" .plain⟩] ++ steps 0 2 ++
  [.spawn ⟨.at 1, .append "a" [1] "text/plain" (Size.fits .one)⟩] ++ steps 1 1 ++
  [.spawn ⟨.at 2, .read "a" .start⟩] ++ steps 2 1 ++ steps 1 3 ++
  [.spawn ⟨.at 3, .delete "a"⟩] ++ steps 3 3 ++ steps 2 1

/-- It is as if the read had come before the delete. -/
theorem late_read_serializes :
    Along (machine ⟨2, 1⟩).step (Undisturbed ⟨2, 1⟩) lateRead ⟨.new, []⟩ ∧
      Finished (run ⟨2, 1⟩ lateRead) ∧ Serializable ⟨2, 1⟩ lateRead := by
  have hundisturbed : Along (machine ⟨2, 1⟩).step (Undisturbed ⟨2, 1⟩) lateRead ⟨.new, []⟩ := by
    decide +kernel
  have hfinished : Finished (run ⟨2, 1⟩ lateRead) := by
    unfold Finished
    decide +kernel
  exact ⟨hundisturbed, hfinished, undisturbed_runs_serialize hundisturbed hfinished⟩

end DurableStreams.Memory.Concurrent
