import DurableStreams.Lib.Interleaving
import DurableStreams.Storage.Basic

/-!
# Cursors

`generate` of `protocol/cursor.rs`. The callers share one atomic counter, and each loads it, computes
the next cursor from it and tries to exchange the two, until that succeeds. The steps of the callers
interleave in any order, and an exchange may fail for no reason.

An exchange succeeds at most once for every value of the counter, so cursors are handed out in
increasing order (`cursors_strictly_increasing`).
-/

namespace DurableStreams.Cursor

open Lib

/-- The bits reserved for the byte offset. -/
def byteOffsetBits : Nat := 27

/-- The value of a position, which is the least cursor that is returned for it. Bits that are shifted
out are lost. -/
def offsetValue (readSeq byteOffset : Nat) : Nat :=
  wrap64 (readSeq <<< byteOffsetBits) ||| byteOffset

/-- `u64::MAX`. -/
def maxU64 : Nat := 2 ^ 64 - 1

/-- Where a caller stands: about to load the counter, to compute the next cursor from what it has
loaded, or to exchange the two; or it has returned. For an offset that is no position the text `0` is
returned at once. -/
inductive Caller where
  | loading (offsetValue : Nat)
  | computing (offsetValue last : Nat)
  | exchanging (offsetValue last next : Nat)
  | returned (offsetValue cursor : Nat)
  | fallback
  deriving DecidableEq, Repr

/-- The call of `generate`. -/
def Caller.start (nextOffset : Offset) : Caller :=
  match nextOffset.parseComponents with
  | some (readSeq, byteOffset) => .loading (offsetValue readSeq byteOffset)
  | none => .fallback

/-- One step of a caller. The exchange fails if the counter has changed, or `spuriously`. -/
def Caller.next (spuriously : Bool) (lastCursor : Nat) : Caller → Option (Nat × Caller)
  | .loading value => some (lastCursor, .computing value lastCursor)
  | .computing value last => some (lastCursor, .exchanging value last (max value (wrap64 (last + 1))))
  | .exchanging value last next =>
      if spuriously || lastCursor != last then some (lastCursor, .loading value)
      else some (next, .returned value next)
  | .returned _ _ | .fallback => none

/-- The callers of `generate` and the counter `LAST_CURSOR`. -/
def machine : Machine Nat Caller Offset Bool where
  start := Caller.start
  next spuriously system caller := caller.next spuriously system.shared

/-- Before the first call. -/
def initial : System Nat Caller := ⟨0, []⟩

/-- The counter has not reached `u64::MAX` after the action. -/
def BelowMax (action : Action Offset Bool) (system : System Nat Caller) : Prop :=
  (machine.act system action).shared < maxU64

instance (action : Action Offset Bool) (system : System Nat Caller) :
    Decidable (BelowMax action system) :=
  inferInstanceAs (Decidable (_ < _))

/-- The cursor a caller has returned. -/
def Caller.cursor? : Caller → Option Nat
  | .returned _ cursor => some cursor
  | _ => none

/-- The least cursor that is returned for the offset of a call. -/
def Caller.value? : Caller → Option Nat
  | .loading value | .computing value _ | .exchanging value _ _ | .returned value _ => some value
  | .fallback => none

/-- The cursors returned so far, in the order in which the calls began. -/
def cursors (system : System Nat Caller) : List Nat := system.threads.filterMap Caller.cursor?

/-! ## One step -/

/-- What is known of a caller when the counter stands at `lastCursor`. -/
def Caller.Sound (lastCursor : Nat) : Caller → Prop
  | .loading _ | .fallback => True
  | .computing _ last => last < maxU64
  | .exchanging value last next => next = max value (last + 1)
  | .returned value cursor => value ≤ cursor ∧ cursor ≤ lastCursor

/-- What is known of a system: the callers are sound, and no cursor was returned twice. -/
structure Sound (system : System Nat Caller) : Prop where
  below : system.shared < maxU64
  callers : ∀ caller ∈ system.threads, caller.Sound system.shared
  distinct : (cursors system).Nodup

/-- A caller that was sound stays so when the counter goes up. -/
theorem Caller.Sound.mono {caller : Caller} {lastCursor later : Nat} (hle : lastCursor ≤ later)
    (h : caller.Sound lastCursor) : caller.Sound later := by
  cases caller with
  | loading | computing | exchanging | fallback => exact h
  | returned value cursor => exact ⟨h.1, Nat.le_trans h.2 hle⟩

/-- A step either leaves the counter alone and returns nothing, or it sets the counter to the cursor
that is returned, which is above the counter. -/
theorem next_cases {spuriously : Bool} {lastCursor shared : Nat} {caller after : Caller}
    (hbelow : lastCursor < maxU64) (h : caller.Sound lastCursor)
    (hnext : caller.next spuriously lastCursor = some (shared, after)) :
    caller.cursor? = none ∧
      ((shared = lastCursor ∧ after.cursor? = none ∧ after.Sound lastCursor) ∨
        ∃ value, after = .returned value shared ∧ shared = max value (lastCursor + 1)) := by
  cases caller with
  | loading value =>
      cases hnext
      exact ⟨rfl, .inl ⟨rfl, rfl, hbelow⟩⟩
  | computing value last =>
      cases hnext
      have hwrap : wrap64 (last + 1) = last + 1 := by
        have hlast : last < maxU64 := h
        unfold maxU64 at hlast
        exact Nat.mod_eq_of_lt (by omega)
      exact ⟨rfl, .inl ⟨rfl, rfl, by rw [Caller.Sound, hwrap]⟩⟩
  | exchanging value last next =>
      rw [Caller.next] at hnext
      split at hnext
      · cases hnext
        exact ⟨rfl, .inl ⟨rfl, rfl, trivial⟩⟩
      · next hsame =>
          cases hnext
          simp only [Bool.or_eq_true, bne_iff_ne, ne_eq, not_or, not_not] at hsame
          have hshared : shared = max value (last + 1) := h
          exact ⟨rfl, .inr ⟨value, rfl, by rw [hsame.2, hshared]⟩⟩
  | returned value cursor => cases hnext
  | fallback => cases hnext

/-- A call keeps its offset. -/
theorem next_value {spuriously : Bool} {lastCursor shared : Nat} {caller after : Caller}
    (hnext : caller.next spuriously lastCursor = some (shared, after)) :
    after.value? = caller.value? := by
  cases caller with
  | loading | computing =>
      cases hnext
      rfl
  | exchanging value last next =>
      rw [Caller.next] at hnext
      split at hnext <;> cases hnext <;> rfl
  | returned | fallback => cases hnext

/-- A new caller has returned no cursor. -/
theorem start_sound (nextOffset : Offset) (lastCursor : Nat) :
    (Caller.start nextOffset).cursor? = none ∧ (Caller.start nextOffset).Sound lastCursor := by
  unfold Caller.start
  split
  · exact ⟨rfl, trivial⟩
  · exact ⟨rfl, trivial⟩

/-! ## Whole runs -/

variable {system : System Nat Caller}

/-- The cursors before, of and behind one of the callers. -/
theorem cursors_middle {front back : List Caller} {caller : Caller}
    (h : system.threads = front ++ caller :: back) :
    cursors system = front.filterMap Caller.cursor? ++
      (caller.cursor?.toList ++ back.filterMap Caller.cursor?) := by
  rw [cursors, h, List.filterMap_append, List.filterMap_cons]
  cases caller.cursor? <;> rfl

/-- What an action does: no cursor is returned and the counter stays, or one caller returns a cursor
above the counter, which becomes the counter. -/
theorem act_summary (h : Sound system) (action : Action Offset Bool) :
    ((machine.act system action).shared = system.shared ∧
        cursors (machine.act system action) = cursors system ∧
        ∀ caller ∈ (machine.act system action).threads,
          caller ∈ system.threads ∨ (caller.cursor? = none ∧ caller.Sound system.shared)) ∨
      ∃ front caller back value, system.threads = front ++ caller :: back ∧ caller.cursor? = none ∧
        machine.act system action =
          ⟨max value (system.shared + 1),
            front ++ .returned value (max value (system.shared + 1)) :: back⟩ := by
  rcases @Machine.act_cases _ _ _ _ machine action system with
    heq | ⟨nextOffset, heq⟩ | ⟨front, caller, back, choice, shared, after, hthreads, hnext, heq⟩
  · rw [heq]
    exact .inl ⟨rfl, rfl, fun caller hmem => .inl hmem⟩
  · have hstart := start_sound nextOffset system.shared
    rw [heq]
    refine .inl ⟨rfl, ?_, fun caller hmem => ?_⟩
    · have hcursor : (machine.start nextOffset).cursor? = none := hstart.1
      simp [cursors, List.filterMap_append, hcursor]
    · rcases List.mem_append.mp hmem with hmem | hmem
      · exact .inl hmem
      · obtain rfl := List.mem_singleton.mp hmem
        exact .inr hstart
  · have hcaller : caller.Sound system.shared := h.callers caller (by rw [hthreads]; simp)
    obtain ⟨hnone, ⟨rfl, hafter, hsound⟩ | ⟨value, rfl, hshared⟩⟩ := next_cases h.below hcaller hnext
    · rw [heq]
      refine .inl ⟨rfl, ?_, fun other hmem => ?_⟩
      · rw [cursors_middle hthreads, cursors_middle rfl, hnone, hafter]
      · rw [hthreads]
        simp only [List.mem_append, List.mem_cons] at hmem ⊢
        rcases hmem with hmem | rfl | hmem
        · exact .inl (.inl hmem)
        · exact .inr ⟨hafter, hsound⟩
        · exact .inl (.inr (.inr hmem))
    · exact .inr ⟨front, caller, back, value, hthreads, hnone, by rw [heq, hshared]⟩

/-- What an action does to the caller with a given number. -/
theorem act_at (h : Sound system) (action : Action Offset Bool) {index : Nat} {caller : Caller}
    (hcaller : system.threads[index]? = some caller) :
    ∃ after, (machine.act system action).threads[index]? = some after ∧
      after.value? = caller.value? ∧
      (after = caller ∨ caller.cursor? = none ∧
        (after.cursor? = none ∨
          system.shared < (machine.act system action).shared ∧
            after.cursor? = some (machine.act system action).shared)) := by
  rcases @Machine.act_cases _ _ _ _ machine action system with
    heq | ⟨nextOffset, heq⟩ | ⟨front, thread, back, choice, shared, after, hthreads, hnext, heq⟩
  · exact ⟨caller, by rw [heq, hcaller], rfl, .inl rfl⟩
  · obtain ⟨hindex, -⟩ := List.getElem?_eq_some_iff.mp hcaller
    exact ⟨caller, by rw [heq, List.getElem?_append_left hindex, hcaller], rfl, .inl rfl⟩
  · rw [heq, @Machine.get_replaced _ front back thread after index, ← hthreads]
    split
    · next hindex =>
        obtain rfl : thread = caller := by
          rw [hthreads, hindex, List.getElem?_append_right (Nat.le_refl _), Nat.sub_self,
            List.getElem?_cons_zero] at hcaller
          exact Option.some.inj hcaller
        have hsound : thread.Sound system.shared := h.callers thread (by rw [hthreads]; simp)
        refine ⟨after, rfl, next_value hnext, .inr ?_⟩
        obtain ⟨hnone, ⟨-, hafter, -⟩ | ⟨value, rfl, hshared⟩⟩ := next_cases h.below hsound hnext
        · exact ⟨hnone, .inl hafter⟩
        · refine ⟨hnone, .inr ⟨?_, rfl⟩⟩
          dsimp only
          omega
    · exact ⟨caller, hcaller, rfl, .inl rfl⟩

/-- The counter never goes down. -/
theorem shared_le_act (h : Sound system) (action : Action Offset Bool) :
    system.shared ≤ (machine.act system action).shared := by
  rcases act_summary h action with ⟨hshared, -⟩ | ⟨front, caller, back, value, -, -, heq⟩
  · exact Nat.le_of_eq hshared.symm
  · rw [heq]
    dsimp only
    omega

/-- Cursors are not above the counter. -/
theorem Sound.cursor_le (h : Sound system) {cursor : Nat} (hmem : cursor ∈ cursors system) :
    cursor ≤ system.shared := by
  obtain ⟨caller, hcaller, hcursor⟩ := List.mem_filterMap.mp hmem
  have hsound := h.callers caller hcaller
  cases caller with
  | returned value other =>
      obtain rfl : other = cursor := Option.some.inj hcursor
      exact hsound.2
  | loading | computing | exchanging | fallback => cases hcursor

/-- Soundness is kept. -/
theorem Sound.act (h : Sound system) {action : Action Offset Bool} (hbelow : BelowMax action system) :
    Sound (machine.act system action) := by
  have hle := shared_le_act h action
  rcases act_summary h action with
    ⟨hshared, hcursors, hcallers⟩ | ⟨front, caller, back, value, hthreads, hnone, heq⟩
  · refine ⟨hbelow, fun caller hmem => ?_, by rw [hcursors]; exact h.distinct⟩
    rw [hshared]
    rcases hcallers caller hmem with hold | ⟨-, hsound⟩
    · exact h.callers caller hold
    · exact hsound
  · refine ⟨hbelow, fun other hmem => ?_, ?_⟩
    · rw [heq] at hle hmem ⊢
      simp only [List.mem_append, List.mem_cons] at hmem
      rcases hmem with hmem | rfl | hmem
      · exact (h.callers other (by rw [hthreads]; simp [hmem])).mono hle
      · exact ⟨Nat.le_max_left .., Nat.le_refl _⟩
      · exact (h.callers other (by rw [hthreads]; simp [hmem])).mono hle
    · -- The new cursor is above the counter, and all others are not.
      have hbefore := cursors_middle hthreads
      rw [hnone, Option.toList_none, List.nil_append] at hbefore
      rw [heq, cursors_middle rfl, Caller.cursor?, Option.toList_some, List.singleton_append,
        List.nodup_middle, List.nodup_cons, ← hbefore]
      refine ⟨fun hmem => ?_, h.distinct⟩
      have := h.cursor_le hmem
      omega

/-- If no cursor had to be above `bound` for its offset, the counter has gone up from there by at most
one for every cursor. -/
def Paced (system : System Nat Caller) : Prop :=
  ∀ bound, (∀ value cursor, .returned value cursor ∈ system.threads → value ≤ bound) →
    system.shared ≤ bound + (cursors system).length

theorem Paced.act (h : Sound system) (hpaced : Paced system) (action : Action Offset Bool) :
    Paced (machine.act system action) := by
  intro bound hbound
  -- What was returned before is returned after.
  have hbefore : ∀ value cursor, .returned value cursor ∈ system.threads → value ≤ bound := by
    intro value cursor hmem
    obtain ⟨index, hindex⟩ := List.getElem?_of_mem hmem
    obtain ⟨after, hafter, -, rfl | ⟨hnone, -⟩⟩ := act_at h action hindex
    · exact hbound value cursor (List.mem_of_getElem? hafter)
    · cases hnone
  have hshared := hpaced bound hbefore
  rcases act_summary h action with
    ⟨hshared', hcursors, -⟩ | ⟨front, caller, back, value, hthreads, hnone, heq⟩
  · rwa [hshared', hcursors]
  · have hvalue : value ≤ bound :=
      hbound value (max value (system.shared + 1)) (by rw [heq]; simp)
    have hlength : (cursors (machine.act system action)).length = (cursors system).length + 1 := by
      rw [heq, cursors_middle rfl, cursors_middle hthreads, hnone]
      simp only [Caller.cursor?, Option.toList_some, Option.toList_none, List.length_append,
        List.length_singleton, List.length_nil]
      omega
    rw [hlength, heq]
    dsimp only
    omega

/-- What every run keeps. -/
theorem run_sound {actions : List (Action Offset Bool)}
    (hrun : Along machine.step BelowMax actions system) (h : Sound system) (hpaced : Paced system) :
    Sound (exec machine.step actions system).2 ∧ Paced (exec machine.step actions system).2 := by
  have hstep : ∀ action system, BelowMax action system → Sound system ∧ Paced system →
      Sound (machine.step action system).2 ∧ Paced (machine.step action system).2 := by
    rintro action system hbelow ⟨h, hpaced⟩
    exact ⟨h.act hbelow, hpaced.act h action⟩
  exact exec_invariant hstep hrun ⟨h, hpaced⟩

/-- Before the first call. -/
theorem initial_sound : Sound initial ∧ Paced initial :=
  ⟨⟨by decide, by simp [initial], by simp [initial, cursors]⟩, fun _ _ => Nat.zero_le _⟩

/-- A call for an offset of this value. Its cursor, once it has one, is above `lastCursor`, where the
counter stood when the call began. -/
def CallSince (index value lastCursor : Nat) (system : System Nat Caller) : Prop :=
  lastCursor ≤ system.shared ∧
    ∃ caller, system.threads[index]? = some caller ∧ caller.value? = some value ∧
      ∀ cursor ∈ caller.cursor?, lastCursor < cursor

/-- It stays so. -/
theorem run_call {actions : List (Action Offset Bool)} {index value lastCursor : Nat}
    (hrun : Along machine.step BelowMax actions system) (h : Sound system)
    (hcall : CallSince index value lastCursor system) :
    CallSince index value lastCursor (exec machine.step actions system).2 := by
  have hstep : ∀ action system, BelowMax action system →
      Sound system ∧ CallSince index value lastCursor system →
      Sound (machine.step action system).2 ∧
        CallSince index value lastCursor (machine.step action system).2 := by
    rintro action system hbelow ⟨h, hlast, caller, hcaller, hvalue, hcursor⟩
    refine ⟨h.act hbelow, Nat.le_trans hlast (shared_le_act h action), ?_⟩
    obtain ⟨after, hafter, hvalue', hcases⟩ := act_at h action hcaller
    refine ⟨after, hafter, hvalue'.trans hvalue, fun cursor hmem => ?_⟩
    rcases hcases with rfl | ⟨-, hnone | ⟨hlt, hsome⟩⟩
    · exact hcursor cursor hmem
    · rw [hnone] at hmem
      cases hmem
    · rw [hsome] at hmem
      obtain rfl := Option.some.inj hmem
      omega
  exact (exec_invariant hstep hrun ⟨h, hcall⟩).2

/-- Cursors are strictly increasing. In every run in which the counter stays below `u64::MAX`, no
cursor is returned twice, a call gets a cursor that is at least the value of its offset and above all
cursors returned before it began, and no cursor is further above the values of the offsets than there
were calls. -/
theorem cursors_strictly_increasing {actions : List (Action Offset Bool)}
    (hrun : Along machine.step BelowMax actions initial) :
    (cursors (exec machine.step actions initial).2).Nodup ∧
    (∀ before nextOffset after readSeq byteOffset, actions = before ++ .spawn nextOffset :: after →
      nextOffset.parseComponents = some (readSeq, byteOffset) →
      ∃ caller, (exec machine.step actions initial).2.threads[
          (exec machine.step before initial).2.threads.length]? = some caller ∧
        ∀ cursor ∈ caller.cursor?, offsetValue readSeq byteOffset ≤ cursor ∧
          ∀ earlier ∈ cursors (exec machine.step before initial).2, earlier < cursor) ∧
    ∀ bound, (∀ caller ∈ (exec machine.step actions initial).2.threads,
        ∀ value ∈ caller.value?, value ≤ bound) →
      ∀ cursor ∈ cursors (exec machine.step actions initial).2,
        cursor ≤ bound + (cursors (exec machine.step actions initial).2).length := by
  obtain ⟨hsound, hpaced⟩ := run_sound hrun initial_sound.1 initial_sound.2
  refine ⟨hsound.distinct, ?_, fun bound hbound cursor hmem => ?_⟩
  · rintro before nextOffset after readSeq byteOffset rfl hconcrete
    obtain ⟨hbefore, hspawn, hafter⟩ := along_append.mp hrun
    obtain ⟨hstart, -⟩ := run_sound hbefore initial_sound.1 initial_sound.2
    have hcaller : Caller.start nextOffset = .loading (offsetValue readSeq byteOffset) := by
      rw [Caller.start, hconcrete]
    have hcall : CallSince (exec machine.step before initial).2.threads.length
        (offsetValue readSeq byteOffset) (exec machine.step before initial).2.shared
        (machine.step (.spawn nextOffset) (exec machine.step before initial).2).2 := by
      refine ⟨Nat.le_refl _, .loading (offsetValue readSeq byteOffset), ?_, rfl, ?_⟩
      · rw [← hcaller]
        exact List.getElem?_concat_length
      · intro cursor hmem
        cases hmem
    obtain ⟨-, caller, hfinal, hvalue, habove⟩ := run_call hafter (hstart.act hspawn) hcall
    have hrest : (exec machine.step (before ++ .spawn nextOffset :: after) initial).2 =
        (exec machine.step after (machine.step (.spawn nextOffset)
          (exec machine.step before initial).2).2).2 := by
      rw [exec_append]
      rfl
    rw [hrest] at hsound ⊢
    refine ⟨caller, hfinal, fun cursor hcursor => ⟨?_, fun earlier hearlier => ?_⟩⟩
    · have hcallerSound := hsound.callers caller (List.mem_of_getElem? hfinal)
      cases caller with
      | returned value other =>
          obtain rfl : other = cursor := Option.some.inj hcursor
          obtain rfl : value = offsetValue readSeq byteOffset := Option.some.inj hvalue
          exact hcallerSound.1
      | loading | computing | exchanging | fallback => cases hcursor
    · exact Nat.lt_of_le_of_lt (hstart.cursor_le hearlier) (habove cursor hcursor)
  · have hshared := hpaced bound fun value cursor hmem => hbound _ hmem value rfl
    exact Nat.le_trans (hsound.cursor_le hmem) hshared

/-- Two calls at one position. The first one to load the counter is overtaken, and its exchange
fails. -/
def overtaken : List (Action Offset Bool) :=
  [.spawn (.new 1 5), .spawn (.new 1 5), .run 0 false, .run 1 false, .run 0 false, .run 1 false,
    .run 1 true, .run 1 false, .run 1 false, .run 1 false, .run 0 false, .run 0 false, .run 0 false,
    .run 0 false]

/-- The cursors of the two calls are distinct and at least the value of the position. -/
theorem overtaken_cursors_increase :
    (cursors (exec machine.step overtaken initial).2).Nodup ∧
      cursors (exec machine.step overtaken initial).2 = [134217734, 134217733] :=
  ⟨(@cursors_strictly_increasing overtaken (by decide +kernel)).1, by decide +kernel⟩

end DurableStreams.Cursor
