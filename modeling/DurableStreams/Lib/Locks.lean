import DurableStreams.Lib.Interleaving

/-!
# Readers-writer locks

How a thread holds a lock is read off its control state. A thread may take a lock when no other one
holds it in a mode that excludes its own, and then the modes of any two threads go together
(`Compatible`), whatever the threads do with the locks they hold.
-/

namespace DurableStreams.Lib

/-- How a lock is held. -/
inductive Mode where
  | free
  | shared
  | exclusive
  deriving DecidableEq, Repr

variable {τ κ : Type} {mode : τ → κ → Mode} {threads : List τ}

/-- Whether a lock may be taken for reading. -/
def canShare (mode : τ → κ → Mode) (threads : List τ) (lock : κ) : Bool :=
  threads.all fun thread => mode thread lock != .exclusive

/-- Whether a lock may be taken for writing. -/
def canLock (mode : τ → κ → Mode) (threads : List τ) (lock : κ) : Bool :=
  threads.all fun thread => mode thread lock == .free

/-- A thread that writes under a lock is the only one that holds it. -/
def Compatible (mode : τ → κ → Mode) (threads : List τ) : Prop :=
  ∀ (lock : κ) (i j : Nat) (first second : τ), threads[i]? = some first → threads[j]? = some second →
    mode first lock = .exclusive → mode second lock ≠ .free → i = j

theorem not_exclusive_of_can_share {lock : κ} {thread : τ} (h : canShare mode threads lock = true)
    (hthread : thread ∈ threads) : mode thread lock ≠ .exclusive := by
  simpa using List.all_eq_true.mp h thread hthread

theorem free_of_can_lock {lock : κ} {thread : τ} (h : canLock mode threads lock = true)
    (hthread : thread ∈ threads) : mode thread lock = .free := by
  simpa using List.all_eq_true.mp h thread hthread

theorem can_share_of_can_lock {lock : κ} (h : canLock mode threads lock = true) :
    canShare mode threads lock = true := by
  refine List.all_eq_true.mpr fun thread hthread => ?_
  rw [free_of_can_lock h hthread]
  rfl

/-- A new thread holds no locks. -/
theorem Compatible.concat (h : Compatible mode threads) {thread : τ}
    (hfree : ∀ lock, mode thread lock = .free) : Compatible mode (threads ++ [thread]) := by
  have hold {i : Nat} {other : τ} {lock : κ} (hi : (threads ++ [thread])[i]? = some other)
      (hmode : mode other lock ≠ .free) : threads[i]? = some other := by
    rcases Machine.get_concat hi with hi | ⟨-, rfl⟩
    · exact hi
    · exact absurd (hfree lock) hmode
  intro lock i j first second hi hj hfirst hsecond
  exact h lock i j first second (hold hi (by rw [hfirst]; decide)) (hold hj hsecond) hfirst hsecond

/-- A step of a thread, which keeps, gives up and takes locks. -/
theorem Compatible.set {index : Nat} {before after : τ} (h : Compatible mode threads)
    (hbefore : threads[index]? = some before)
    (hafter : ∀ lock, mode after lock = .free ∨ mode after lock = mode before lock ∨
      (mode after lock = .shared ∧ canShare mode threads lock = true) ∨
      canLock mode threads lock = true) :
    Compatible mode (threads.set index after) := by
  intro lock i j first second hi hj hfirst hsecond
  rw [Machine.get_set hbefore] at hi hj
  split at hi
  · next hindex =>
    subst hindex
    obtain rfl := Option.some.inj hi
    split at hj
    · next hindex => exact hindex.symm
    · rcases hafter lock with hmode | hmode | ⟨hmode, -⟩ | hlock
      · rw [hfirst] at hmode
        cases hmode
      · exact h lock i j before second hbefore hj (hmode.symm.trans hfirst) hsecond
      · rw [hfirst] at hmode
        cases hmode
      · exact absurd (free_of_can_lock hlock (List.mem_of_getElem? hj)) hsecond
  · split at hj
    · next hindex =>
      subst hindex
      obtain rfl := Option.some.inj hj
      rcases hafter lock with hmode | hmode | ⟨-, hshare⟩ | hlock
      · exact absurd hmode hsecond
      · exact h lock i j first before hi hbefore hfirst (by rwa [← hmode])
      · exact absurd hfirst (not_exclusive_of_can_share hshare (List.mem_of_getElem? hi))
      · rw [free_of_can_lock hlock (List.mem_of_getElem? hi)] at hfirst
        cases hfirst
    · exact h lock i j first second hi hj hfirst hsecond

end DurableStreams.Lib
