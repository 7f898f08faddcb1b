import DurableStreams.Lib.Execution
import DurableStreams.Lib.Watching
import DurableStreams.Storage.Interface

/-!
# Subscribers

A subscriber of a stream subscribes, reads, waits until its receiver has something pending and reads
again from the offset it has got to, as long-poll and SSE reads do, while other clients use the
storage. A `Backend` is a storage as the subscriber and the others use it, with what has to be known
about it. Then a subscriber that waits has read the tail offset and the closed flag of the stream, or
will be woken (`Backend.exec_current`).
-/

namespace DurableStreams

open Lib

/-! ## The subscriber -/

/-- A backend as a subscriber and the other clients of a stream use it. `Keeps` says which steps of
others leave the stream there, and `Heard` which of these announce what they change. -/
structure Backend (σ ε : Type) where
  call : Call → σ → Reply × σ
  other : ε → σ → σ
  board : String → Board σ (Option (Offset × Bool))
  Open : String → σ → Prop
  Keeps : String → ε → σ → Prop
  Heard : String → ε → σ → Prop
  subscribe_opens : ∀ {clock name storage receiver after},
    call ⟨clock, .subscribe name⟩ storage = (.receiver (some receiver), after) →
      Open name after ∧ receiver.seen = (board name).sent after
  read_views : ∀ {clock name offset storage result after},
    call ⟨clock, .read name offset⟩ storage = (.read (.ok result), after) →
      after = storage ∧ (board name).view storage = some (result.nextOffset, result.closed)
  other_advances : ∀ {name event storage}, Open name storage → Keeps name event storage →
    Open name (other event storage) ∧ (board name).Advances storage (other event storage)
  other_announces : ∀ {name event storage}, Open name storage → Keeps name event storage →
    Heard name event storage → (board name).Announces storage (other event storage)

/-- Where a subscriber stands. While it waits it knows the tail offset and the closed flag its last
read returned. -/
inductive Subscriber where
  | idle
  | ready (receiver : Receiver) (offset : Offset)
  | waiting (receiver : Receiver) (tail : Offset) (closed : Bool)
  | ended
  deriving DecidableEq

/-- The subscriber as a watcher of the tail offset and the closed flag. -/
def Subscriber.watcher : Subscriber → Watcher (Option (Offset × Bool))
  | .idle | .ended => .away
  | .ready receiver _ => .listening receiver.seen
  | .waiting receiver tail closed => .waiting receiver.seen (some (tail, closed))

/-- A storage with a subscriber. -/
structure Subscription (σ : Type) where
  storage : σ
  subscriber : Subscriber

/-- The steps of the subscriber and of everyone else. A receiver that wakes has seen one or more of
the pending sends. -/
inductive SubscriberEvent (ε : Type) where
  | subscribe (clock : Clock) (offset : Offset)
  | read (clock : Clock)
  | wake (seen : Nat)
  | other (event : ε)

namespace Backend

variable {σ ε : Type} (backend : Backend σ ε) (name : String)

/-- One step. A step that does not fit where the subscriber stands does nothing. -/
def next : SubscriberEvent ε → Subscription σ → Unit × Subscription σ
  | .subscribe clock offset, session =>
      match session.subscriber with
      | .idle =>
          match backend.call ⟨clock, .subscribe name⟩ session.storage with
          | (.receiver (some receiver), storage) => ((), ⟨storage, .ready receiver offset⟩)
          | (_, storage) => ((), ⟨storage, .ended⟩)
      | _ => ((), session)
  | .read clock, session =>
      match session.subscriber with
      | .ready receiver offset =>
          match backend.call ⟨clock, .read name offset⟩ session.storage with
          | (.read (.ok result), storage) =>
              ((), ⟨storage, .waiting receiver result.nextOffset result.closed⟩)
          | (_, storage) => ((), ⟨storage, .ended⟩)
      | _ => ((), session)
  | .wake seen, session =>
      match session.subscriber with
      | .waiting receiver tail _ =>
          if receiver.seen < seen ∧ seen ≤ (backend.board name).sent session.storage then
            ((), { session with subscriber := .ready ⟨seen⟩ tail })
          else ((), session)
      | _ => ((), session)
  | .other event, session => ((), { session with storage := backend.other event session.storage })

/-- Which steps may happen: the stream is not deleted or expired meanwhile, and a step that would be
missed is heard. -/
def Admits : SubscriberEvent ε → Subscription σ → Prop
  | .other event, session =>
      backend.Keeps name event session.storage ∧
        ((backend.board name).Idle session.storage session.subscriber.watcher →
          backend.Heard name event session.storage)
  | _, _ => True

/-- A subscriber that waits with nothing pending, while no send is due, has read the tail offset and
the closed flag of the stream. -/
def Current (session : Subscription σ) : Prop :=
  ∀ receiver tail closed, session.subscriber = .waiting receiver tail closed →
    ¬ receiver.seen < (backend.board name).sent session.storage →
    (backend.board name).due session.storage = 0 →
    (backend.board name).view session.storage = some (tail, closed)

/-- The invariant: a subscriber that is not idle has an open channel and will be woken if it has not
read the present state. -/
structure Inv (session : Subscription σ) : Prop where
  opened : session.subscriber.watcher ≠ .away → backend.Open name session.storage
  settled : (backend.board name).Settled session.storage session.subscriber.watcher

variable {backend name} {session : Subscription σ}

/-- A subscriber that has gone. -/
theorem Inv.ended (storage : σ) : backend.Inv name ⟨storage, .ended⟩ :=
  ⟨fun h => absurd rfl h, trivial⟩

/-- Every step keeps the invariant. -/
theorem Inv.next {event : SubscriberEvent ε} (hadmits : backend.Admits name event session)
    (h : backend.Inv name session) : backend.Inv name (backend.next name event session).2 := by
  obtain ⟨storage, subscriber⟩ := session
  cases event with
  | subscribe clock offset =>
      cases subscriber with
      | idle =>
          simp only [Backend.next]
          split
          · next receiver after hcall =>
              obtain ⟨hopen, hseen⟩ := backend.subscribe_opens hcall
              exact ⟨fun _ => hopen, hseen.le⟩
          · exact .ended _
      | ready | waiting | ended => exact h
  | read clock =>
      cases subscriber with
      | ready receiver offset =>
          simp only [Backend.next]
          split
          · next result after hcall =>
              obtain ⟨rfl, hview⟩ := backend.read_views hcall
              exact ⟨fun _ => h.opened (by simp [Subscriber.watcher]), h.settled, .inl hview⟩
          · exact .ended _
      | idle | waiting | ended => exact h
  | wake seen =>
      cases subscriber with
      | waiting receiver tail closed =>
          simp only [Backend.next]
          split
          · next hwake => exact ⟨fun _ => h.opened (by simp [Subscriber.watcher]), hwake.2⟩
          · exact h
      | idle | ready | ended => exact h
  | other event =>
      obtain ⟨hkeeps, hheard⟩ := hadmits
      by_cases haway : subscriber.watcher = .away
      · refine ⟨fun hnot => absurd haway hnot, ?_⟩
        simp only [Backend.next, haway]
        trivial
      · have hopen := h.opened haway
        obtain ⟨hstays, hadvances⟩ := backend.other_advances hopen hkeeps
        exact ⟨fun _ => hstays, h.settled.other hadvances fun hidle =>
          backend.other_announces hopen hkeeps (hheard hidle)⟩

/-- In every run of admitted steps a subscriber that waits has read the present state, or will be
woken. -/
theorem exec_current {events : List (SubscriberEvent ε)} {storage : σ}
    (h : Along (backend.next name) (backend.Admits name) events ⟨storage, .idle⟩) :
    backend.Current name (exec (backend.next name) events ⟨storage, .idle⟩).2 := by
  have hinv : backend.Inv name (exec (backend.next name) events ⟨storage, .idle⟩).2 :=
    exec_invariant (fun _ _ hadmits hinv => hinv.next hadmits) h ⟨fun h => absurd rfl h, trivial⟩
  intro receiver tail closed hwaiting hpending hdue
  have hsettled := hinv.settled
  rw [hwaiting] at hsettled
  exact hsettled.current (Nat.le_of_not_lt hpending) hdue

end Backend

/-- What a section under a stream lock does to the tail offset, the closed flag and the number of
sends: it sends if it changes something, unless it is silent. -/
structure Tells (silent : Prop) (before after : (Offset × Bool) × Nat) : Prop where
  sent : before.2 ≤ after.2
  told : after.1 = before.1 ∨ before.2 < after.2 ∨ silent

/-- A section that changes nothing. -/
theorem Tells.same {silent : Prop} {before after : (Offset × Bool) × Nat} (h : after = before) :
    Tells silent before after :=
  ⟨h ▸ Nat.le_refl _, .inl (h ▸ rfl)⟩

/-- A section that sends. -/
theorem Tells.sends {silent : Prop} {before after : (Offset × Bool) × Nat}
    (h : after.2 = before.2 + 1) : Tells silent before after :=
  ⟨by omega, .inr (.inl (by omega))⟩

/-- What a subscriber sees of a storage that keeps the channel of a stream with the stream. -/
def signalBoard {σ : Type} (signal : σ → Option ((Offset × Bool) × Nat)) :
    Board σ (Option (Offset × Bool)) where
  view := fun storage => (signal storage).map Prod.fst
  sent := fun storage => ((signal storage).map Prod.snd).getD 0
  due := fun _ => 0

section SignalBoard

variable {σ : Type} {signal : σ → Option ((Offset × Bool) × Nat)} {storage storage' : σ}
  {before after : (Offset × Bool) × Nat} {silent : Prop}

theorem Tells.advances (h : Tells silent before after) (hbefore : signal storage = some before)
    (hafter : signal storage' = some after) : (signalBoard signal).Advances storage storage' := by
  have hsent : (signalBoard signal).sent storage ≤ (signalBoard signal).sent storage' := by
    simpa [signalBoard, hbefore, hafter] using h.sent
  exact ⟨hsent, hsent⟩

theorem Tells.announces (h : Tells silent before after) (hbefore : signal storage = some before)
    (hafter : signal storage' = some after)
    (hheard : silent → (signalBoard signal).view storage' = (signalBoard signal).view storage) :
    (signalBoard signal).Announces storage storage' := by
  rcases h.told with hsame | hmore | hsilent
  · exact .inl (by simp [signalBoard, hbefore, hafter, hsame])
  · exact .inr (by simpa [signalBoard, hbefore, hafter] using hmore)
  · exact .inl (hheard hsilent)

end SignalBoard

end DurableStreams
