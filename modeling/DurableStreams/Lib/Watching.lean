/-!
# Watching a state through a channel

A watcher opens a receiver on a channel, looks at the state and then waits until the receiver has
something pending, to look again. If every change of what it sees comes with a send on the channel,
made at once or due later, then a watcher that waits with nothing pending or due has seen the present
state (`Settled`). That it opens the receiver before it looks is what makes this true.
-/

namespace DurableStreams.Lib

/-- How a state is watched: what there is to see, and how many sends the channel has seen and how
many are still due. -/
structure Board (σ ω : Type) where
  view : σ → ω
  sent : σ → Nat
  due : σ → Nat

/-- What a watcher is doing. A receiver remembers how many sends it has seen. -/
inductive Watcher (ω : Type) where
  | away
  | listening (seen : Nat)
  | waiting (seen : Nat) (last : ω)

namespace Board

variable {σ ω : Type} (board : Board σ ω)

/-- A receiver has seen no more than was sent, and a watcher that waits has looked at the present
state or will be woken. -/
def Settled (state : σ) : Watcher ω → Prop
  | .away => True
  | .listening seen => seen ≤ board.sent state
  | .waiting seen last =>
      seen ≤ board.sent state ∧
        (board.view state = last ∨ seen < board.sent state + board.due state)

/-- A watcher that waits, with nothing pending and nothing due. -/
def Idle (state : σ) : Watcher ω → Prop
  | .waiting seen _ => seen = board.sent state + board.due state
  | _ => False

/-- No send is lost. -/
structure Advances (before after : σ) : Prop where
  sent : board.sent before ≤ board.sent after
  total : board.sent before + board.due before ≤ board.sent after + board.due after

/-- What there is to see is the same, or there is a further send. -/
def Announces (before after : σ) : Prop :=
  board.view after = board.view before ∨
    board.sent before + board.due before < board.sent after + board.due after

variable {board} {before after : σ} {watcher : Watcher ω}

theorem Advances.refl (state : σ) : board.Advances state state := ⟨Nat.le_refl _, Nat.le_refl _⟩

/-- A step of others. It has to announce what it changes only if the watcher would miss it. -/
theorem Settled.other (h : board.Settled before watcher) (hadvances : board.Advances before after)
    (hannounces : board.Idle before watcher → board.Announces before after) :
    board.Settled after watcher := by
  obtain ⟨hsent, htotal⟩ := hadvances
  cases watcher with
  | away => trivial
  | listening seen => exact Nat.le_trans h hsent
  | waiting seen last =>
      obtain ⟨hseen, hview⟩ := h
      refine ⟨Nat.le_trans hseen hsent, ?_⟩
      by_cases hidle : seen = board.sent before + board.due before
      · have hlast : board.view before = last := hview.resolve_right (by omega)
        rcases hannounces hidle with hsame | hmore
        · exact .inl (hsame.trans hlast)
        · exact .inr (by omega)
      · exact .inr (by omega)

/-- A watcher with nothing pending or due has seen the present state. -/
theorem Settled.current {seen : Nat} {last : ω} (h : board.Settled before (.waiting seen last))
    (hpending : board.sent before ≤ seen) (hdue : board.due before = 0) :
    board.view before = last :=
  h.2.resolve_right (by omega)

end Board

end DurableStreams.Lib
