import DurableStreams.Lib.Interleaving
import Mathlib.Data.List.Flatten
import Mathlib.Data.List.Nodup
import Mathlib.Data.List.Perm.Basic

/-!
# Serial histories

To show that a concurrent run is equivalent to a serial one, a history of the operations that have
taken effect is kept along the run. Most operations take effect at its end. One that works on a copy
of data that is no longer current takes effect earlier, right before the operation that replaced the
data, and must not make a difference to that one. So a history is a list of blocks, each of which ends
in a main operation that never moves; late ones are inserted in front of it. `Linked` says that a
history can be replayed, `Grows` is what both kinds of effects do to it, and `Recorded.serial` reads
the serial order off a complete history.
-/

namespace DurableStreams.Lib

/-- An operation that has taken effect: who called it, with what, and the answer. -/
structure Performed (ι ο : Type) where
  caller : Nat
  input : ι
  output : ο

/-- A piece of a history: the late operations, and the main one they were inserted in front of. -/
structure Block (σ ι ο : Type) where
  before : σ
  late : List (Performed ι ο)
  ready : σ
  main : Performed ι ο
  after : σ

variable {σ ι ο : Type} {step : ι → σ → ο × σ}

/-- The operations of a block in order. -/
def Block.effects (block : Block σ ι ο) : List (Performed ι ο) := block.late ++ [block.main]

/-- A block whose operations answer as recorded and lead through the recorded states. -/
structure Block.Valid (step : ι → σ → ο × σ) (block : Block σ ι ο) : Prop where
  late : exec step (block.late.map Performed.input) block.before =
    (block.late.map Performed.output, block.ready)
  main : step block.main.input block.ready = (block.main.output, block.after)

/-- Blocks that lead from one state to another. -/
def Linked (step : ι → σ → ο × σ) : σ → List (Block σ ι ο) → σ → Prop
  | start, [], final => start = final
  | start, block :: blocks, final =>
      block.before = start ∧ block.Valid step ∧ Linked step block.after blocks final

/-- The operations of a history in order. -/
def effectsOf (blocks : List (Block σ ι ο)) : List (Performed ι ο) := blocks.flatMap Block.effects

/-- The operation of a caller is in a block. -/
def At (blocks : List (Block σ ι ο)) (caller index : Nat) : Prop :=
  ∃ block, blocks[index]? = some block ∧ caller ∈ block.effects.map Performed.caller

/-- One more operation has taken effect, in a block that is new or was there before. -/
structure Grows (blocks after : List (Block σ ι ο)) (effect : Performed ι ο) (index : Nat) : Prop where
  perm : (effectsOf after).Perm (effect :: effectsOf blocks)
  at_iff : ∀ caller other,
    At after caller other ↔ At blocks caller other ∨ caller = effect.caller ∧ other = index

/-! ## Replaying a history -/

section Replay

variable {start final : σ} {blocks : List (Block σ ι ο)} {block : Block σ ι ο} {index : Nat}

/-- Running the operations of a block. -/
theorem Block.Valid.exec (h : block.Valid step) :
    exec step (block.effects.map Performed.input) block.before =
      (block.effects.map Performed.output, block.after) := by
  rw [Block.effects, List.map_append, exec_append, h.late]
  simp [h.main]

/-- Running the operations of a history. -/
theorem Linked.exec (h : Linked step start blocks final) :
    exec step ((effectsOf blocks).map Performed.input) start =
      ((effectsOf blocks).map Performed.output, final) := by
  induction blocks generalizing start with
  | nil =>
      rw [Linked] at h
      rw [h]
      rfl
  | cons block blocks ih =>
      obtain ⟨rfl, hvalid, hrest⟩ := h
      rw [effectsOf, List.flatMap_cons, List.map_append, exec_append, hvalid.exec]
      dsimp only
      rw [← effectsOf, ih hrest, List.map_append]

/-- The blocks of a history are valid. -/
theorem Linked.valid (h : Linked step start blocks final) (hblock : blocks[index]? = some block) :
    block.Valid step := by
  induction blocks generalizing start index with
  | nil => simp at hblock
  | cons first blocks ih =>
      cases index with
      | zero =>
          obtain rfl := Option.some.inj hblock
          exact h.2.1
      | succ index => exact ih h.2.2 hblock

/-- A valid block at the end of a history. -/
theorem Linked.concat (block : Block σ ι ο) (h : Linked step start blocks block.before)
    (hvalid : block.Valid step) : Linked step start (blocks ++ [block]) block.after := by
  induction blocks generalizing start with
  | nil => exact ⟨h.symm, hvalid, rfl⟩
  | cons first blocks ih => exact ⟨h.1, h.2.1, ih h.2.2⟩

/-- A block may be replaced by one between the same states. -/
theorem Linked.set {other : Block σ ι ο} (h : Linked step start blocks final)
    (hblock : blocks[index]? = some block) (hbefore : other.before = block.before)
    (hafter : other.after = block.after) (hvalid : other.Valid step) :
    Linked step start (blocks.set index other) final := by
  induction blocks generalizing start index with
  | nil => simp at hblock
  | cons first blocks ih =>
      cases index with
      | zero =>
          obtain rfl := Option.some.inj hblock
          exact ⟨hbefore.trans h.1, hvalid, by rw [hafter]; exact h.2.2⟩
      | succ index => exact ⟨h.1, h.2.1, ih h.2.2 hblock⟩

end Replay

/-! ## Effects -/

section Effects

variable {start final after : σ} {blocks : List (Block σ ι ο)} {effect : Performed ι ο}

theorem at_lt {caller index : Nat} (h : At blocks caller index) : index < blocks.length := by
  obtain ⟨block, hblock, -⟩ := h
  exact (List.getElem?_eq_some_iff.mp hblock).1

/-- Every effect is in a block. -/
theorem at_of_mem (h : effect ∈ effectsOf blocks) : ∃ index, At blocks effect.caller index := by
  obtain ⟨block, hblock, heffect⟩ := List.mem_flatMap.mp h
  obtain ⟨index, hindex⟩ := List.getElem?_of_mem hblock
  exact ⟨index, block, hindex, List.mem_map_of_mem heffect⟩

/-- And what is in a block is an effect. -/
theorem mem_of_at {caller index : Nat} (h : At blocks caller index) :
    ∃ effect ∈ effectsOf blocks, effect.caller = caller := by
  obtain ⟨block, hblock, hcaller⟩ := h
  obtain ⟨effect, heffect, rfl⟩ := List.mem_map.mp hcaller
  exact ⟨effect, List.mem_flatMap.mpr ⟨block, List.mem_of_getElem? hblock, heffect⟩, rfl⟩

/-- The block of an operation that takes effect at the end. -/
def Block.last (before : σ) (effect : Performed ι ο) (after : σ) : Block σ ι ο :=
  ⟨before, [], before, effect, after⟩

/-- An operation takes effect at the end. -/
theorem Linked.last (h : Linked step start blocks final)
    (hstep : step effect.input final = (effect.output, after)) :
    Linked step start (blocks ++ [.last final effect after]) after ∧
      Grows blocks (blocks ++ [.last final effect after]) effect blocks.length := by
  refine ⟨Linked.concat (.last final effect after) h ⟨rfl, hstep⟩, ?_, ?_⟩
  · rw [effectsOf, List.flatMap_append, ← effectsOf]
    exact List.perm_append_comm
  · intro caller other
    constructor
    · rintro ⟨block, hblock, hcaller⟩
      rcases Nat.lt_or_ge other blocks.length with hlt | hge
      · rw [List.getElem?_append_left hlt] at hblock
        exact .inl ⟨block, hblock, hcaller⟩
      · rw [List.getElem?_append_right hge, List.getElem?_singleton] at hblock
        split at hblock
        · next hzero =>
            obtain rfl := Option.some.inj hblock
            have heq : caller = effect.caller := by simpa [Block.effects, Block.last] using hcaller
            exact .inr ⟨heq, by omega⟩
        · cases hblock
    · rintro (⟨block, hblock, hcaller⟩ | ⟨rfl, rfl⟩)
      · have hlt := (List.getElem?_eq_some_iff.mp hblock).1
        exact ⟨block, by rw [List.getElem?_append_left hlt]; exact hblock, hcaller⟩
      · exact ⟨_, List.getElem?_concat_length, by simp [Block.effects, Block.last]⟩

/-- A block with one more late operation. -/
def Block.insert (block : Block σ ι ο) (effect : Performed ι ο) (ready : σ) : Block σ ι ο :=
  ⟨block.before, block.late ++ [effect], ready, block.main, block.after⟩

/-- An operation takes effect late, in front of a main operation that is indifferent to it. -/
theorem Linked.insert {block : Block σ ι ο} {ready : σ} {index : Nat}
    (h : Linked step start blocks final) (hblock : blocks[index]? = some block)
    (hstep : step effect.input block.ready = (effect.output, ready))
    (hmain : step block.main.input ready = step block.main.input block.ready) :
    Linked step start (blocks.set index (block.insert effect ready)) final ∧
      Grows blocks (blocks.set index (block.insert effect ready)) effect index := by
  have hvalid := h.valid hblock
  have hinserted : (block.insert effect ready).Valid step := by
    refine ⟨?_, hmain.trans hvalid.main⟩
    simp only [Block.insert, List.map_append, exec_append, hvalid.late]
    simp [hstep]
  refine ⟨h.set hblock rfl rfl hinserted, ?_, ?_⟩
  · obtain ⟨front, back, rfl, rfl⟩ := Machine.split_at hblock
    rw [Machine.set_split]
    simp only [effectsOf, List.flatMap_append, List.flatMap_cons, Block.effects, Block.insert,
      List.append_assoc, List.cons_append, List.nil_append]
    rw [← List.append_assoc, ← List.append_assoc]
    exact List.perm_middle
  · intro caller other
    have heffects : caller ∈ (block.insert effect ready).effects.map Performed.caller ↔
        caller ∈ block.effects.map Performed.caller ∨ caller = effect.caller := by
      simp only [Block.effects, Block.insert, List.map_append, List.mem_append, List.map_cons,
        List.map_nil, List.mem_singleton]
      tauto
    simp only [At, Machine.get_set hblock]
    by_cases hother : other = index
    · subst hother
      simp only [if_true, Option.some.injEq, exists_eq_left', heffects, hblock, and_true]
    · simp [hother]

end Effects

/-! ## Records of concurrent operations -/

/-- A history of concurrent operations. `outcome` says which of them have taken effect, with their
inputs and answers, and `before` that one had returned when another was called. -/
structure Recorded (outcome : Nat → Option (ι × ο)) (before : Nat → Nat → Prop)
    (blocks : List (Block σ ι ο)) : Prop where
  effects : ∀ effect : Performed ι ο,
    effect ∈ effectsOf blocks ↔ outcome effect.caller = some (effect.input, effect.output)
  nodup : ((effectsOf blocks).map Performed.caller).Nodup
  order : ∀ i j, before i j → ∃ k, At blocks i k ∧ ∀ l, At blocks j l → k < l

section Records

variable {outcome later : Nat → Option (ι × ο)} {before : Nat → Nat → Prop}
  {blocks after : List (Block σ ι ο)} {effect : Performed ι ο} {index : Nat}

/-- An operation that has not taken effect is not in the history. -/
theorem Recorded.not_at (h : Recorded outcome before blocks) {caller : Nat}
    (hcaller : outcome caller = none) : ¬ At blocks caller index := by
  intro hat
  obtain ⟨effect, hmem, rfl⟩ := mem_of_at hat
  rw [(h.effects effect).mp hmem] at hcaller
  cases hcaller

/-- One more operation takes effect, behind those that had returned when it was called. -/
theorem Recorded.grow (h : Recorded outcome before blocks) (hgrows : Grows blocks after effect index)
    (hnone : outcome effect.caller = none)
    (hbefore : ∀ i, before i effect.caller → ∃ k < index, At blocks i k)
    (houtcome : ∀ i, later i =
      if i = effect.caller then some (effect.input, effect.output) else outcome i) :
    Recorded later before after := by
  constructor
  · intro other
    rw [hgrows.perm.mem_iff, List.mem_cons, h.effects, houtcome]
    by_cases hcaller : other.caller = effect.caller
    · rw [if_pos hcaller, hcaller, hnone]
      obtain ⟨caller, input, output⟩ := other
      obtain ⟨caller', input', output'⟩ := effect
      dsimp only at hcaller
      subst hcaller
      simp [eq_comm]
    · rw [if_neg hcaller, or_iff_right]
      rintro rfl
      exact hcaller rfl
  · refine (hgrows.perm.map _).nodup_iff.mpr (List.nodup_cons.mpr ⟨fun hmem => ?_, h.nodup⟩)
    obtain ⟨other, hother, hcaller⟩ := List.mem_map.mp hmem
    have hsome := (h.effects other).mp hother
    rw [hcaller, hnone] at hsome
    cases hsome
  · intro i j hij
    by_cases hj : j = effect.caller
    · subst hj
      obtain ⟨k, hlt, hat⟩ := hbefore i hij
      refine ⟨k, (hgrows.at_iff i k).mpr (.inl hat), fun l hl => ?_⟩
      rcases (hgrows.at_iff _ l).mp hl with hold | ⟨-, rfl⟩
      · exact absurd hold (h.not_at hnone)
      · exact hlt
    · obtain ⟨k, hat, hrest⟩ := h.order i j hij
      refine ⟨k, (hgrows.at_iff i k).mpr (.inl hat), fun l hl => ?_⟩
      rcases (hgrows.at_iff j l).mp hl with hold | ⟨heq, -⟩
      · exact hrest l hold
      · exact absurd heq hj

/-- Operations have returned before others were called that have not taken effect. -/
theorem Recorded.extend (h : Recorded outcome before blocks) {extended : Nat → Nat → Prop}
    (hextended : ∀ i j, extended i j →
      before i j ∨ ((outcome i).isSome = true ∧ outcome j = none)) :
    Recorded outcome extended blocks := by
  refine ⟨h.effects, h.nodup, fun i j hij => ?_⟩
  rcases hextended i j hij with hbefore | ⟨hsome, hnone⟩
  · exact h.order i j hbefore
  · obtain ⟨⟨input, output⟩, houtcome⟩ := Option.isSome_iff_exists.mp hsome
    obtain ⟨k, hat⟩ := at_of_mem ((h.effects ⟨i, input, output⟩).mpr houtcome)
    exact ⟨k, hat, fun l hl => absurd hl (h.not_at hnone)⟩

/-- Operations in different blocks are in the order of their blocks. -/
theorem at_sublist {i j k l : Nat} (hi : At blocks i k) (hj : At blocks j l) (hlt : k < l) :
    [i, j].Sublist ((effectsOf blocks).map Performed.caller) := by
  induction blocks generalizing k l with
  | nil =>
      obtain ⟨block, hblock, -⟩ := hi
      simp at hblock
  | cons block blocks ih =>
      obtain ⟨l, rfl⟩ := Nat.exists_eq_add_one_of_ne_zero (Nat.ne_zero_of_lt hlt)
      rw [effectsOf, List.flatMap_cons, List.map_append, ← effectsOf]
      cases k with
      | zero =>
          obtain ⟨first, hfirst, hmem⟩ := hi
          obtain rfl := Option.some.inj hfirst
          have hlast : At blocks j l := hj
          obtain ⟨effect, heffect, rfl⟩ := mem_of_at hlast
          exact List.Sublist.append (List.singleton_sublist.mpr hmem)
            (List.singleton_sublist.mpr (List.mem_map_of_mem heffect))
      | succ k =>
          have hfirst : At blocks i k := hi
          have hlast : At blocks j l := hj
          exact (ih hfirst hlast (by omega)).trans (List.sublist_append_right _ _)

/-- A complete history is a serial order of its operations, consistent with real time. -/
theorem Recorded.serial {start final : σ} {count : Nat} (h : Recorded outcome before blocks)
    (hlinked : Linked step start blocks final) (hall : ∀ i, (outcome i).isSome ↔ i < count) :
    ∃ order : List Nat, order.Perm (List.range count) ∧
      (∀ i j, j < count → before i j → [i, j].Sublist order) ∧
      exec step (order.filterMap fun i => (outcome i).map Prod.fst) start =
        (order.filterMap fun i => (outcome i).map Prod.snd, final) := by
  have hmem {i : Nat} (hi : i < count) : ∃ effect ∈ effectsOf blocks, effect.caller = i := by
    obtain ⟨⟨input, output⟩, hsome⟩ := Option.isSome_iff_exists.mp ((hall i).mpr hi)
    exact ⟨⟨i, input, output⟩, (h.effects ⟨i, input, output⟩).mpr hsome, rfl⟩
  -- Along the order, the outcomes are the recorded inputs and answers.
  have hread {γ : Type} (part : ι × ο → γ) :
      ((effectsOf blocks).map Performed.caller).filterMap (fun i => (outcome i).map part) =
        (effectsOf blocks).map fun effect => part (effect.input, effect.output) := by
    rw [List.filterMap_map, ← List.filterMap_eq_map]
    refine List.filterMap_congr fun effect heffect => ?_
    simp [(h.effects effect).mp heffect]
  refine ⟨(effectsOf blocks).map Performed.caller, ?_, ?_, ?_⟩
  · refine (List.perm_ext_iff_of_nodup h.nodup List.nodup_range).mpr fun i => ?_
    rw [List.mem_map, List.mem_range]
    constructor
    · rintro ⟨effect, heffect, rfl⟩
      rw [← hall, (h.effects effect).mp heffect]
      rfl
    · exact hmem
  · intro i j hj hbefore
    obtain ⟨k, hat, hrest⟩ := h.order i j hbefore
    obtain ⟨effect, heffect, rfl⟩ := hmem hj
    obtain ⟨l, hl⟩ := at_of_mem heffect
    exact at_sublist hat hl (hrest l hl)
  · rw [hread, hread]
    exact hlinked.exec

end Records

end DurableStreams.Lib
