import Mathlib.Algebra.GroupWithZero.Nat
import PolicyLint.Proofs.License.Machine
import PolicyLint.Proofs.License.RoundTrip

/-!
# What the counters say

The depth is the number of parentheses that wait for their end, and every join that was counted stands in a tree:
in the one that is handed back, or in one that a waiting chain has put together so far. So the two limits bound
every tree that is handed back, whatever the tokens are.
-/
namespace PolicyLint.License
open Token
set_option autoImplicit false

namespace Expr

def height : Expr → Nat
  | license _ => 1
  | and a b => max a.height b.height + 1
  | or a b => max a.height b.height + 1

theorem height_le (e : Expr) : e.height ≤ e.operators + 1 := by
  induction e with
  | license _ => exact Nat.le_refl 1
  | and a b iha ihb | or a b iha ihb =>
    simp only [height, operators]
    omega

end Expr

theorem Chain.operators_joined (c : Chain) (left : Option Expr) (e : Expr) :
    (c.joined left e).operators = e.operators + (left.map fun a => a.operators + 1).getD 0 := by
  cases left with
  | none => rfl
  | some a =>
    simp only [Chain.joined, Option.map_some, Option.getD_some]
    cases c with
    | conjuncts | disjuncts =>
      simp only [Chain.join, Expr.operators]
      omega

namespace Frame

def isParens : Frame → Bool
  | parens _ => true
  | chain _ _ | suffixed _ => false

/-- The joins among the operands of a chain, with the one in front of the operand that it waits for. -/
def held : Frame → Nat
  | chain _ left => (left.map fun a => a.operators + 1).getD 0
  | suffixed _ | parens _ => 0

end Frame

namespace Control

def held : Control → Nat
  | value e => e.operators
  | call _ | fault _ => 0

end Control

/-- A fault, or the answer to the first call. -/
def Config.IsLast (c : Config) : Prop :=
  (∃ f, c.control = .fault f) ∨ c.frames = [] ∧ ∃ e, c.control = .value e

theorem Counters.eq_of_leave {s s' : Counters} (h : s.leave? = some s') :
    s'.position = s.position ∧ s.depth = s'.depth + 1 ∧ s'.operators = s.operators := by
  obtain ⟨position, depth, operators⟩ := s
  cases depth with
  | zero => cases h
  | succ depth =>
    cases h
    exact ⟨rfl, rfl, rfl⟩

namespace Machine

section
variable (tokens : List Token)

structure Within (frames : List Frame) (s : Counters) : Prop where
  position_le : s.position ≤ tokens.length
  depth_eq : s.depth = frames.countP Frame.isParens
  depth_le : s.depth ≤ maxNesting

/-- The joins that were met are counted, and held by the trees. -/
structure Counted (held : Nat) (s : Counters) : Prop where
  operators_eq : s.operators = joins ((tokens.take s.position).map lexeme)
  operators_le : s.operators ≤ maxOperators
  held_eq : held = s.operators

/-- A refused operator is taken but not counted, or counted but not taken, so the joins are left open behind a fault. -/
structure Sound (c : Config) : Prop where
  within : Within tokens c.frames c.counters
  counted : (∀ f, c.control ≠ .fault f) → Counted tokens (c.control.held + (c.frames.map Frame.held).sum) c.counters

end

variable {tokens : List Token} {stop : Nat} {s : Counters} {t : Token} {frames : List Frame} {f : Fault} {held : Nat}

theorem joins_take_succ {i : Nat} (h : tokens[i]? = some t) :
    joins ((tokens.take (i + 1)).map lexeme) = joins ((tokens.take i).map lexeme) + joins [t.lexeme] := by
  rw [List.take_add_one, h, Option.toList_some, List.map_append, joins_append, List.map_singleton]

theorem joins_lexeme_of_ne (hAnd : t.kind ≠ .andWord) (hOr : t.kind ≠ .orWord) : joins [t.lexeme] = 0 := by
  rw [kind_eq_kind_lexeme] at hAnd hOr
  cases hLexeme : t.lexeme with
  | andWord => simp [hLexeme, Lexeme.kind] at hAnd
  | orWord => simp [hLexeme, Lexeme.kind] at hOr
  | _ => rfl

theorem joins_lexeme_of_operator {c : Chain} (h : t.kind = c.operator) : joins [t.lexeme] = 1 := by
  cases c with
  | conjuncts => rw [lexeme_eq_of_kind (l := .andWord) (by simp) h]; rfl
  | disjuncts => rw [lexeme_eq_of_kind (l := .orWord) (by simp) h]; rfl

namespace Within

theorem of_frames {frames' : List Frame} (h : Within tokens frames s)
    (hFrames : frames'.countP Frame.isParens = frames.countP Frame.isParens) : Within tokens frames' s :=
  ⟨h.position_le, hFrames ▸ h.depth_eq, h.depth_le⟩

theorem skip (h : Within tokens frames s) (hNext : tokens[s.position]? = some t) : Within tokens frames (s.skip 1) := by
  obtain ⟨hPosition, -⟩ := List.getElem?_eq_some_iff.mp hNext
  exact ⟨hPosition, h.depth_eq, h.depth_le⟩

theorem enter (h : Within tokens frames s) (hNext : tokens[s.position]? = some t) (hRoom : s.depth ≠ maxNesting) :
    Within tokens (.parens t :: frames) s.enter := by
  obtain ⟨hPosition, hDepth, hLimit⟩ := h.skip hNext
  refine ⟨hPosition, ?_, ?_⟩
  · rw [List.countP_cons_of_pos rfl, ← hDepth]
    rfl
  · simp only [Counters.enter, Counters.skip] at hLimit ⊢
    omega

theorem count (h : Within tokens frames s) : Within tokens frames s.count :=
  ⟨h.position_le, h.depth_eq, h.depth_le⟩

theorem exists_leave (h : Within tokens (.parens t :: frames) s) : ∃ s', s.leave? = some s' := by
  obtain ⟨position, depth, operators⟩ := s
  have hDepth := h.depth_eq
  rw [List.countP_cons_of_pos rfl] at hDepth
  cases depth with
  | zero => cases hDepth
  | succ depth => exact ⟨_, rfl⟩

theorem leave {s' : Counters} (h : Within tokens (.parens t :: frames) s) (hLeave : s.leave? = some s') :
    Within tokens frames s' := by
  obtain ⟨hPosition, hDepth, -⟩ := Counters.eq_of_leave hLeave
  obtain ⟨hTokens, hOpen, hLimit⟩ := h
  rw [List.countP_cons_of_pos rfl] at hOpen
  refine ⟨?_, ?_, ?_⟩
  · omega
  · omega
  · omega

end Within

namespace Counted

theorem skip (h : Counted tokens held s) (hNext : tokens[s.position]? = some t) (hAnd : t.kind ≠ .andWord)
    (hOr : t.kind ≠ .orWord) : Counted tokens held (s.skip 1) := by
  refine ⟨?_, h.operators_le, h.held_eq⟩
  rw [Counters.skip, joins_take_succ hNext, joins_lexeme_of_ne hAnd hOr]
  exact h.operators_eq

theorem enter (h : Counted tokens held s) (hNext : tokens[s.position]? = some t) (hKind : t.kind = .leftParen) :
    Counted tokens held s.enter := by
  obtain ⟨hOperators, hLimit, hHeld⟩ := h.skip hNext (by simp [hKind]) (by simp [hKind])
  exact ⟨hOperators, hLimit, hHeld⟩

theorem count {c : Chain} (h : Counted tokens held s) (hNext : tokens[s.position]? = some t)
    (hKind : t.kind = c.operator) (hLimit : s.count.operators ≤ maxOperators) :
    Counted tokens (held + 1) (s.count.skip 1) := by
  refine ⟨?_, hLimit, congrArg (· + 1) h.held_eq⟩
  have hTake := joins_take_succ hNext
  rw [joins_lexeme_of_operator hKind, ← h.operators_eq] at hTake
  exact hTake.symm

theorem leave {s' : Counters} (h : Counted tokens held s) (hLeave : s.leave? = some s') :
    Counted tokens held s' := by
  obtain ⟨hPosition, -, hOperators⟩ := Counters.eq_of_leave hLeave
  refine ⟨?_, ?_, ?_⟩
  · rw [hPosition, hOperators]
    exact h.operators_eq
  · exact hOperators ▸ h.operators_le
  · exact hOperators ▸ h.held_eq

end Counted

namespace Sound

theorem of_fault (h : Within tokens frames s) : Sound tokens ⟨.fault f, frames, s⟩ :=
  ⟨h, fun hFault => absurd rfl (hFault f)⟩

theorem of_counted {control : Control} (h : Within tokens frames s)
    (hCounted : Counted tokens (control.held + (frames.map Frame.held).sum) s) : Sound tokens ⟨control, frames, s⟩ :=
  ⟨h, fun _ => hCounted⟩

theorem counted_of_call {layer : Layer} (h : Sound tokens ⟨.call layer, frames, s⟩) :
    Counted tokens (frames.map Frame.held).sum s := by
  have hCounted := h.counted (by simp)
  rwa [Control.held, Nat.zero_add] at hCounted

theorem counted_of_value {e : Expr} (h : Sound tokens ⟨.value e, frames, s⟩) :
    Counted tokens (e.operators + (frames.map Frame.held).sum) s := h.counted (by simp)

theorem of_call {layer : Layer} (h : Within tokens frames s) (hCounted : Counted tokens (frames.map Frame.held).sum s) :
    Sound tokens ⟨.call layer, frames, s⟩ := by
  refine of_counted h ?_
  rwa [Control.held, Nat.zero_add]

/-- A call may wait for another one that has taken nothing. -/
theorem push {layer layer' : Layer} {frame : Frame} (h : Sound tokens ⟨.call layer, frames, s⟩)
    (hParens : frame.isParens = false) (hHeld : frame.held = 0) :
    Sound tokens ⟨.call layer', frame :: frames, s⟩ := by
  refine of_call (h.within.of_frames ?_) ?_
  · rw [List.countP_cons_of_neg (by simp [hParens])]
  · rw [List.map_cons, List.sum_cons, hHeld, Nat.zero_add]
    exact h.counted_of_call

end Sound

theorem sound_enterAtom {layer : Layer} (h : Sound tokens ⟨.call layer, frames, s⟩) :
    Sound tokens (enterAtom tokens stop frames s) := by
  have hWithin : Within tokens frames s := h.within
  have hCounted := h.counted_of_call
  unfold enterAtom
  split
  · exact .of_fault hWithin
  · rename_i t hNext
    split
    · rename_i hKind
      split_ifs with hDepth
      · exact .of_fault (hWithin.skip hNext)
      · refine .of_call (hWithin.enter hNext hDepth) ?_
        simpa [Frame.held] using hCounted.enter hNext hKind
    · rename_i hKind
      split
      · refine .of_counted (hWithin.skip hNext) ?_
        have hSkip := hCounted.skip hNext (by simp [hKind]) (by simp [hKind])
        simpa [Control.held, Expr.operators] using hSkip
      · exact .of_fault (hWithin.skip hNext)
    all_goals exact .of_fault (hWithin.skip hNext)

theorem sound_resumeChain {c : Chain} {left : Option Expr} {e : Expr}
    (h : Sound tokens ⟨.value e, .chain c left :: frames, s⟩) : Sound tokens (resumeChain tokens c left e frames s) := by
  have hWithin : Within tokens frames s := h.within.of_frames (by simp [Frame.isParens])
  have hCounted : Counted tokens ((c.joined left e).operators + (frames.map Frame.held).sum) s := by
    rw [c.operators_joined, Nat.add_assoc]
    exact h.counted_of_value
  unfold resumeChain
  split
  · exact .of_counted hWithin hCounted
  · rename_i t hNext
    split_ifs with hKind hLimit
    · exact .of_fault (hWithin.count.of_frames (by simp [Frame.isParens]))
    · refine .of_call ((hWithin.count.skip hNext).of_frames (by simp [Frame.isParens])) ?_
      -- The join that was just counted is held by the frame, until its right operand is read.
      have hCount := hCounted.count hNext hKind (Nat.le_of_not_lt hLimit)
      rw [List.map_cons, List.sum_cons, Frame.held, Option.map_some, Option.getD_some, Nat.add_right_comm]
      exact hCount
    · exact .of_counted hWithin hCounted

theorem sound_resumeSuffixed {start : Nat} {e : Expr} (h : Sound tokens ⟨.value e, .suffixed start :: frames, s⟩) :
    Sound tokens (resumeSuffixed tokens stop start e frames s) := by
  have hWithin : Within tokens frames s := h.within.of_frames (by simp [Frame.isParens])
  have hCounted : Counted tokens (e.operators + (frames.map Frame.held).sum) s := by
    simpa [Frame.held] using h.counted_of_value
  unfold resumeSuffixed
  split
  · exact .of_counted hWithin hCounted
  · rename_i w hNext
    split_ifs with hWith
    · split
      · split_ifs
        · exact .of_fault (hWithin.skip hNext)
        · split
          · exact .of_fault (hWithin.skip hNext)
          · rename_i t hBehind
            have hBoth : Within tokens frames (s.skip 2) := (hWithin.skip hNext).skip hBehind
            split_ifs with hName
            · exact .of_fault hBoth
            · refine .of_counted hBoth ?_
              have hSkip := hCounted.skip hNext (by simp [hWith]) (by simp [hWith])
              exact hSkip.skip hBehind (by simp [not_not.mp hName]) (by simp [not_not.mp hName])
            · exact .of_fault hBoth
      · exact .of_fault (hWithin.skip hNext)
    · exact .of_counted hWithin hCounted

theorem sound_resumeParens {opening : Token} {e : Expr} (hWithin : Within tokens frames s)
    (hCounted : Counted tokens (e.operators + (frames.map Frame.held).sum) s) :
    Sound tokens (resumeParens tokens opening e frames s) := by
  unfold resumeParens
  split_ifs with hClose
  · obtain ⟨close, hNext, hKind⟩ := Option.map_eq_some_iff.mp hClose
    exact .of_counted (hWithin.skip hNext) (hCounted.skip hNext (by simp [hKind]) (by simp [hKind]))
  · exact .of_fault hWithin

variable {c c' : Config}

/-- All that a step can do: wait for a layer below, begin an atom, or go on where an answer was waited for. -/
inductive Steps (tokens : List Token) (stop : Nat) : Config → Config → Prop
  | push {layer layer' : Layer} {frame : Frame} {frames : List Frame} {s : Counters}
      (hParens : frame.isParens = false) (hHeld : frame.held = 0) :
      Steps tokens stop ⟨.call layer, frames, s⟩ ⟨.call layer', frame :: frames, s⟩
  | atom {frames : List Frame} {s : Counters} :
      Steps tokens stop ⟨.call .atom, frames, s⟩ (enterAtom tokens stop frames s)
  | chain {c : Chain} {left : Option Expr} {e : Expr} {frames : List Frame} {s : Counters} :
      Steps tokens stop ⟨.value e, .chain c left :: frames, s⟩ (resumeChain tokens c left e frames s)
  | suffixed {start : Nat} {e : Expr} {frames : List Frame} {s : Counters} :
      Steps tokens stop ⟨.value e, .suffixed start :: frames, s⟩ (resumeSuffixed tokens stop start e frames s)
  | parens {opening : Token} {e : Expr} {frames : List Frame} {s s' : Counters} (hLeave : s.leave? = some s') :
      Steps tokens stop ⟨.value e, .parens opening :: frames, s⟩ (resumeParens tokens opening e frames s')

theorem steps_of_step (h : step tokens stop c = some c') : Steps tokens stop c c' := by
  obtain ⟨control, frames, s⟩ := c
  cases control with
  | fault _ => cases h
  | call layer =>
    cases layer with
    | disjunction | conjunction | suffixed =>
      cases h
      exact .push rfl rfl
    | atom =>
      cases h
      exact .atom
  | value e =>
    cases frames with
    | nil => cases h
    | cons frame frames =>
      cases frame with
      | chain c left =>
        cases h
        exact .chain
      | suffixed start =>
        cases h
        exact .suffixed
      | parens opening =>
        obtain ⟨s', hLeave, rfl⟩ := Option.map_eq_some_iff.mp h
        exact .parens hLeave

theorem Sound.step (h : Sound tokens c) (hStep : step tokens stop c = some c') : Sound tokens c' := by
  cases steps_of_step hStep with
  | push hParens hHeld => exact h.push hParens hHeld
  | atom => exact sound_enterAtom h
  | chain => exact sound_resumeChain h
  | suffixed => exact sound_resumeSuffixed h
  | parens hLeave =>
    refine sound_resumeParens (h.within.leave hLeave) (Counted.leave ?_ hLeave)
    simpa [Frame.held] using h.counted_of_value

/-- Only at the end is there no step: a level that is left was entered before. -/
theorem Sound.exists_step (h : Sound tokens c) (hLast : ¬ c.IsLast) : ∃ c', Machine.step tokens stop c = some c' := by
  obtain ⟨control, frames, s⟩ := c
  cases control with
  | fault f => exact absurd (.inl ⟨f, rfl⟩) hLast
  | call layer => cases layer <;> exact ⟨_, rfl⟩
  | value e =>
    cases frames with
    | nil => exact absurd (.inr ⟨rfl, e, rfl⟩) hLast
    | cons frame frames =>
      cases frame with
      | chain _ _ | suffixed _ => exact ⟨_, rfl⟩
      | parens opening =>
        obtain ⟨s', hLeave⟩ := h.within.exists_leave
        exact ⟨_, by rw [Machine.step, hLeave, Option.map_some]⟩

theorem Sound.runs (h : Sound tokens c) (hRuns : Runs tokens stop c c') : Sound tokens c' := by
  induction hRuns with
  | refl => exact h
  | tail _ hStep ih => exact ih.step hStep

theorem position_enterAtom (hNext : tokens[s.position]? = some t) :
    (enterAtom tokens stop frames s).counters.position = s.position + 1 := by
  simp only [enterAtom, hNext]
  split
  · split_ifs <;> rfl
  · split <;> rfl
  all_goals rfl

theorem position_le_enterAtom : s.position ≤ (enterAtom tokens stop frames s).counters.position := by
  cases hNext : tokens[s.position]? with
  | none => simp [enterAtom, hNext]
  | some t =>
    rw [position_enterAtom hNext]
    exact Nat.le_succ _

theorem position_le_resumeChain {c : Chain} {left : Option Expr} {e : Expr} :
    s.position ≤ (resumeChain tokens c left e frames s).counters.position := by
  unfold resumeChain
  split
  · exact Nat.le_refl _
  · split_ifs <;> simp [Counters.skip, Counters.count]

theorem position_le_resumeSuffixed {start : Nat} {e : Expr} :
    s.position ≤ (resumeSuffixed tokens stop start e frames s).counters.position := by
  unfold resumeSuffixed
  split
  · exact Nat.le_refl _
  · split_ifs
    · split
      · split_ifs
        · exact Nat.le_succ _
        · split
          · exact Nat.le_succ _
          · split_ifs <;> exact Nat.le_add_right _ 2
      · exact Nat.le_succ _
    · exact Nat.le_refl _

theorem position_le_resumeParens {opening : Token} {e : Expr} :
    s.position ≤ (resumeParens tokens opening e frames s).counters.position := by
  unfold resumeParens
  split_ifs
  · exact Nat.le_succ _
  · exact Nat.le_refl _

theorem position_le_of_step (h : step tokens stop c = some c') : c.counters.position ≤ c'.counters.position := by
  cases steps_of_step h with
  | push => exact Nat.le_refl _
  | atom => exact position_le_enterAtom
  | chain => exact position_le_resumeChain
  | suffixed => exact position_le_resumeSuffixed
  | parens hLeave =>
    rw [← (Counters.eq_of_leave hLeave).1]
    exact position_le_resumeParens

theorem Runs.position_le (h : Runs tokens stop c c') : c.counters.position ≤ c'.counters.position := by
  induction h with
  | refl => exact Nat.le_refl _
  | tail _ hStep ih => exact ih.trans (position_le_of_step hStep)

/-- An atom that is answered has taken a token. -/
theorem Runs.position_lt {e : Expr} (h : Runs tokens stop ⟨.call .atom, frames, s⟩ c') (hValue : c'.control = .value e) :
    s.position < c'.counters.position := by
  rcases Relation.ReflTransGen.cases_head h with rfl | ⟨next, hStep, hRest⟩
  · cases hValue
  · cases hStep
    cases hNext : tokens[s.position]? with
    | none =>
      simp only [enterAtom, hNext] at hRest
      rcases Relation.ReflTransGen.cases_head hRest with rfl | ⟨_, hStep, -⟩
      · cases hValue
      · cases hStep
    | some t =>
      have hLater := Runs.position_le hRest
      rw [position_enterAtom hNext] at hLater
      exact hLater

theorem Sound.operators_le {e : Expr} (h : Sound tokens c) (hValue : c.control = .value e) :
    e.operators ≤ maxOperators := by
  obtain ⟨-, hLimit, hHeld⟩ := h.counted (by simp [hValue])
  rw [hValue, Control.held] at hHeld
  omega

theorem Sound.leaves (h : Sound tokens c) (hFault : ∀ f, c.control ≠ .fault f) :
    Leaves tokens c.counters (maxNesting - c.counters.depth) (maxOperators - c.counters.operators)
      (tokens.drop c.counters.position) :=
  ⟨rfl, h.within.position_le, Nat.add_sub_cancel' h.within.depth_le, Nat.add_sub_cancel' (h.counted hFault).operators_le⟩

theorem Leaves.eq_counters {room budget : Nat} {rest : List Token} (h : Leaves tokens s room budget rest) :
    s = ⟨tokens.length - rest.length, maxNesting - room, maxOperators - budget⟩ := by
  obtain ⟨position, depth, operators⟩ := s
  obtain ⟨rfl, hPosition, hDepth, hOperators⟩ := h
  dsimp only at hPosition hDepth hOperators
  rw [List.length_drop, Counters.mk.injEq]
  dsimp only
  omega

/-- What the counters say wherever a run is; behind a fault nothing is said of the joins. -/
structure Bounded (tokens : List Token) (stop : Nat) (c : Config) : Prop where
  position_le : c.counters.position ≤ tokens.length
  depth_eq : c.counters.depth = c.frames.countP Frame.isParens
  depth_le : c.counters.depth ≤ 64
  operators_eq : (∀ f, c.control ≠ .fault f) →
    c.counters.operators = joins ((tokens.take c.counters.position).map lexeme)
  operators_le : (∀ f, c.control ≠ .fault f) → c.counters.operators ≤ 512
  tree : ∀ e, c.control = .value e → e.operators ≤ 512 ∧ e.height ≤ 513
  /-- No level is left that was not entered. -/
  goes_on : ¬ c.IsLast → ∃ c', step tokens stop c = some c'
  advances : ∀ c', Runs tokens stop c c' → c.counters.position ≤ c'.counters.position
  returns : ∀ layer c' e, c.control = .call layer → Runs tokens stop c c' → c'.control = .value e →
    c'.frames = c.frames → c'.counters.depth = c.counters.depth ∧
      (layer = .atom → c.counters.position < c'.counters.position)
  /-- A call is answered as the reader of its layer answers, and the waiting calls go on from there. -/
  answers : ∀ layer r, c.control = .call layer →
    Reader.ofLayer stop (64 - c.counters.depth) layer (512 - c.counters.operators)
      (tokens.drop c.counters.position) = .ok r →
    Runs tokens stop c
      ⟨.value r.expr, c.frames, ⟨tokens.length - r.rest.length, c.counters.depth, 512 - r.budget⟩⟩
  fails : ∀ layer f, c.control = .call layer →
    Reader.ofLayer stop (64 - c.counters.depth) layer (512 - c.counters.operators)
      (tokens.drop c.counters.position) = .error f →
    ∃ c', c'.control = .fault f ∧ Runs tokens stop c c'

theorem Sound.bounded (h : Sound tokens c) : Bounded tokens stop c where
  position_le := h.within.position_le
  depth_eq := h.within.depth_eq
  depth_le := h.within.depth_le
  operators_eq hFault := (h.counted hFault).operators_eq
  operators_le hFault := (h.counted hFault).operators_le
  tree e hValue := by
    have hOperators : e.operators ≤ 512 := h.operators_le hValue
    have hHeight := e.height_le
    omega
  goes_on := h.exists_step
  advances _ hRuns := hRuns.position_le
  returns layer c' e hCall hRuns hValue hFrames := by
    refine ⟨?_, ?_⟩
    · rw [(h.runs hRuns).within.depth_eq, hFrames, ← h.within.depth_eq]
    · rintro rfl
      obtain ⟨control, frames, s⟩ := c
      cases hCall
      exact hRuns.position_lt hValue
  answers layer r hCall hReader := by
    obtain ⟨control, frames, s⟩ := c
    cases hCall
    obtain ⟨s', hAfter, hRuns⟩ := (answers_ofLayer _ layer).value _ _ _ _ _ _ frames (h.leaves (by simp))
      (Reader.reads_of_eq_ok hReader)
    rw [hAfter.eq_counters, Nat.sub_sub_self h.within.depth_le] at hRuns
    exact hRuns
  fails layer f hCall hReader := by
    obtain ⟨control, frames, s⟩ := c
    cases hCall
    exact (answers_ofLayer _ layer).fault _ _ _ _ frames (h.leaves (by simp)) hReader

def start (entry : Layer) : Config := ⟨.call entry, [], ⟨0, 0, 0⟩⟩

theorem sound_start (entry : Layer) : Sound tokens (start entry) :=
  .of_call ⟨Nat.zero_le _, rfl, Nat.zero_le _⟩ ⟨rfl, Nat.zero_le _, rfl⟩

end Machine

theorem Expr.operators_le_of_parse {text : String} {e : Expr} (h : parse text = .ok e) : e.operators ≤ maxOperators := by
  obtain ⟨ls, hSpelled⟩ := Spelled.exists_spelled text.toList
  obtain ⟨-, hDerives, -, hJoins⟩ := derives_of_parse hSpelled h
  rwa [← hDerives.joins_eq]

/-- Whatever the tokens are, the counters keep to their limits, and so do the trees that are handed back. -/
theorem Machine.counters_bounded :
    (∀ tokens stop entry c, Runs tokens stop (start entry) c → Bounded tokens stop c) ∧
      ∀ text e, Expr.parse text = .ok e → e.operators ≤ 512 ∧ e.height ≤ 513 := by
  constructor
  · intro tokens stop entry c hRuns
    exact ((sound_start entry).runs hRuns).bounded
  · intro text e hParse
    have hOperators : e.operators ≤ 512 := Expr.operators_le_of_parse hParse
    have hHeight := e.height_le
    omega

theorem Machine.counters_bounded_grouped :
    ∃ tokens e, ofText "(A OR B) AND C" = .ok tokens ∧ e.operators = 2 ∧
      Runs tokens 14 (start .disjunction) ⟨.value e, [], ⟨7, 0, 2⟩⟩ ∧
      Bounded tokens 14 ⟨.value e, [], ⟨7, 0, 2⟩⟩ := by
  let tokens : List Token := [⟨.leftParen, "(", 0⟩, ⟨.name, "A", 1⟩, ⟨.orWord, "OR", 3⟩, ⟨.name, "B", 6⟩,
    ⟨.rightParen, ")", 7⟩, ⟨.andWord, "AND", 9⟩, ⟨.name, "C", 13⟩]
  have hReader : (Reader.ofLayer 14 64 .disjunction 512 tokens).map
      (fun r => (r.expr.operators, r.budget, r.rest)) = .ok (2, 510, []) := by decide +kernel
  obtain ⟨⟨e, budget, rest, hShorter⟩, hRead, hParts⟩ := Outcome.map_eq_ok_iff.mp hReader
  simp only [Prod.mk.injEq] at hParts
  obtain ⟨hOperators, rfl, rfl⟩ := hParts
  have hRuns := (counters_bounded.1 tokens 14 .disjunction _ .refl).answers .disjunction _ rfl hRead
  exact ⟨tokens, e, by decide +kernel, hOperators, hRuns, counters_bounded.1 tokens 14 .disjunction _ hRuns⟩

end PolicyLint.License
