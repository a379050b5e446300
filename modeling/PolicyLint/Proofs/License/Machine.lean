import Mathlib.Logic.Relation
import PolicyLint.Proofs.License.Failures

/-!
# The readers as a machine

A reader is told what it may still use: the tokens that are left, further levels of parentheses, further joins. The
machine counts instead what was used, and keeps the calls that wait for an answer as frames, so that what holds at
every call can be said. It answers each call as the reader of that layer does, whatever waits for the answer.
-/
namespace PolicyLint.License
open Token
set_option autoImplicit false

/-- The tokens taken, the parentheses open and the joins met. -/
structure Counters where
  position : Nat
  depth : Nat
  operators : Nat
  deriving DecidableEq, Repr

namespace Counters

def skip (s : Counters) (n : Nat) : Counters := { s with position := s.position + n }

def enter (s : Counters) : Counters := { s.skip 1 with depth := s.depth + 1 }

/-- There is no level to leave if none was entered. -/
def leave? : Counters → Option Counters
  | ⟨_, 0, _⟩ => none
  | ⟨position, depth + 1, operators⟩ => some ⟨position, depth, operators⟩

def count (s : Counters) : Counters := { s with operators := s.operators + 1 }

end Counters

inductive Chain where
  | conjuncts | disjuncts
  deriving DecidableEq, Repr

namespace Chain

def operator : Chain → Token.Kind
  | conjuncts => .andWord
  | disjuncts => .orWord

def join : Chain → Expr → Expr → Expr
  | conjuncts => .and
  | disjuncts => .or

def layer : Chain → Layer
  | conjuncts => .conjunction
  | disjuncts => .disjunction

def operand : Chain → Layer
  | conjuncts => .suffixed
  | disjuncts => .conjunction

/-- The chain up to its last operand, behind what was joined before. -/
def joined (c : Chain) (left : Option Expr) (e : Expr) : Expr :=
  match left with
  | none => e
  | some a => c.join a e

end Chain

/-- A call that waits: a chain with the operands it has joined, a license with the place where it starts, or a
parenthesis that has to be closed. -/
inductive Frame where
  | chain (c : Chain) (left : Option Expr)
  | suffixed (start : Nat)
  | parens (opening : Token)
  deriving DecidableEq, Repr

inductive Control where
  | call (layer : Layer)
  | value (e : Expr)
  | fault (f : Fault)
  deriving DecidableEq, Repr

structure Config where
  control : Control
  frames : List Frame
  counters : Counters
  deriving DecidableEq, Repr

namespace Machine
variable (tokens : List Token) (stop : Nat)

def enterAtom (frames : List Frame) (s : Counters) : Config :=
  match tokens[s.position]? with
  | none => ⟨.fault ⟨stop, .unexpectedEnd⟩, frames, s⟩
  | some t =>
    match t.kind with
    | .leftParen =>
      if s.depth = maxNesting then ⟨.fault ⟨t.offset, .tooDeep maxNesting⟩, frames, s.skip 1⟩
      else ⟨.call .disjunction, .parens t :: frames, s.enter⟩
    | .name =>
      match Reader.requirementOf t with
      | .ok r => ⟨.value (.license r), frames, s.skip 1⟩
      | .error f => ⟨.fault f, frames, s.skip 1⟩
    | .rightParen => ⟨.fault ⟨t.offset, .unbalancedParen⟩, frames, s.skip 1⟩
    | .andWord | .orWord | .withWord => ⟨.fault (Reader.unexpected t), frames, s.skip 1⟩

/-- The operator is counted before it is taken. -/
def resumeChain (c : Chain) (left : Option Expr) (e : Expr) (frames : List Frame) (s : Counters) : Config :=
  match tokens[s.position]? with
  | none => ⟨.value (c.joined left e), frames, s⟩
  | some t =>
    if t.kind = c.operator then
      if maxOperators < s.count.operators then
        ⟨.fault ⟨t.offset, .tooLong maxOperators⟩, .chain c (some (c.joined left e)) :: frames, s.count⟩
      else ⟨.call c.operand, .chain c (some (c.joined left e)) :: frames, s.count.skip 1⟩
    else ⟨.value (c.joined left e), frames, s⟩

def resumeSuffixed (start : Nat) (e : Expr) (frames : List Frame) (s : Counters) : Config :=
  match tokens[s.position]? with
  | none => ⟨.value e, frames, s⟩
  | some w =>
    if w.kind = .withWord then
      match e with
      | .license r =>
        if r.exception.isSome then ⟨.fault ⟨start, .unexpectedToken w.text⟩, frames, s.skip 1⟩
        else
          match tokens[s.position + 1]? with
          | none => ⟨.fault ⟨stop, .unexpectedEnd⟩, frames, s.skip 1⟩
          | some t =>
            if t.kind ≠ .name then ⟨.fault (Reader.unexpected t), frames, s.skip 2⟩
            else if isValidId t.text then
              ⟨.value (.license { r with exception := some t.text }), frames, s.skip 2⟩
            else ⟨.fault ⟨t.offset, .invalidIdentifier t.text⟩, frames, s.skip 2⟩
      | _ => ⟨.fault ⟨w.offset, .unexpectedToken w.text⟩, frames, s.skip 1⟩
    else ⟨.value e, frames, s⟩

def resumeParens (opening : Token) (e : Expr) (frames : List Frame) (s : Counters) : Config :=
  if tokens[s.position]?.map Token.kind = some .rightParen then ⟨.value e, frames, s.skip 1⟩
  else ⟨.fault ⟨opening.offset, .unbalancedParen⟩, frames, s⟩

/-- One step; there is none behind the last answer, behind a fault, or out of a level that was not entered. -/
def step : Config → Option Config
  | ⟨.call .disjunction, frames, s⟩ => some ⟨.call .conjunction, .chain .disjuncts none :: frames, s⟩
  | ⟨.call .conjunction, frames, s⟩ => some ⟨.call .suffixed, .chain .conjuncts none :: frames, s⟩
  | ⟨.call .suffixed, frames, s⟩ =>
    some ⟨.call .atom, .suffixed ((tokens[s.position]?.map Token.offset).getD stop) :: frames, s⟩
  | ⟨.call .atom, frames, s⟩ => some (enterAtom tokens stop frames s)
  | ⟨.value e, .chain c left :: frames, s⟩ => some (resumeChain tokens c left e frames s)
  | ⟨.value e, .suffixed start :: frames, s⟩ => some (resumeSuffixed tokens stop start e frames s)
  | ⟨.value e, .parens opening :: frames, s⟩ =>
    s.leave?.map (resumeParens tokens opening e frames)
  | ⟨.value _, [], _⟩ => none
  | ⟨.fault _, _, _⟩ => none

def Runs : Config → Config → Prop := Relation.ReflTransGen fun c c' => step tokens stop c = some c'

/-- What the counters leave to a reader. -/
structure Leaves (s : Counters) (room budget : Nat) (rest : List Token) : Prop where
  rest_eq : tokens.drop s.position = rest
  position_le : s.position ≤ tokens.length
  depth_add : s.depth + room = maxNesting
  operators_add : s.operators + budget = maxOperators

/-- The machine answers a call of the layer as the reader does. -/
structure Answers (read : Reader) (layer : Layer) (room : Nat) : Prop where
  value : ∀ s budget rest e left after frames, Leaves tokens s room budget rest →
    read.Reads budget rest e left after →
    ∃ s', Leaves tokens s' room left after ∧ Runs tokens stop ⟨.call layer, frames, s⟩ ⟨.value e, frames, s'⟩
  fault : ∀ s budget rest f frames, Leaves tokens s room budget rest → read budget rest = .error f →
    ∃ c, c.control = .fault f ∧ Runs tokens stop ⟨.call layer, frames, s⟩ c

variable {tokens stop} {s : Counters} {room budget : Nat} {t : Token} {rest : List Token} {frames : List Frame}

section
variable {c next c' : Config}

theorem Runs.head (hStep : step tokens stop c = some next) (h : Runs tokens stop next c') : Runs tokens stop c c' :=
  Relation.ReflTransGen.head hStep h

theorem Runs.trans (h : Runs tokens stop c next) (h' : Runs tokens stop next c') : Runs tokens stop c c' :=
  Relation.ReflTransGen.trans h h'

theorem exists_fault_of_step {f : Fault} (hStep : step tokens stop c = some next)
    (hFault : next.control = .fault f) : ∃ c', c'.control = .fault f ∧ Runs tokens stop c c' :=
  ⟨next, hFault, .head hStep .refl⟩

theorem Runs.exists_fault {f : Fault} (h : Runs tokens stop c next)
    (hFault : ∃ c', c'.control = .fault f ∧ Runs tokens stop next c') :
    ∃ c', c'.control = .fault f ∧ Runs tokens stop c c' := by
  obtain ⟨c', hControl, hRun⟩ := hFault
  exact ⟨c', hControl, h.trans hRun⟩

end

namespace Leaves

theorem peek (h : Leaves tokens s room budget rest) : tokens[s.position]? = rest.head? := by
  rw [← h.rest_eq, List.head?_drop]

theorem skip_one (h : Leaves tokens s room budget (t :: rest)) : Leaves tokens (s.skip 1) room budget rest := by
  obtain ⟨hPosition, -⟩ := List.getElem?_eq_some_iff.mp h.peek
  refine ⟨?_, hPosition, h.depth_add, h.operators_add⟩
  rw [Counters.skip, ← List.tail_drop, h.rest_eq, List.tail_cons]

theorem enter (h : Leaves tokens s (room + 1) budget (t :: rest)) : Leaves tokens s.enter room budget rest := by
  obtain ⟨hRest, hPosition, hDepth, hOperators⟩ := h.skip_one
  refine ⟨hRest, hPosition, ?_, hOperators⟩
  simp only [Counters.skip, Counters.enter] at hDepth ⊢
  omega

theorem leave (h : Leaves tokens s room budget rest) (hRoom : room < maxNesting) :
    ∃ s', s.leave? = some s' ∧ Leaves tokens s' (room + 1) budget rest := by
  obtain ⟨position, depth, operators⟩ := s
  obtain ⟨hRest, hPosition, hDepth, hOperators⟩ := h
  cases depth with
  | zero =>
    dsimp only at hDepth
    omega
  | succ depth =>
    refine ⟨_, rfl, hRest, hPosition, ?_, hOperators⟩
    dsimp only at hDepth ⊢
    omega

theorem count (h : Leaves tokens s room (budget + 1) rest) : Leaves tokens s.count room budget rest := by
  obtain ⟨hRest, hPosition, hDepth, hOperators⟩ := h
  refine ⟨hRest, hPosition, hDepth, ?_⟩
  simp only [Counters.count]
  omega

end Leaves

theorem step_leftParen (hLeaves : Leaves tokens s (room + 1) budget (t :: rest)) (hKind : t.kind = .leftParen) :
    step tokens stop ⟨.call .atom, frames, s⟩ = some ⟨.call .disjunction, .parens t :: frames, s.enter⟩ := by
  have hDepth := hLeaves.depth_add
  simp [step, enterAtom, hLeaves.peek, hKind, show s.depth ≠ maxNesting by omega]

/-- What was read inside comes back to the parenthesis, on the level where that was opened. -/
theorem runs_parens {lower left : Nat} {inner after : List Token} {e : Expr}
    (h : Answers tokens stop (Reader.expression stop lower) .disjunction lower)
    (hLeaves : Leaves tokens s (lower + 1) budget (t :: inner)) (hKind : t.kind = .leftParen)
    (hReads : (Reader.expression stop lower).Reads budget inner e left after) :
    ∃ s', Leaves tokens s' (lower + 1) left after ∧
      Runs tokens stop ⟨.call .atom, frames, s⟩ (resumeParens tokens t e frames s') := by
  have hRoom : lower < maxNesting := by
    have hDepth := hLeaves.depth_add
    omega
  obtain ⟨s', hInner, hRun⟩ := h.value _ _ _ _ _ _ (.parens t :: frames) hLeaves.enter hReads
  obtain ⟨s'', hLeave, hAfter⟩ := hInner.leave hRoom
  refine ⟨s'', hAfter, .head (step_leftParen hLeaves hKind) (hRun.trans (.head ?_ .refl))⟩
  rw [step, hLeave]
  rfl

theorem answers_atom
    (h : ∀ lower, room = lower + 1 → Answers tokens stop (Reader.expression stop lower) .disjunction lower) :
    Answers tokens stop (Reader.atom stop (Reader.inside stop room)) .atom room := by
  constructor
  · intro s budget rest e left after frames hLeaves hReads
    rcases Reader.atom_reads_iff.mp hReads with ⟨t, r, rfl, hKind, hr, rfl, rfl⟩ |
      ⟨t, read, inner, close, rfl, hKind, hInside, hClose, hReads⟩
    · refine ⟨s.skip 1, hLeaves.skip_one, .head ?_ .refl⟩
      simp [step, enterAtom, hLeaves.peek, hKind, hr]
    · cases room with
      | zero => cases hInside
      | succ lower =>
        cases hInside
        obtain ⟨s', hAfter, hRun⟩ := runs_parens (h lower rfl) hLeaves hKind hReads
        have hResume : resumeParens tokens t e frames s' = ⟨.value e, frames, s'.skip 1⟩ := by
          simp [resumeParens, hAfter.peek, hClose]
        exact ⟨s'.skip 1, hAfter.skip_one, hResume ▸ hRun⟩
  · intro s budget rest f frames hLeaves hError
    cases rest with
    | nil =>
      cases hError
      refine exists_fault_of_step rfl ?_
      simp [enterAtom, hLeaves.peek]
    | cons t inner =>
      simp only [Reader.atom] at hError
      split at hError
      · rename_i hKind
        rcases Outcome.bind_eq_error_iff.mp hError with hName | ⟨r, -, hr⟩
        · refine exists_fault_of_step rfl ?_
          simp [enterAtom, hLeaves.peek, hKind, hName]
        · cases hr
      · rename_i hKind
        cases room with
        | zero =>
          cases hError
          have hDepth : s.depth = maxNesting := hLeaves.depth_add
          refine exists_fault_of_step rfl ?_
          simp [enterAtom, hLeaves.peek, hKind, hDepth]
        | succ lower =>
          rcases Outcome.bind_eq_error_iff.mp hError with hInner | ⟨r, hr, hClose⟩
          · refine Runs.exists_fault (.head (step_leftParen hLeaves hKind) .refl) ?_
            exact (h lower rfl).fault _ _ _ _ _ hLeaves.enter hInner
          · obtain ⟨s', hAfter, hRun⟩ := runs_parens (h lower rfl) hLeaves hKind (Reader.reads_of_eq_ok hr)
            refine ⟨_, ?_, hRun⟩
            split at hClose
            · cases hClose
            · rename_i hNext
              cases hClose
              have hOther : (r.rest.head?.map Token.kind) ≠ some .rightParen := by
                intro hRight
                obtain ⟨⟨kind, text, offset⟩, hHead, hKind⟩ := Option.map_eq_some_iff.mp hRight
                obtain ⟨after, hRest⟩ := List.head?_eq_some_iff.mp hHead
                cases hKind
                exact hNext text offset after hRest
              simp [resumeParens, hAfter.peek, hOther]
      all_goals
        rename_i hKind
        cases hError
        refine exists_fault_of_step rfl ?_
        simp [enterAtom, hLeaves.peek, hKind]

section
variable {e : Expr} {start : Nat}

theorem resumeSuffixed_of_no_with (hLeaves : Leaves tokens s room budget rest)
    (hNext : ∀ t ∈ rest.head?, t.kind ≠ .withWord) :
    resumeSuffixed tokens stop start e frames s = ⟨.value e, frames, s⟩ := by
  cases rest with
  | nil => simp [resumeSuffixed, hLeaves.peek]
  | cons t rest => simp [resumeSuffixed, hLeaves.peek, hNext t rfl]

theorem step_suffixed (hLeaves : Leaves tokens s room budget rest) :
    step tokens stop ⟨.call .suffixed, frames, s⟩ =
      some ⟨.call .atom, .suffixed ((rest.head?.map Token.offset).getD stop) :: frames, s⟩ := by
  rw [step, hLeaves.peek]

end

theorem answers_suffixed {operand : Reader} (h : Answers tokens stop operand .atom room) :
    Answers tokens stop (Reader.suffixed stop operand) .suffixed room := by
  constructor
  · intro s budget rest e left after frames hLeaves hReads
    rcases Reader.suffixed_reads_iff.mp hReads with ⟨hOperand, hNext⟩ |
      ⟨w, t, r, hOperand, hWith, hName, hFree, hValid, rfl⟩
    · obtain ⟨s', hAfter, hRun⟩ := h.value _ _ _ _ _ _ (.suffixed _ :: frames) hLeaves hOperand
      refine ⟨s', hAfter, .head (step_suffixed hLeaves) (hRun.trans (.head ?_ .refl))⟩
      rw [step, resumeSuffixed_of_no_with hAfter hNext]
    · obtain ⟨s', hAfter, hRun⟩ := h.value _ _ _ _ _ _ (.suffixed _ :: frames) hLeaves hOperand
      refine ⟨s'.skip 2, hAfter.skip_one.skip_one, .head (step_suffixed hLeaves) (hRun.trans (.head ?_ .refl))⟩
      have hNext : tokens[s'.position + 1]? = some t := hAfter.skip_one.peek
      simp [step, resumeSuffixed, hAfter.peek, hNext, hWith, hName, hFree, hValid]
  · intro s budget rest f frames hLeaves hError
    refine Runs.exists_fault (.head (step_suffixed hLeaves) .refl) ?_
    rcases Outcome.bind_eq_error_iff.mp hError with hOperand | ⟨a, ha, hError⟩
    · exact h.fault _ _ _ _ _ hLeaves hOperand
    obtain ⟨s', hAfter, hRun⟩ := h.value _ _ _ _ _ _ _ hLeaves (Reader.reads_of_eq_ok ha)
    refine hRun.exists_fault (exists_fault_of_step rfl ?_)
    split at hError
    · rename_i text offset behind hRest
      rw [hRest] at hAfter
      have hBehind : tokens[s'.position + 1]? = behind.head? := hAfter.skip_one.peek
      split at hError
      · rename_i r hExpr
        split at hError
        · rename_i hTaken
          cases hError
          simp [resumeSuffixed, hAfter.peek, hExpr, hTaken]
        · rename_i hFree
          split at hError
          · cases hError
            simp [resumeSuffixed, hAfter.peek, hExpr, hFree, hBehind]
          · rename_i t after
            split at hError
            · rename_i hName
              cases hError
              simp [resumeSuffixed, hAfter.peek, hExpr, hFree, hBehind, hName]
            · rename_i hName
              split at hError
              · cases hError
              · rename_i hValid
                cases hError
                simp [resumeSuffixed, hAfter.peek, hExpr, hFree, hBehind, not_not.mp hName, hValid]
      · rename_i hCompound
        cases hError
        cases hExpr : a.expr with
        | license r => exact absurd hExpr (hCompound r)
        | and _ _ | or _ _ => simp [resumeSuffixed, hAfter.peek]
    · cases hError

section
variable {c : Chain} {e : Expr} {left : Option Expr}

theorem resumeChain_of_no_operator (hLeaves : Leaves tokens s room budget rest)
    (hNext : ∀ t ∈ rest.head?, t.kind ≠ c.operator) :
    resumeChain tokens c left e frames s = ⟨.value (c.joined left e), frames, s⟩ := by
  cases rest with
  | nil => simp [resumeChain, hLeaves.peek]
  | cons t rest => simp [resumeChain, hLeaves.peek, hNext t rfl]

theorem resumeChain_of_operator (hLeaves : Leaves tokens s room (budget + 1) (t :: rest)) (hKind : t.kind = c.operator) :
    resumeChain tokens c left e frames s =
      ⟨.call c.operand, .chain c (some (c.joined left e)) :: frames, s.count.skip 1⟩ := by
  have hOperators : s.count.operators ≤ maxOperators := by
    have hAdd := hLeaves.count.operators_add
    omega
  simp [resumeChain, hLeaves.peek, hKind, Nat.not_lt.mpr hOperators]

theorem resumeChain_of_no_budget (hLeaves : Leaves tokens s room 0 (t :: rest)) (hKind : t.kind = c.operator) :
    (resumeChain tokens c left e frames s).control = .fault ⟨t.offset, .tooLong maxOperators⟩ := by
  have hOperators : maxOperators < s.count.operators := by
    have hAdd := hLeaves.operators_add
    simp only [Counters.count]
    omega
  simp [resumeChain, hLeaves.peek, hKind, hOperators]

end

theorem runs_chained {c : Chain} {operand : Reader} (h : Answers tokens stop operand c.operand room) {a e : Expr}
    {left : Nat} {after : List Token} (hChained : Reader.Chained c.operator c.join operand a budget rest e left after)
    (before : Option Expr) (b : Expr) (hJoined : c.joined before b = a) (s : Counters)
    (hLeaves : Leaves tokens s room budget rest) :
    ∃ s', Leaves tokens s' room left after ∧
      Runs tokens stop ⟨.value b, .chain c before :: frames, s⟩ ⟨.value e, frames, s'⟩ := by
  -- The frame holds what was joined before the last operand `b`; the reader has joined that one already.
  induction hChained generalizing before b s with
  | stop hStop =>
    refine ⟨s, hLeaves, .head ?_ .refl⟩
    rw [step, resumeChain_of_no_operator hLeaves hStop, hJoined]
  | step hKind hOperand _ ih =>
    obtain ⟨s', hNext, hRun⟩ := h.value _ _ _ _ _ _ (.chain c (some _) :: frames) hLeaves.count.skip_one hOperand
    obtain ⟨s'', hAfter, hRest⟩ := ih (some _) _ rfl s' hNext
    refine ⟨s'', hAfter, .head ?_ (hRun.trans hRest)⟩
    rw [step, resumeChain_of_operator hLeaves hKind, hJoined]

theorem exists_fault_of_chainFails {c : Chain} {operand : Reader} (h : Answers tokens stop operand c.operand room)
    {a : Expr} {f : Fault} (hFails : Reader.ChainFails c.operator c.join operand a budget rest f)
    (before : Option Expr) (b : Expr) (hJoined : c.joined before b = a) (s : Counters)
    (hLeaves : Leaves tokens s room budget rest) :
    ∃ c', c'.control = .fault f ∧ Runs tokens stop ⟨.value b, .chain c before :: frames, s⟩ c' := by
  induction hFails generalizing before b s with
  | tooLong hKind => exact exists_fault_of_step rfl (resumeChain_of_no_budget hLeaves hKind)
  | operand hKind hOperand =>
    obtain ⟨c', hFault, hRun⟩ := h.fault _ _ _ _ (.chain c (some _) :: frames) hLeaves.count.skip_one hOperand
    refine ⟨c', hFault, .head ?_ hRun⟩
    rw [step, resumeChain_of_operator hLeaves hKind, hJoined]
  | step hKind hOperand _ ih =>
    obtain ⟨s', hNext, hRun⟩ := h.value _ _ _ _ _ _ (.chain c (some _) :: frames) hLeaves.count.skip_one hOperand
    refine Runs.exists_fault (.head ?_ hRun) (ih (some _) _ rfl s' hNext)
    rw [step, resumeChain_of_operator hLeaves hKind, hJoined]

theorem answers_chain {c : Chain} {operand : Reader} (h : Answers tokens stop operand c.operand room) :
    Answers tokens stop (Reader.chain c.operator c.join operand) c.layer room := by
  have hStep : ∀ frames s, step tokens stop ⟨.call c.layer, frames, s⟩ =
      some ⟨.call c.operand, .chain c none :: frames, s⟩ := by
    intro frames s
    cases c <;> rfl
  constructor
  · intro s budget rest e left after frames hLeaves hReads
    obtain ⟨a, middle, behind, hOperand, hChained⟩ := Reader.chain_reads_iff.mp hReads
    obtain ⟨s', hNext, hRun⟩ := h.value _ _ _ _ _ _ (.chain c none :: frames) hLeaves hOperand
    obtain ⟨s'', hAfter, hRest⟩ := runs_chained h hChained none a rfl s' hNext
    exact ⟨s'', hAfter, .head (hStep frames s) (hRun.trans hRest)⟩
  · intro s budget rest f frames hLeaves hError
    refine Runs.exists_fault (.head (hStep frames s) .refl) ?_
    rcases Reader.chainFails_of_error hError with hOperand | ⟨a, middle, behind, hOperand, hFails⟩
    · exact h.fault _ _ _ _ _ hLeaves hOperand
    · obtain ⟨s', hNext, hRun⟩ := h.value _ _ _ _ _ _ (.chain c none :: frames) hLeaves hOperand
      exact hRun.exists_fault (exists_fault_of_chainFails h hFails none a rfl s' hNext)

theorem answers_conjunction
    (h : ∀ lower, room = lower + 1 → Answers tokens stop (Reader.expression stop lower) .disjunction lower) :
    Answers tokens stop (Reader.ofLayer stop room .conjunction) .conjunction room :=
  answers_chain (c := .conjuncts) (answers_suffixed (answers_atom h))

theorem answers_expression (room : Nat) : Answers tokens stop (Reader.expression stop room) .disjunction room := by
  induction room with
  | zero =>
    rw [Reader.expression_eq_levels]
    exact answers_chain (c := .disjuncts) (answers_conjunction fun _ h => absurd h (Nat.succ_ne_zero _).symm)
  | succ room ih =>
    rw [Reader.expression_eq_levels]
    apply answers_chain (c := .disjuncts)
    apply answers_conjunction
    rintro lower h
    cases h
    exact ih

/-- Every call is answered as the reader of its layer answers. -/
theorem answers_ofLayer (room : Nat) (layer : Layer) :
    Answers tokens stop (Reader.ofLayer stop room layer) layer room := by
  have hBelow : ∀ lower, room = lower + 1 → Answers tokens stop (Reader.expression stop lower) .disjunction lower :=
    fun lower _ => answers_expression lower
  cases layer with
  | disjunction =>
    have h : Answers tokens stop (Reader.expression stop room) .disjunction room := answers_expression room
    rwa [Reader.expression_eq_levels] at h
  | conjunction => exact answers_conjunction hBelow
  | suffixed => exact answers_suffixed (answers_atom hBelow)
  | atom => exact answers_atom hBelow

end Machine

end PolicyLint.License
