import PolicyLint.License.Identifier
import PolicyLint.License.Expr
import PolicyLint.License.Token

/-!
# Reading license expressions

The grammar, loosest operator first:

    expr := and ("OR" and)*
    and  := with ("AND" with)*
    with := atom ("WITH" exception)?
    atom := name ["+"] | "(" expr ")"

Parentheses may nest to `maxNesting` levels and an expression may hold `maxOperators` of `AND` and
`OR`. Each reader hands back a rest that is shorter than the tokens it was given, which is what ends
the chains; nesting is counted down by the number of levels still allowed.
-/
namespace PolicyLint.License
set_option autoImplicit false

def maxNesting : Nat := 64

def maxOperators : Nat := 512

/-- A tree read from the front of `tokens`, the operators still allowed, and the tokens left. -/
structure Reading (tokens : List Token) where
  expr : Expr
  budget : Nat
  rest : List Token
  shorter : rest.length < tokens.length

/-- Reads a tree, given the operators still allowed. -/
abbrev Reader := (budget : Nat) → (tokens : List Token) → Except Fault (Reading tokens)

namespace Reader

def unexpected (t : Token) : Fault := ⟨t.offset, .unexpectedToken t.text⟩

/-- A name with its plus sign cut off. -/
def requirementOf (t : Token) : Except Fault Requirement :=
  let cs := t.text.toList
  let later := cs.getLast? == some '+'
  let base := if later then cs.dropLast else cs
  if isIdentifier base then .ok ⟨String.ofList base, later, none⟩
  else .error ⟨t.offset, .invalidIdentifier t.text⟩

/-- A name, or an expression in parentheses read by `inside`; no `inside` means that no further
parenthesis may open. -/
def atom (stop : Nat) (inside : Option Reader) : Reader := fun budget tokens =>
  match tokens with
  | [] => .error ⟨stop, .unexpectedEnd⟩
  | t :: rest =>
    match t.kind with
    | .name => do
      let r ← requirementOf t
      return ⟨.license r, budget, rest, Nat.lt_succ_self _⟩
    | .leftParen =>
      match inside with
      | none => .error ⟨t.offset, .tooDeep maxNesting⟩
      | some read => do
        let inner ← read budget rest
        match h : inner.rest with
        | ⟨.rightParen, _, _⟩ :: after =>
          return ⟨inner.expr, inner.budget, after, by have := inner.shorter; simp [h] at this ⊢; omega⟩
        | _ => .error ⟨t.offset, .unbalancedParen⟩
    | .rightParen => .error ⟨t.offset, .unbalancedParen⟩
    | .andWord | .orWord | .withWord => .error (unexpected t)

/-- An atom with an optional exception, which only a single license without one may take. -/
def suffixed (stop : Nat) (operand : Reader) : Reader := fun budget tokens => do
  let start := (tokens.head?.map Token.offset).getD stop
  let a ← operand budget tokens
  match h : a.rest with
  | ⟨.withWord, text, offset⟩ :: behind =>
    match a.expr with
    | .license r =>
      if r.exception.isSome then .error ⟨start, .unexpectedToken text⟩
      else
        match h' : behind with
        | [] => .error ⟨stop, .unexpectedEnd⟩
        | t :: rest =>
          if t.kind ≠ .name then .error (unexpected t)
          else if isValidId t.text then
            return ⟨.license { r with exception := some t.text }, a.budget, rest,
              by have := a.shorter; simp [h, h'] at this; omega⟩
          else .error ⟨t.offset, .invalidIdentifier t.text⟩
    | _ => .error ⟨offset, .unexpectedToken text⟩
  | _ => return a

/-- Continues a chain of operands joined by one operator, taking the joins from the left. -/
def chainFrom (operator : Token.Kind) (join : Expr → Expr → Expr) (operand : Reader)
    {tokens : List Token} (left : Reading tokens) : Except Fault (Reading tokens) :=
  match h : left.rest with
  | [] => .ok left
  | t :: rest =>
    if t.kind = operator then
      match left.budget with
      | 0 => .error ⟨t.offset, .tooLong maxOperators⟩
      | budget + 1 =>
        match operand budget rest with
        | .error fault => .error fault
        | .ok right =>
          chainFrom operator join operand
            ⟨join left.expr right.expr, right.budget, right.rest,
              by have := left.shorter; have := right.shorter; simp [h] at *; omega⟩
    else .ok left
termination_by left.rest.length
decreasing_by have := right.shorter; simp [h]; omega

def chain (operator : Token.Kind) (join : Expr → Expr → Expr) (operand : Reader) : Reader :=
  fun budget tokens => do chainFrom operator join operand (← operand budget tokens)

/-- The three levels of the grammar above an atom. -/
def levels (stop : Nat) (inside : Option Reader) : Reader :=
  chain .orWord .or (chain .andWord .and (suffixed stop (atom stop inside)))

/-- Expressions with at most `room` further levels of parentheses. -/
def expression (stop : Nat) : (room : Nat) → Reader
  | 0 => levels stop none
  | room + 1 => levels stop (some (expression stop room))

def finish {tokens : List Token} (r : Reading tokens) : Except Fault Expr :=
  match r.rest with
  | [] => .ok r.expr
  | t :: _ => .error (if t.kind = .rightParen then ⟨t.offset, .unbalancedParen⟩ else unexpected t)

end Reader

def Expr.parse (s : String) : Except Fault Expr := do
  let tokens ← Token.ofText s
  if tokens.isEmpty then throw ⟨0, .empty⟩
  let stop := Text.byteLength s.toList
  Reader.finish (← Reader.expression stop maxNesting maxOperators tokens)

/-- Reads a single requirement: no parentheses and no joining operator. -/
def Requirement.parse (s : String) : Except Fault Requirement := do
  let tokens ← Token.ofText s
  if tokens.isEmpty then throw ⟨0, .empty⟩
  match tokens.find? (fun t => t.kind ≠ .name ∧ t.kind ≠ .withWord) with
  | some t => throw ⟨t.offset, .compound t.text⟩
  | none =>
    let stop := Text.byteLength s.toList
    match ← Reader.finish (← Reader.suffixed stop (Reader.atom stop none) maxOperators tokens) with
    | .license r => return r
    | _ => throw ⟨0, .compound (Text.trim s)⟩

end PolicyLint.License
