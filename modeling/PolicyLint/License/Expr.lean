/-!
# License expressions

A requirement names one license; an expression joins requirements by `AND` and `OR`. The written form
uses parentheses only around an `OR` below an `AND`, since `AND` binds tighter.
-/
namespace PolicyLint.License
set_option autoImplicit false

/-- One license, for instance `GPL-2.0+ WITH Classpath-exception-2.0`. -/
structure Requirement where
  id : String
  orLater : Bool
  exception : Option String
  deriving DecidableEq, Repr, Inhabited

inductive Expr where
  | license (requirement : Requirement)
  | and (left right : Expr)
  | or (left right : Expr)
  deriving DecidableEq, Repr, Inhabited

namespace Requirement

def render (r : Requirement) : String :=
  r.id ++ (if r.orLater then "+" else "") ++
    match r.exception with
    | some exception => " WITH " ++ exception
    | none => ""

end Requirement

namespace Expr

/-- An `OR` below an `AND` is the only operand in parentheses. -/
def render : Expr → String
  | license r => r.render
  | or a b => a.render ++ " OR " ++ b.render
  | and a b => operand a a.render ++ " AND " ++ operand b b.render
where
  operand (e : Expr) (text : String) : String :=
    match e with
    | or _ _ => "(" ++ text ++ ")"
    | _ => text

def requirements : Expr → List Requirement
  | license r => [r]
  | and a b => a.requirements ++ b.requirements
  | or a b => a.requirements ++ b.requirements

/-- The value of the expression when each requirement is taken as met or not met. -/
def eval (met : Requirement → Bool) : Expr → Bool
  | license r => met r
  | and a b => a.eval met && b.eval met
  | or a b => a.eval met || b.eval met

def operators : Expr → Nat
  | license _ => 0
  | and a b => a.operators + b.operators + 1
  | or a b => a.operators + b.operators + 1

theorem length_requirements (e : Expr) : e.requirements.length = e.operators + 1 := by
  induction e with
  | license r => rfl
  | and a b iha ihb => simp [requirements, operators, iha, ihb]; omega
  | or a b iha ihb => simp [requirements, operators, iha, ihb]; omega

end Expr

end PolicyLint.License
