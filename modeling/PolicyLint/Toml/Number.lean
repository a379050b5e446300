import PolicyLint.Decimal.Binary64
import PolicyLint.Decimal.Bounds
import PolicyLint.Text.Split
import PolicyLint.Toml.Quoted

/-!
# Numbers in TOML

Whole numbers to base ten with an optional sign, to bases sixteen, eight and two without one, and floating
point numbers. An underscore may stand between two digits. What is written like a whole number is one, even
if it cannot be read: such a number has no value.
-/
namespace PolicyLint.Toml
open Text Decimal
set_option autoImplicit false

def signed (negative : Bool) (n : Nat) : Int := if negative then -(n : Int) else n

/-- An optional sign, and what follows it. -/
def signOf : List Char → Bool × List Char
  | '-' :: cs => (true, cs)
  | '+' :: cs => (false, cs)
  | cs => (false, cs)

def isHexDigit (c : Char) : Bool := (hexValue? c).isSome

def isBaseDigit (base : Nat) (c : Char) : Bool :=
  match hexValue? c with
  | some d => d < base
  | none => false

/-! ## Underscores -/

/-- What a piece between two underscores must be like, if the whole number takes up `whole` and the piece
starts at `place`: digits stand next to each underscore. -/
def checkPiece (isDigit : Char → Bool) (whole : Span) (place : Nat) (piece : List Char) :
    Except Fault Unit :=
  let stop := place + byteLength piece
  if whole.start < place && !isDigit (piece.headD '0') then .error ⟨⟨place - 1, place⟩, .underscore⟩
  else if place + 1 < stop && stop < whole.stop && !isDigit (piece.getLastD '0') then
    .error ⟨⟨stop, stop + 1⟩, .underscore⟩
  else if piece.isEmpty && place ≠ whole.start && stop ≠ whole.stop then
    .error ⟨⟨place, place + 1⟩, .underscore⟩
  else .ok ()

def checkPieces (isDigit : Char → Bool) (whole : Span) (place : Nat) :
    List (List Char) → Except Fault Unit
  | [] => .ok ()
  | piece :: pieces => do
    checkPiece isDigit whole place piece
    checkPieces isDigit whole (place + byteLength piece + 1) pieces

/-- The digits of a number, which start at `place`, without their underscores. -/
def withoutUnderscores (isDigit : Char → Bool) (whole : Span) (place : Nat) (cs : List Char) :
    Except Fault (List Char) :=
  if cs.head? = some '_' then .error ⟨⟨place, place + 1⟩, .underscore⟩
  else if cs.getLast? = some '_' then .error ⟨⟨whole.stop - 1, whole.stop⟩, .underscore⟩
  else do
    checkPieces isDigit whole place (splitAt (· == '_') cs)
    return cs.filter (· != '_')

/-! ## Whole numbers -/

def whole? (base : Nat) (cs : List Char) : Option Int :=
  let (negative, ds) := signOf cs
  let n := signed negative (valueOf base ds)
  if !ds.isEmpty && ds.all (isBaseDigit base) && (fitsSigned half128 n || fitsUnsigned word128 n)
  then some n else none

/-- The digits behind the mark of a base. -/
def checkBased (base : Nat) (kind : String) (place : Nat) (ds : List Char) : Except Fault Unit :=
  if ds.head? = some '+' ∨ ds.head? = some '-' then .error ⟨⟨place, place + 1⟩, .signInBase⟩
  else
    let good := ds.takeWhile fun c => c == '_' || isBaseDigit base c
    if good.length < ds.length then .error (.before (place + good.length) (.baseDigit kind)) else .ok ()

/-! ## Floating point numbers -/

/-- The length of the digits and underscores that a text starts with. -/
def digitRun (cs : List Char) : Nat := (cs.takeWhile fun c => c.isDigit || c == '_').length

/-- Several digits do not start with a zero. -/
def checkLeadingZero (place : Nat) (ds : List Char) : Except Fault Unit :=
  if ds.length > 1 ∧ ds.head? = some '0' then .error ⟨⟨place, place + 1⟩, .leadingZero⟩ else .ok ()

/-- The exponent of a floating point number, if it has one. -/
def checkExponent (place : Nat) (cs : List Char) : Except Fault Unit :=
  match cs with
  | [] => .ok ()
  | c :: rest =>
    if c = 'e' ∨ c = 'E' then
      let (_, ds) := signOf rest
      let digits := place + 1 + (rest.length - ds.length)
      let n := digitRun ds
      if n = 0 then .error (.before digits .exponent)
      else if n < ds.length then .error ⟨⟨digits + n, digits + n + byteLength (ds.drop n)⟩, .floatTail⟩
      else .ok ()
    else .error ⟨⟨place, place + byteLength cs⟩, .floatTail⟩

/-- Whether an unsigned text has the form of a floating point number. -/
def checkFloat (place : Nat) (cs : List Char) : Except Fault Unit :=
  let n := digitRun cs
  if n = 0 then .error (.before place .mantissa)
  else do
    checkLeadingZero place (cs.take n)
    match cs.drop n with
    | '.' :: rest =>
      let m := digitRun rest
      if m = 0 then .error (.before (place + n + 1) .fraction)
      else checkExponent (place + n + 1 + m) (rest.drop m)
    | rest => checkExponent (place + n) rest

/-- A finite value keeps, an overflow has no value. -/
def finiteOnly (x : Binary64) : Option Binary64 := if x.isFinite then some x else none

def floatValue (cs : List Char) : Option Binary64 :=
  let (negative, body) := signOf cs
  let whole := body.takeWhile Char.isDigit
  let rest := body.dropWhile Char.isDigit
  let part := if rest.head? = some '.' then (rest.drop 1).takeWhile Char.isDigit else []
  let e := (rest.dropWhile fun c => c == '.' || c.isDigit).drop 1
  let (below, ds) := signOf e
  finiteOnly (.ofDecimal negative (valueOf 10 (whole ++ part)) (signed below (valueOf 10 ds) - part.length))

end PolicyLint.Toml
