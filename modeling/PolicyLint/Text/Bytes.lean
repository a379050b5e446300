/-!
# Byte offsets and lines

Positions in a text are byte offsets into its UTF-8 form. A line is counted by the line feeds before
an offset, so an offset past the end stands on the last line.
-/
namespace PolicyLint.Text
set_option autoImplicit false

def byteLength : List Char → Nat
  | [] => 0
  | c :: cs => c.utf8Size + byteLength cs

/-- How many line feeds start before `offset`. -/
def feedsBefore (offset : Nat) : List Char → Nat
  | [] => 0
  | c :: cs =>
    if offset = 0 then 0
    else (if c = '\n' then 1 else 0) + feedsBefore (offset - c.utf8Size) cs

/-- The one-based line on which the byte at `offset` stands. -/
def lineAt (s : String) (offset : Nat) : Nat := feedsBefore offset s.toList + 1

/-- How many bytes stand before `offset` on its line, of which `column` are before these characters. -/
def columnAt (offset column : Nat) : List Char → Nat
  | [] => column
  | c :: cs =>
    if offset < c.utf8Size then column + offset
    else columnAt (offset - c.utf8Size) (if c = '\n' then 0 else column + c.utf8Size) cs

/-- The UTF-8 form as numbers below 256. -/
def bytes (s : String) : List Nat := s.toUTF8.toList.map UInt8.toNat

/-- Whether one text stands before another in the order of their UTF-8 bytes, which is the order of
their code points. -/
def before (a b : String) : Bool := decide (a.toList < b.toList)

@[simp] theorem byteLength_nil : byteLength [] = 0 := rfl

@[simp] theorem byteLength_cons (c : Char) (cs : List Char) :
    byteLength (c :: cs) = c.utf8Size + byteLength cs := rfl

theorem byteLength_append (a b : List Char) : byteLength (a ++ b) = byteLength a + byteLength b := by
  induction a with
  | nil => simp
  | cons c cs ih => simp [ih, Nat.add_assoc]

theorem lineAt_zero (s : String) : lineAt s 0 = 1 := by
  cases h : s.toList <;> simp [lineAt, feedsBefore, h]

end PolicyLint.Text
