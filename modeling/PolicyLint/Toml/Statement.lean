import PolicyLint.Text.Taken
import PolicyLint.Toml.Quoted

/-!
# Statements of a TOML text

The form of a text: a row of headers and assignments, whose values nest in brackets and braces to
`maxNesting` levels. What the words mean is asked only when the form of the whole text is known to be
right, so a fault of form comes before any other. A key or a value that is missing stands as an empty word,
which means nothing.
-/
namespace PolicyLint.Toml
open Text
set_option autoImplicit false

inductive Term where
  /-- A quoted text, or what stands without quotes as one word. -/
  | scalar (token : Token)
  | array (span : Span) (items : List Term)
  | braces (span : Span) (members : List (List Token × Term))
  deriving Inhabited

inductive Statement where
  | assign (path : List Token) (value : Term)
  | header (span : Span) (ofTables : Bool) (path : List Token)

def maxNesting : Nat := 80

abbrev Take (α : Type) := (tokens : List Token) → Except Fault (Taken α tokens)

def faultAt {α : Type} (t : Token) (cause : Cause) : Except Fault α := .error (.before t.start cause)

def Token.Kind.isTrivia : Token.Kind → Bool
  | .blank | .comment | .newline => true
  | _ => false

/-- A comment holds no controls but tabs; a line end is a line feed, perhaps with a return before it. -/
def checkTrivia (t : Token) : Except Fault Unit :=
  match t.kind with
  | .comment =>
    let good := t.text.takeWhile fun c => !isControl c
    if good.length < t.text.length then
      .error (.before (t.start + byteLength good) .commentCharacter)
    else .ok ()
  | .newline => if t.text = ['\r'] then .error (.before t.stop .bareReturn) else .ok ()
  | _ => .ok ()

/-- Where a text ends, and where the last of its tokens ends that is no blank, comment or line end. What
is still open at the end of the text is missed there. -/
structure Ending where
  stop : Nat
  written : Nat

def Ending.ofTokens (stop : Nat) (tokens : List Token) : Ending :=
  ⟨stop, ((tokens.reverse.find? fun t => !t.kind.isTrivia).map Token.stop).getD stop⟩

def Ending.missing (ending : Ending) : List Token → Token
  | [] => ⟨.word, [], ending.stop⟩
  | t :: _ => ⟨.word, [], t.start⟩

/-- Whether a token of this kind may be a key or a value. -/
def Token.Kind.isText : Token.Kind → Bool
  | .quoted _ | .word => true
  | _ => false

/-- The keys of a dotted key and what follows it. Blanks may stand around each. If a key is `wanted` and
does not come, it is missing. -/
def keys (ending : Ending) (wanted : Bool) : List Token → List Token × List Token
  | [] => (if wanted then [ending.missing []] else [], [])
  | t :: rest =>
    if t.kind = .blank then keys ending wanted rest
    else if t.kind = .dot then
      let more := keys ending true rest
      (if wanted then ending.missing (t :: rest) :: more.1 else more.1, more.2)
    else if wanted && t.kind.isText then
      let more := keys ending false rest
      (t :: more.1, more.2)
    else (if wanted then [ending.missing (t :: rest)] else [], t :: rest)

theorem length_keys_le (ending : Ending) (wanted : Bool) (tokens : List Token) :
    (keys ending wanted tokens).2.length ≤ tokens.length := by
  induction tokens generalizing wanted with
  | nil => exact Nat.le_refl _
  | cons t rest ih =>
    unfold keys
    split
    · exact Nat.le_succ_of_le (ih _)
    · split
      · exact Nat.le_succ_of_le (ih _)
      · split
        · exact Nat.le_succ_of_le (ih _)
        · exact Nat.le_refl _

/-- The place behind some tokens. -/
def stopOf (tokens : List Token) (otherwise : Nat) : Nat :=
  (tokens.getLast?.map Token.stop).getD otherwise

/-- What belongs to an unquoted value behind its first token: words, points and quoted texts without a gap,
and words behind blanks. -/
def bareRun : List Token → List Token × List Token
  | [] => ([], [])
  | [t] => if t.kind.isText ∨ t.kind = .dot then ([t], []) else ([], [t])
  | t :: u :: rest =>
    if t.kind.isText ∨ t.kind = .dot ∨ (t.kind = .blank ∧ u.kind = .word) then
      let (run, more) := bareRun (u :: rest)
      (t :: run, more)
    else ([], t :: u :: rest)

theorem length_bareRun_le (tokens : List Token) : (bareRun tokens).2.length ≤ tokens.length := by
  induction tokens with
  | nil => simp [bareRun]
  | cons t rest ih =>
    cases rest with
    | nil =>
      unfold bareRun
      split <;> simp
    | cons u rest =>
      unfold bareRun
      split
      · exact Nat.le_succ_of_le ih
      · exact Nat.le_refl _

def bare (t : Token) (rest : List Token) : Taken Term (t :: rest) :=
  let run := bareRun rest
  ⟨.scalar ⟨.word, t.text ++ run.1.flatMap Token.text, t.start⟩, run.2,
    Nat.lt_succ_of_le (length_bareRun_le rest)⟩

/-- The elements of an array, and the place behind its closing bracket. -/
def items (element : Take Term) (ending : Ending) (needsComma : Bool) (tokens : List Token) :
    Except Fault (Taken (List Term × Nat) tokens) :=
  match tokens with
  | [] => .error (.before ending.written .arrayNotClosed)
  | t :: rest =>
    match t.kind with
    | .blank | .comment | .newline => do
      checkTrivia t
      return (← items element ending needsComma rest).lift (Nat.le_succ _)
    | .rightBracket => .ok (.of ([], t.stop) t rest)
    | .comma =>
      if needsComma then do return (← items element ending false rest).lift (Nat.le_succ _)
      else faultAt t .commaInArray
    | .equals => faultAt t .equalsInArray
    | .rightBrace => faultAt t .bracesNotOpened
    | _ =>
      if needsComma then faultAt t .noCommaInArray
      else do
        let first ← element (t :: rest)
        let others ← items element ending true first.rest
        return (first.append others).map fun (a, bs, place) => (a :: bs, place)
termination_by tokens.length
decreasing_by all_goals first
  | exact first.shorter
  | exact Nat.lt_succ_self _

inductive Awaited where
  | key
  | equals (path : List Token)
  | value (path : List Token)
  | comma

def Awaited.name : Awaited → String
  | key => "key"
  | equals _ => "`=`"
  | value _ => "value"
  | comma => "`,`"

/-- The assignment that still lacks its value where the braces close. -/
def Awaited.leftOver (awaited : Awaited) (missing : Token) : List (List Token × Term) :=
  match awaited with
  | key | comma => []
  | equals path | value path => [(path, .scalar missing)]

/-- The fault of a token that is not what comes next between braces. -/
def Awaited.fault {α : Type} (awaited : Awaited) (t : Token) : Except Fault α :=
  match t.kind, awaited with
  | .comma, _ => faultAt t (.commaInBraces awaited.name)
  | .equals, _ => faultAt t (.equalsInBraces awaited.name)
  | .rightBracket, _ => faultAt t .arrayNotOpened
  | _, .key => faultAt t .noKeyInBraces
  | _, .equals _ => faultAt t .noEqualsInBraces
  | _, _ => faultAt t .noCommaInBraces

def members (element : Take Term) (ending : Ending) (awaited : Awaited) (tokens : List Token) :
    Except Fault (Taken (List (List Token × Term) × Nat) tokens) :=
  match tokens with
  | [] => .error (.before ending.written .bracesNotClosed)
  | t :: rest =>
    if t.kind.isTrivia then do
      checkTrivia t
      return (← members element ending awaited rest).lift (Nat.le_succ _)
    else if t.kind = .rightBrace then
      .ok (.of (awaited.leftOver (ending.missing (t :: rest)), t.stop) t rest)
    else
      match awaited with
      | .key =>
        if t.kind.isText || t.kind == .dot then do
          let path :=
            if t.kind = .dot then ending.missing (t :: rest) :: (keys ending true rest).1
            else t :: (keys ending false rest).1
          let more := (keys ending (t.kind == .dot) rest).2
          have fewer : more.length ≤ rest.length := length_keys_le ending (t.kind == .dot) rest
          return (← members element ending (.equals path) more).lift (Nat.le_succ_of_le fewer)
        else if t.kind = .equals then do
          let path := [ending.missing (t :: rest)]
          return (← members element ending (.value path) rest).lift (Nat.le_succ _)
        else awaited.fault t
      | .equals path =>
        if t.kind = .equals then do
          return (← members element ending (.value path) rest).lift (Nat.le_succ _)
        else awaited.fault t
      | .value path =>
        if t.kind = .comma ∨ t.kind = .equals then awaited.fault t
        else do
          let first ← element (t :: rest)
          let others ← members element ending .comma first.rest
          return (first.append others).map fun (a, bs, place) => ((path, a) :: bs, place)
      | .comma =>
        if t.kind = .comma then do
          return (← members element ending .key rest).lift (Nat.le_succ _)
        else awaited.fault t
termination_by tokens.length
decreasing_by all_goals first
  | exact first.shorter
  | exact Nat.lt_succ_self _
  | exact Nat.lt_succ_of_le fewer

/-- A value; those in brackets and braces are read by `inside`, if a further level is allowed. -/
def termWith (ending : Ending) (inside : Option (Take Term)) : Take Term := fun tokens =>
  match tokens with
  | [] => .error (.before ending.stop .noEquals)
  | t :: rest =>
    match t.kind, inside with
    | .quoted _, _ => .ok (.of (.scalar t) t rest)
    | .word, _ | .dot, _ => .ok (bare t rest)
    | .leftBracket, none | .leftBrace, none => .error ⟨t.span, .tooDeep⟩
    | .leftBracket, some element => do
      let all ← items element ending false rest
      return (all.lift (Nat.le_succ _)).map fun (terms, place) => .array ⟨t.start, place⟩ terms
    | .leftBrace, some element => do
      let all ← members element ending .key rest
      return (all.lift (Nat.le_succ _)).map fun (terms, place) => .braces ⟨t.start, place⟩ terms
    | .rightBracket, _ => faultAt t .arrayNotOpened
    | .rightBrace, _ => faultAt t .bracesNotOpened
    | _, _ => faultAt t .extraEquals

/-- A value with at most `room` further levels of brackets and braces. -/
def term (ending : Ending) : (room : Nat) → Take Term
  | 0 => termWith ending none
  | room + 1 => termWith ending (some (term ending room))

def skipBlank : List Token → List Token
  | ⟨.blank, _, _⟩ :: rest => rest
  | tokens => tokens

theorem length_skipBlank_le (tokens : List Token) : (skipBlank tokens).length ≤ tokens.length := by
  unfold skipBlank
  split <;> simp

/-- Whether the line ends before a value comes. -/
def endsEarly : List Token → Bool
  | [] => true
  | t :: _ => t.kind == .comment || t.kind == .newline || t.kind == .comma

/-- A key, an equals sign and a value. The key may be missing. -/
def assignment (ending : Ending) : Take Statement := fun tokens =>
  match h : (keys ending true tokens).2 with
  | [] => .error (.before ending.stop .noEquals)
  | t :: rest =>
    have fewer : (skipBlank rest).length < tokens.length := by
      have := length_keys_le ending true tokens
      have := length_skipBlank_le rest
      simp [h] at *
      omega
    let path := (keys ending true tokens).1
    if t.kind = .equals then
      if endsEarly (skipBlank rest) then
        .ok ⟨.assign path (.scalar (ending.missing (skipBlank rest))), skipBlank rest, fewer⟩
      else do
        let value ← term ending maxNesting (skipBlank rest)
        return (value.map (.assign path)).lift (Nat.le_of_lt fewer)
    else faultAt t .noEquals

/-- Whether a path of keys ends with a key. -/
def isComplete (path : List Token) : Bool := path.getLast?.any fun t => !t.text.isEmpty

/-- A header, of which `opening` and perhaps a second bracket right behind it start the text. A header
without its last key goes on to the end of the line or to a comment. -/
def header (ending : Ending) (opening : Token) (tokens : List Token) :
    Except Fault (Taken Statement (opening :: tokens)) :=
  let ofTables := tokens.head?.any fun t => t.kind == .leftBracket
  let inner := tokens.drop (if ofTables then 1 else 0)
  let path := (keys ending true inner).1
  let more := (keys ending true inner).2
  have fewer : more.length ≤ tokens.length :=
    Nat.le_trans (length_keys_le ending true inner) (List.drop_sublist _ tokens).length_le
  have fits (n : Nat) : (more.drop n).length < (opening :: tokens).length := by
    simp only [List.length_drop, List.length_cons]
    omega
  match (more.take 2).map Token.kind, ofTables with
  | .rightBracket :: .rightBracket :: _, true =>
    .ok ⟨.header ⟨opening.start, stopOf (more.take 2) opening.stop⟩ true path, more.drop 2, fits 2⟩
  | .rightBracket :: _, true =>
    .error (.before (stopOf (more.take 1) opening.stop) (.tablesHeaderNotClosed "]"))
  | .rightBracket :: _, false =>
    .ok ⟨.header ⟨opening.start, stopOf (more.take 1) opening.stop⟩ false path, more.drop 1, fits 1⟩
  | _, _ =>
    if isComplete path then
      .error (.before (stopOf path opening.stop)
        (if ofTables then .tablesHeaderNotClosed "]]" else .headerNotClosed))
    else
      let skipped := more.takeWhile fun t => t.kind != .newline && t.kind != .comment
      .ok ⟨.header opening.span ofTables path, more.drop skipped.length, fits skipped.length⟩

/-- What may follow a statement on its line: blanks and a comment. -/
def lineEnd : (tokens : List Token) → Except Fault { rest : List Token // rest.length ≤ tokens.length }
  | [] => .ok ⟨[], Nat.le_refl _⟩
  | t :: rest =>
    match t.kind with
    | .blank => (lineEnd rest).map fun r => ⟨r.1, Nat.le_succ_of_le r.2⟩
    | .comment | .newline => do
      checkTrivia t
      return ⟨rest, Nat.le_succ _⟩
    | _ => faultAt t .trailingText

def statement (ending : Ending) (t : Token) (rest : List Token) :
    Except Fault (Taken Statement (t :: rest)) := do
  let s ← if t.kind = .leftBracket then header ending t rest else assignment ending (t :: rest)
  let tail ← lineEnd s.rest
  return ⟨s.value, tail.1, Nat.lt_of_le_of_lt tail.2 s.shorter⟩

def statements (ending : Ending) (tokens : List Token) : Except Fault (List Statement) :=
  match tokens with
  | [] => .ok []
  | t :: rest =>
    match t.kind with
    | .blank | .comment | .newline => do
      checkTrivia t
      statements ending rest
    | .rightBracket => faultAt t .headerNotOpened
    | .leftBrace | .rightBrace | .comma => faultAt t .noStatement
    | _ => do
      let s ← statement ending t rest
      return s.value :: (← statements ending s.rest)
termination_by tokens.length
decreasing_by
  · exact Nat.lt_succ_self _
  · exact s.shorter

end PolicyLint.Toml
