import PolicyLint.Proofs.Json.Canonical

/-!
# Places inside a JSON value

A step goes to a member of an object or to an element of an array. A member that is there can be replaced; this
changes what stands at its place and below, and nothing else.
-/
namespace PolicyLint.Json
set_option autoImplicit false

namespace Members

variable {key other : String} {f g : Value → Value} {ms : Members}

theorem modify_cons (m : String × Value) : modify key f (m :: ms) =
    (m.1, if m.1 = key then f m.2 else m.2) :: modify key f ms := by
  rw [modify, List.map_cons]
  split <;> rfl

@[simp] theorem keys_modify : (modify key f ms).map Prod.fst = ms.map Prod.fst := by
  induction ms with
  | nil => rfl
  | cons m ms ih => rw [modify_cons, List.map_cons, List.map_cons, ih]

theorem find?_modify_self : (modify key f ms).find? key = (ms.find? key).map f := by
  induction ms with
  | nil => rfl
  | cons m ms ih =>
    rw [modify_cons, find?, find?, List.lookup_cons, List.lookup_cons]
    by_cases hKey : key = m.1
    · rw [beq_iff_eq.mpr hKey, if_pos hKey.symm]
      rfl
    · rw [beq_false_of_ne hKey]
      exact ih

theorem find?_modify_of_ne (h : other ≠ key) : (modify key f ms).find? other = ms.find? other := by
  induction ms with
  | nil => rfl
  | cons m ms ih =>
    rw [modify_cons, find?, find?, List.lookup_cons, List.lookup_cons]
    by_cases hOther : other = m.1
    · rw [beq_iff_eq.mpr hOther, if_neg fun hEq => h (hOther.trans hEq)]
    · rw [beq_false_of_ne hOther]
      exact ih

theorem modify_modify : modify key f (modify key g ms) = modify key (fun v => f (g v)) ms := by
  induction ms with
  | nil => rfl
  | cons m ms ih =>
    rw [modify_cons, modify_cons, modify_cons, ih]
    split <;> rfl

theorem modify_comm (h : key ≠ other) : modify key f (modify other g ms) = modify other g (modify key f ms) := by
  induction ms with
  | nil => rfl
  | cons m ms ih =>
    rw [modify_cons, modify_cons, modify_cons, modify_cons, ih]
    by_cases hKey : m.1 = key
    · have hOther : m.1 ≠ other := fun hEq => h (hKey.symm.trans hEq)
      simp only [if_pos hKey, if_neg hOther]
    · simp only [if_neg hKey]

theorem modify_insert (k : String) (v : Value) : modify key f (insert k v ms) =
    insert k (if k = key then f v else v) (modify key f ms) := by
  induction ms with
  | nil => exact modify_cons (k, v)
  | cons m ms ih =>
    rw [modify_cons, insert, insert]
    split
    · exact modify_cons (k, v)
    · split
      · rw [modify_cons, modify_cons]
      · rw [modify_cons, ih]

theorem modify_ofList (ms : List (String × Value)) : modify key f (ofList ms) = ofList (modify key f ms) := by
  have hFold (acc : Members) :
      modify key f (ms.foldl (fun acc m => insert m.1 m.2 acc) acc) =
        (modify key f ms).foldl (fun acc m => insert m.1 m.2 acc) (modify key f acc) := by
    induction ms generalizing acc with
    | nil => rfl
    | cons m ms ih => rw [List.foldl_cons, ih, modify_insert, modify_cons, List.foldl_cons]
  exact hFold []

end Members

inductive Step where
  | member (key : String)
  | item (index : Nat)
  deriving DecidableEq

abbrev Path := List Step

namespace Value

def child? : Value → Step → Option Value
  | .object ms, .member key => Members.find? key ms
  | .array items, .item index => items[index]?
  | _, _ => none

def at? : Value → Path → Option Value
  | v, [] => some v
  | v, step :: path => (v.child? step).bind fun child => child.at? path

/-- What a value shows of itself: its keys, its length, or itself if it has no parts. -/
def head : Value → Value
  | .array items => .array (items.map fun _ => .null)
  | .object ms => .object (ms.map fun m => (m.1, .null))
  | v => v

/-- Replaces the value behind some keys, if there is one. -/
def put : (keys : List String) → (new : Value) → Value → Value
  | [], new, _ => new
  | key :: keys, new, .object ms => .object (Members.modify key (put keys new) ms)
  | _ :: _, _, v => v

section
variable {key : String} {keys others : List String} {new new' : Value} {path : Path} {v : Value}

theorem head_put_cons : (put (key :: keys) new v).head = v.head := by
  cases v with
  | object ms =>
    have hKeys (ms : Members) : ms.map (fun m => (m.1, Value.null)) =
        (ms.map Prod.fst).map fun k => (k, Value.null) := by
      rw [List.map_map]
      rfl
    rw [put, head, head, hKeys, Members.keys_modify, ← hKeys]
  | null | boolean _ | number _ | string _ | array _ => rfl

theorem child?_put_self :
    (put (key :: keys) new v).child? (.member key) = (v.child? (.member key)).map (put keys new) := by
  cases v with
  | object ms => exact Members.find?_modify_self
  | null | boolean _ | number _ | string _ | array _ => rfl

theorem child?_put_of_ne {step : Step} (h : step ≠ .member key) :
    (put (key :: keys) new v).child? step = v.child? step := by
  cases v with
  | object ms =>
    cases step with
    | member other => exact Members.find?_modify_of_ne fun hEq => h (congrArg Step.member hEq)
    | item index => rfl
  | null | boolean _ | number _ | string _ | array _ => rfl

/-- The place behind some keys. -/
def memberPath (keys : List String) : Path := keys.map .member

theorem at?_put_self : (put keys new v).at? (memberPath keys) = (v.at? (memberPath keys)).map fun _ => new := by
  induction keys generalizing v with
  | nil => rfl
  | cons key keys ih =>
    rw [memberPath, List.map_cons, at?, at?, child?_put_self]
    cases v.child? (.member key) with
    | none => rfl
    | some child => exact ih

/-- Elsewhere nothing changes: no value there loses or gains a part or becomes another one. -/
theorem head_at?_put (h : ¬ memberPath keys <+: path) :
    ((put keys new v).at? path).map head = (v.at? path).map head := by
  induction keys generalizing v path with
  | nil => exact absurd List.nil_prefix h
  | cons key keys ih =>
    cases path with
    | nil => exact congrArg some head_put_cons
    | cons step path =>
      rw [at?, at?]
      by_cases hStep : step = .member key
      · subst hStep
        rw [child?_put_self]
        cases v.child? (.member key) with
        | none => rfl
        | some child => exact ih fun hPrefix => h (List.cons_prefix_cons.mpr ⟨rfl, hPrefix⟩)
      · rw [child?_put_of_ne hStep]

/-- Neither of two places is inside the other. -/
def Apart (keys others : List String) : Prop := ¬ keys <+: others ∧ ¬ others <+: keys

theorem Apart.symm (h : Apart keys others) : Apart others keys := ⟨h.2, h.1⟩

theorem Apart.tail (h : Apart (key :: keys) (key :: others)) : Apart keys others :=
  ⟨fun hPrefix => h.1 (List.cons_prefix_cons.mpr ⟨rfl, hPrefix⟩),
    fun hPrefix => h.2 (List.cons_prefix_cons.mpr ⟨rfl, hPrefix⟩)⟩

theorem at?_put_of_apart (h : Apart keys others) :
    (put keys new v).at? (memberPath others) = v.at? (memberPath others) := by
  induction keys generalizing v others with
  | nil => exact absurd List.nil_prefix h.1
  | cons key keys ih =>
    cases others with
    | nil => exact absurd List.nil_prefix h.2
    | cons other others =>
      rw [memberPath, List.map_cons, at?, at?]
      by_cases hKey : other = key
      · subst hKey
        rw [child?_put_self]
        cases v.child? (.member other) with
        | none => rfl
        | some child => exact ih h.tail
      · rw [child?_put_of_ne fun hEq => hKey (Step.member.inj hEq)]

theorem put_put_self : put keys new (put keys new v) = put keys new v := by
  induction keys generalizing v with
  | nil => rfl
  | cons key keys ih =>
    cases v with
    | object ms =>
      rw [put, put, Members.modify_modify]
      exact congrArg (fun f => object (Members.modify key f ms)) (funext fun _ => ih)
    | null | boolean _ | number _ | string _ | array _ => rfl

theorem put_comm (h : Apart keys others) :
    put keys new (put others new' v) = put others new' (put keys new v) := by
  induction keys generalizing v others with
  | nil => exact absurd List.nil_prefix h.1
  | cons key keys ih =>
    cases others with
    | nil => exact absurd List.nil_prefix h.2
    | cons other others =>
      cases v with
      | object ms =>
        rw [put, put, put, put]
        by_cases hKey : key = other
        · subst hKey
          rw [Members.modify_modify, Members.modify_modify]
          exact congrArg (fun f => object (Members.modify key f ms)) (funext fun _ => ih h.tail)
        · rw [Members.modify_comm hKey]
      | null | boolean _ | number _ | string _ | array _ => rfl

theorem put_canonical (hNew : new.canonical = new) : put keys new v.canonical = (put keys new v).canonical := by
  induction keys generalizing v with
  | nil => exact hNew.symm
  | cons key keys ih =>
    cases v with
    | object ms =>
      have hMembers : Members.modify key (put keys new) (ms.map fun m => (m.1, m.2.canonical)) =
          (Members.modify key (put keys new) ms).map fun m => (m.1, m.2.canonical) := by
        induction ms with
        | nil => rfl
        | cons m ms ihMembers =>
          rw [List.map_cons, Members.modify_cons, ihMembers, Members.modify_cons, List.map_cons]
          split
          · rw [ih]
          · rfl
      rw [canonical_object, ofMembers, put, put, canonical_object, ofMembers, Members.modify_ofList, hMembers]
    | array items => rw [canonical_array, put, put, canonical_array] <;> rintro _ ⟨⟩
    | null | boolean _ | number _ | string _ => rfl

end

end Value

end PolicyLint.Json
