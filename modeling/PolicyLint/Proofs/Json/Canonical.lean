import PolicyLint.Proofs.Json.Members
import PolicyLint.Proofs.Json.Numbers

/-!
# Values as they are read back

A reader puts the members of objects in byte order. Values whose numbers and nesting a reader accepts are told
by `Value.Fits`.
-/
namespace PolicyLint.Json
set_option autoImplicit false

mutual

/-- The value with the members of all objects in byte order. -/
def Value.canonical : Value → Value
  | .array items => .array (canonicalItems items)
  | .object members => .ofMembers (canonicalMembers members)
  | v => v

def canonicalItems : List Value → List Value
  | [] => []
  | v :: vs => v.canonical :: canonicalItems vs

def canonicalMembers : List (String × Value) → List (String × Value)
  | [] => []
  | (key, v) :: ms => (key, v.canonical) :: canonicalMembers ms

end

theorem canonicalItems_eq (vs : List Value) : canonicalItems vs = vs.map Value.canonical := by
  induction vs with
  | nil => rfl
  | cons v vs ih => rw [canonicalItems, ih, List.map_cons]

theorem canonicalMembers_eq (ms : List (String × Value)) :
    canonicalMembers ms = ms.map fun m => (m.1, m.2.canonical) := by
  induction ms with
  | nil => rfl
  | cons m ms ih => rw [canonicalMembers, ih, List.map_cons]

@[simp] theorem canonical_string (s : String) : (Value.string s).canonical = .string s := rfl

@[simp] theorem canonical_array (vs : List Value) : (Value.array vs).canonical = .array (vs.map Value.canonical) := by
  rw [Value.canonical, canonicalItems_eq]

@[simp] theorem canonical_object (ms : List (String × Value)) :
    (Value.object ms).canonical = .ofMembers (ms.map fun m => (m.1, m.2.canonical)) := by
  rw [Value.canonical, canonicalMembers_eq]

theorem get?_canonical_object {ms : List (String × Value)} (hKeys : (ms.map Prod.fst).Nodup) {key : String}
    {v : Value} (hm : (key, v) ∈ ms) : (Value.object ms).canonical.get? key = some v.canonical := by
  have hSame : (ms.map fun m => (m.1, m.2.canonical)).map Prod.fst = ms.map Prod.fst := by
    rw [List.map_map]
    rfl
  rw [canonical_object, Value.ofMembers, Value.get?]
  exact Members.find?_ofList (hSame ▸ hKeys) (List.mem_map.mpr ⟨_, hm, rfl⟩)

/-- Whole numbers of 64 bits, and at most `room` levels of arrays and objects. -/
inductive Value.Fits : (room : Nat) → Value → Prop
  | null (room : Nat) : Fits room .null
  | boolean (room : Nat) (b : Bool) : Fits room (.boolean b)
  | number (room : Nat) (n : Number) (h : n.Fits) : Fits room (.number n)
  | string (room : Nat) (s : String) : Fits room (.string s)
  | array (room : Nat) (vs : List Value) (h : ∀ v ∈ vs, Fits room v) : Fits (room + 1) (.array vs)
  | object (room : Nat) (ms : List (String × Value)) (h : ∀ m ∈ ms, Fits room m.2) :
    Fits (room + 1) (.object ms)

@[simp] theorem Value.fits_string (room : Nat) (s : String) : (Value.string s).Fits room := .string room s

theorem Value.fits_ofNat {n : Nat} (h : n < Decimal.word64) (room : Nat) : (Value.ofNat n).Fits room :=
  .number room (.natural n) h

end PolicyLint.Json
