import PolicyLint.Proofs.Json.Canonical

/-!
# Flat values

A flat value is null or an object without containers and floating point numbers in it, as the payloads of
findings are. Reading puts nothing in another order there.
-/
namespace PolicyLint.Json
set_option autoImplicit false

/-- Neither a container nor a floating point number. -/
def Value.IsLeaf : Value → Prop
  | .array _ | .object _ | .number (.float _) => False
  | _ => True

theorem Value.isLeaf_ofInt (n : Int) : (Value.ofInt n).IsLeaf := by
  cases n <;> trivial

/-- Null, or an object of simple values with its members in byte order. -/
inductive Value.IsFlat : Value → Prop
  | null : IsFlat .null
  | object (ms : Members) (hSorted : ms.Sorted) (hLeaf : ∀ m ∈ ms, m.2.IsLeaf) : IsFlat (.object ms)

/-- Whether a whole number has 64 bits. -/
def Number.IsWord : Number → Prop
  | .natural n => n < Decimal.word64
  | .negative n => n < Decimal.half64
  | .float _ => True

/-- The numbers right inside an object have 64 bits. -/
def Value.HasWords : Value → Prop
  | .object ms => ∀ m ∈ ms, ∀ n, m.2 = .number n → n.IsWord
  | _ => True

theorem Value.isWord_ofInt {n : Int} (h : Decimal.fitsSigned Decimal.half64 n) :
    ∀ k, Value.ofInt n = .number k → k.IsWord := by
  intro k hk
  cases n with
  | ofNat n =>
    have hBound : n < Decimal.half64 := of_decide_eq_true h
    cases hk
    exact Nat.lt_trans hBound (by decide)
  | negSucc n =>
    have hBound : n < Decimal.half64 := of_decide_eq_true h
    cases hk
    exact hBound

theorem Value.IsLeaf.canonical_eq {v : Value} (h : v.IsLeaf) : v.canonical = v := by
  cases v with
  | array => cases h
  | object => cases h
  | _ => rfl

theorem Value.IsLeaf.fits {v : Value} (h : v.IsLeaf) (hWord : ∀ n, v = .number n → n.IsWord) (room : Nat) :
    v.Fits room := by
  cases v with
  | null => exact .null room
  | boolean b => exact .boolean room b
  | string s => exact .string room s
  | number n =>
    refine .number room n ?_
    have hNumber := hWord n rfl
    cases n with
    | float => cases h
    | _ => exact hNumber
  | array => cases h
  | object => cases h

theorem Value.isFlat_ofMembers {ms : List (String × Value)} (h : ∀ m ∈ ms, m.2.IsLeaf) :
    (Value.ofMembers ms).IsFlat :=
  .object _ (Members.sorted_ofList ms) fun m hm => h m (Members.mem_of_mem_ofList hm)

theorem Value.IsFlat.canonical_eq {v : Value} (h : v.IsFlat) : v.canonical = v := by
  cases h with
  | null => rfl
  | object ms hSorted hLeaf =>
    have hSame : ms.map (fun m => (m.1, m.2.canonical)) = ms.map id :=
      List.map_congr_left fun m hm => Prod.ext rfl (hLeaf m hm).canonical_eq
    rw [canonical_object, hSame, List.map_id, Value.ofMembers, hSorted.ofList_eq]

theorem Value.IsFlat.fits {v : Value} (h : v.IsFlat) (hWords : v.HasWords) (room : Nat) : v.Fits (room + 1) := by
  cases h with
  | null => exact .null _
  | object ms _ hLeaf => exact .object _ _ fun m hm => (hLeaf m hm).fits (hWords m hm) room

end PolicyLint.Json
