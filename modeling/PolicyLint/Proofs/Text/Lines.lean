import PolicyLint.Text.Bytes
import PolicyLint.Proofs.Text.Pieces
import Mathlib.Data.List.Count

/-!
# Lines

The line of an offset is at most one more than the number of line feeds in the text, wherever the offset
points. In UTF-8 the byte of a line feed stands for nothing else. Lines that hold no line end of their own are
found again in the text that they make up.
-/
namespace PolicyLint.Text
set_option autoImplicit false

/-- How many bytes of the UTF-8 form are line feeds. -/
def feeds (s : String) : Nat := (bytes s).count 10

theorem toList_loop (b : ByteArray) (i : Nat) (acc : List UInt8) :
    ByteArray.toList.loop b i acc = acc.reverse ++ b.data.toList.drop i := by
  fun_induction ByteArray.toList.loop b i acc with
  | case1 i acc hi ih =>
    have hLength : i < b.data.toList.length := hi
    have hGet : b.get! i = b.data.toList[i] := getElem!_pos b.data i hi
    rw [ih, List.reverse_cons, List.append_assoc, List.drop_eq_getElem_cons hLength, hGet]
    rfl
  | case2 i acc hi =>
    rw [List.drop_eq_nil_of_le (Nat.le_of_not_lt hi), List.append_nil]

theorem toList_toUTF8 (s : String) : s.toUTF8.toList = s.toList.flatMap String.utf8EncodeChar := by
  rw [ByteArray.toList, toList_loop, String.toUTF8_eq_toByteArray, ← String.utf8Encode_toList, List.utf8Encode,
    List.toList_data_toByteArray]
  rfl

/-- Bytes of characters that take several are 128 or more. -/
theorem count_utf8EncodeChar (c : Char) :
    ((String.utf8EncodeChar c).map UInt8.toNat).count 10 = if c = '\n' then 1 else 0 := by
  have hFeed : c = '\n' ↔ c.val.toNat = 10 := by
    constructor
    · rintro rfl
      rfl
    · intro h
      exact Char.ext (UInt32.toNat_inj.mp h)
  simp only [String.utf8EncodeChar, hFeed]
  by_cases hOne : c.val.toNat ≤ 0x7f
  · rw [if_pos hOne]
    simp only [List.map_cons, List.map_nil, List.count_singleton, UInt8.toNat_ofNat', beq_iff_eq]
    congr 1
    simp only [eq_iff_iff]
    omega
  · rw [if_neg hOne, if_neg (show ¬ c.val.toNat = 10 by omega), List.count_eq_zero]
    split_ifs <;> simp <;> omega

theorem feeds_eq_count (s : String) : feeds s = s.toList.count '\n' := by
  rw [feeds, bytes, toList_toUTF8]
  induction s.toList with
  | nil => rfl
  | cons c cs ih =>
    rw [List.flatMap_cons, List.map_append, List.count_append, ih, count_utf8EncodeChar, List.count_cons,
      Nat.add_comm]
    simp

theorem feedsBefore_le_count (offset : Nat) (cs : List Char) : feedsBefore offset cs ≤ cs.count '\n' := by
  induction cs generalizing offset with
  | nil => exact Nat.le_refl _
  | cons c cs ih =>
    rw [feedsBefore]
    split
    · exact Nat.zero_le _
    · have hRest := ih (offset - c.utf8Size)
      simp only [List.count_cons, beq_iff_eq]
      omega

theorem one_le_lineAt (s : String) (offset : Nat) : 1 ≤ lineAt s offset := Nat.le_add_left _ _

theorem lineAt_le (s : String) (offset : Nat) : lineAt s offset ≤ 1 + feeds s := by
  rw [lineAt, feeds_eq_count, Nat.add_comm]
  exact Nat.add_le_add_left (feedsBefore_le_count offset _) 1

def isLineEnd (c : Char) : Bool := c = '\r' || c = '\n'

def IsOneLine (s : String) : Prop := ∀ c ∈ s.toList, isLineEnd c = false

instance (s : String) : Decidable (IsOneLine s) := List.decidableBAll _ _

theorem isOneLine_append {a b : String} : IsOneLine (a ++ b) ↔ IsOneLine a ∧ IsOneLine b := by
  simp only [IsOneLine, String.toList_append, List.forall_mem_append]

/-- The texts as lines, each with its end. -/
def unlines (lines : List String) : String := String.join (lines.map (· ++ "\n"))

@[simp] theorem unlines_nil : unlines [] = "" := rfl

end PolicyLint.Text
