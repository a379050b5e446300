import Mathlib.Data.List.Forall2
import PolicyLint.Policy.FilePath
import PolicyLint.Proofs.Text.Pieces

/-!
# Normal forms of paths

A path is brought into its normal form by reading backslashes as slashes and taking every `./` off the front.
Nothing else is changed, so the names on the path stay the same. But a slash that follows behind the dots comes
to stand in front, and then a relative path has become an absolute one.
-/
namespace PolicyLint.Policy.FilePath
open Text
set_option autoImplicit false

structure IsNormal (p : FilePath) : Prop where
  notEmpty : p.text ≠ ""
  noBackslash : '\\' ∉ p.text.toList
  noDots : ¬ ['.', '/'] <+: p.text.toList

/-- Taking `./` off the front as long as there is one comes to an end, with a text. -/
inductive Strips : (cs last : List Char) → Prop
  | done {cs : List Char} (h : stripFront ['.', '/'] cs = none) : Strips cs cs
  | next {cs rest last : List Char} (h : stripFront ['.', '/'] cs = some rest) (hRest : Strips rest last) :
    Strips cs last

/-- The texts are alike, but for slashes of the first that are backslashes in the second. -/
def Swapped : List Char → List Char → Prop := List.Forall₂ fun c d => d = c ∨ c = '/' ∧ d = '\\'

def dots (n : Nat) : List Char := (List.replicate n ['.', '/']).flatten

/-- A further slash follows the `./` in front. -/
def IsDoubled (cs : List Char) : Prop := ∃ n rest, cs = dots (n + 1) ++ '/' :: rest

def IsAbsolute (cs : List Char) : Prop := cs.head? = some '/'

/-- The names on a path. An empty name and a dot lead nowhere. -/
def names (cs : List Char) : List (List Char) :=
  (splitAt (· == '/') cs).filter fun name => name ≠ [] && name ≠ ['.']

structure SamePath (a b : List Char) : Prop where
  absolute : IsAbsolute a ↔ IsAbsolute b
  names : names a = names b

section
variable {cs last : List Char}

theorem dots_succ_append (n : Nat) (cs : List Char) : dots (n + 1) ++ cs = '.' :: '/' :: (dots n ++ cs) := rfl

theorem stripDots_dots_append (n : Nat) (cs : List Char) : stripDots (dots n ++ cs) = stripDots cs := by
  induction n with
  | zero => rfl
  | succ n ih => rw [dots_succ_append, stripDots, ih]

theorem stripDots_eq_self (h : ¬ ['.', '/'] <+: cs) : stripDots cs = cs := by
  rw [stripDots]
  rintro rest rfl
  exact h (List.prefix_append ['.', '/'] rest)

theorem exists_dots (cs : List Char) : ∃ n, cs = dots n ++ stripDots cs := by
  fun_induction stripDots cs with
  | case1 cs ih =>
    obtain ⟨n, hn⟩ := ih
    exact ⟨n + 1, by rw [dots_succ_append, ← hn]⟩
  | case2 cs => exact ⟨0, rfl⟩

theorem not_prefix_stripDots (cs : List Char) : ¬ ['.', '/'] <+: stripDots cs := by
  fun_induction stripDots cs with
  | case1 cs ih => exact ih
  | case2 cs h =>
    rintro ⟨rest, hEq⟩
    exact h rest hEq.symm

theorem stripFront_stripDots (cs : List Char) : stripFront ['.', '/'] (stripDots cs) = none := by
  rw [Option.eq_none_iff_forall_ne_some]
  intro rest hRest
  exact not_prefix_stripDots cs ⟨rest, (stripFront_eq_some_iff.mp hRest).symm⟩

theorem strips_iff : Strips cs last ↔ last = stripDots cs := by
  constructor
  · intro h
    induction h with
    | done h =>
      refine (stripDots_eq_self ?_).symm
      rintro ⟨rest, hEq⟩
      cases h.symm.trans (stripFront_eq_some_iff.mpr hEq.symm)
    | next h _ ih =>
      rw [ih, stripFront_eq_some_iff.mp h]
      rfl
  · rintro rfl
    fun_induction stripDots cs with
    | case1 cs ih => exact .next rfl ih
    | case2 cs h =>
      refine .done (Option.eq_none_iff_forall_ne_some.mpr fun rest hRest => ?_)
      exact h rest (stripFront_eq_some_iff.mp hRest)

theorem forward_append (a b : List Char) : forward (a ++ b) = forward a ++ forward b := List.map_append

theorem backslash_not_mem_forward (cs : List Char) : '\\' ∉ forward cs := by
  rw [forward, List.mem_map]
  rintro ⟨c, -, hc⟩
  split_ifs at hc with h
  · cases hc
  · exact h hc

theorem forward_eq_self (h : '\\' ∉ cs) : forward cs = cs := by
  have hSame : ∀ c ∈ cs, (if c = '\\' then '/' else c) = id c := by
    intro c hc
    rw [if_neg (by rintro rfl; exact h hc), id]
  rw [forward, List.map_congr_left hSame, List.map_id]

end

theorem Swapped.forward_eq {cs ds : List Char} (h : Swapped cs ds) : forward ds = forward cs := by
  induction h with
  | nil => rfl
  | cons hHead _ ih =>
    rw [forward, forward, List.map_cons, List.map_cons]
    refine congrArg₂ _ ?_ ih
    obtain rfl | ⟨rfl, rfl⟩ := hHead
    · rfl
    · rfl

theorem forward_join {segments : List String} (h : ∀ segment ∈ segments, segment = "./" ∨ segment = ".\\") :
    forward (String.join segments).toList = dots segments.length := by
  induction segments with
  | nil => rfl
  | cons segment segments ih =>
    rw [List.forall_mem_cons] at h
    rw [String.join_cons, String.toList_append, forward_append, ih h.2]
    obtain rfl | rfl := h.1
    · rfl
    · rfl

theorem ofText_eq_of_stripDots_eq {s t : String}
    (h : stripDots (forward s.toList) = stripDots (forward t.toList)) : ofText s = ofText t := by
  rw [ofText, h, ofText]

theorem ofText_of_stripDots_eq_nil {s : String} (h : stripDots (forward s.toList) = []) :
    ofText s = FilePath.default := by
  rw [ofText, h]

theorem text_ofText {s : String} (h : stripDots (forward s.toList) ≠ []) :
    (ofText s).text = String.ofList (stripDots (forward s.toList)) := by
  rw [ofText]
  split
  · exact absurd ‹_› h
  · rfl

theorem isNormal_default : IsNormal .default := by
  constructor <;> decide

theorem isNormal_ofText (s : String) : (ofText s).IsNormal := by
  by_cases h : stripDots (forward s.toList) = []
  · rw [ofText_of_stripDots_eq_nil h]
    exact isNormal_default
  · obtain ⟨n, hn⟩ := exists_dots (forward s.toList)
    refine ⟨?_, ?_, ?_⟩ <;> rw [text_ofText h]
    · rwa [Ne, String.ofList_eq_empty_iff]
    · rw [String.toList_ofList]
      intro hMem
      exact backslash_not_mem_forward s.toList (hn ▸ List.mem_append_right _ hMem)
    · rw [String.toList_ofList]
      exact not_prefix_stripDots _

theorem IsNormal.ofText_text {p : FilePath} (h : p.IsNormal) : ofText p.text = p := by
  have hStripped : stripDots (forward p.text.toList) = p.text.toList := by
    rw [forward_eq_self h.noBackslash, stripDots_eq_self h.noDots]
  have hSome : p.text.toList ≠ [] := by
    rw [Ne, String.toList_eq_nil_iff]
    exact h.notEmpty
  have hText := text_ofText (hStripped ▸ hSome)
  rw [hStripped, String.ofList_toList] at hText
  cases p
  exact congrArg FilePath.mk hText

/-- The normal forms are the paths that texts are read as. -/
theorem isNormal_iff {p : FilePath} : p.IsNormal ↔ ∃ s, ofText s = p := by
  constructor
  · intro h
    exact ⟨p.text, h.ofText_text⟩
  · rintro ⟨s, rfl⟩
    exact isNormal_ofText s

/-- Reading a path ends, with a normal form that is read as itself. Neither `./` in front, with either slash,
nor backslashes in place of slashes make a difference. -/
theorem ofText_normalizes (s : String) :
    (∃ last, Strips (forward s.toList) last ∧
      (ofText s).text = if last = [] then "deny.toml" else String.ofList last) ∧
    (ofText s).IsNormal ∧ ofText (ofText s).text = ofText s ∧
    (∀ segments : List String, (∀ segment ∈ segments, segment = "./" ∨ segment = ".\\") →
      ofText (String.join segments ++ s) = ofText s) ∧
    ∀ t, Swapped s.toList t.toList → ofText t = ofText s := by
  refine ⟨⟨stripDots (forward s.toList), strips_iff.mpr rfl, ?_⟩, isNormal_ofText s,
    (isNormal_ofText s).ofText_text, fun segments hSegments => ?_, fun t hSwapped => ?_⟩
  · split_ifs with h
    · rw [ofText_of_stripDots_eq_nil h]
      rfl
    · exact text_ofText h
  · apply ofText_eq_of_stripDots_eq
    rw [String.toList_append, forward_append, forward_join hSegments, stripDots_dots_append]
  · apply ofText_eq_of_stripDots_eq
    rw [hSwapped.forward_eq]

theorem ofText_normalizes_ci :
    ofText (String.join [".\\", "./"] ++ "ci/deny.toml") = ofText "ci/deny.toml" ∧
    Swapped "ci/deny.toml".toList "ci\\deny.toml".toList ∧ ofText "ci\\deny.toml" = ofText "ci/deny.toml" := by
  have hSwapped : Swapped "ci/deny.toml".toList "ci\\deny.toml".toList := by
    rw [Swapped]
    decide
  obtain ⟨-, -, -, hSegments, hSwaps⟩ := ofText_normalizes "ci/deny.toml"
  exact ⟨hSegments [".\\", "./"] (by decide), hSwapped, hSwaps _ hSwapped⟩

theorem names_dots_append (n : Nat) (cs : List Char) : names (dots n ++ cs) = names cs := by
  induction n with
  | zero => rfl
  | succ n ih =>
    have hSplit : splitAt (· == '/') ('.' :: '/' :: (dots n ++ cs)) =
        ['.'] :: splitAt (· == '/') (dots n ++ cs) := rfl
    rw [dots_succ_append, names, hSplit, List.filter_cons_of_neg (by decide)]
    exact ih

theorem names_stripDots (cs : List Char) : names (stripDots cs) = names cs := by
  obtain ⟨n, hn⟩ := exists_dots cs
  have hNames := names_dots_append n (stripDots cs)
  rw [← hn] at hNames
  exact hNames.symm

theorem isAbsolute_iff {cs : List Char} : IsAbsolute cs ↔ ∃ rest, cs = '/' :: rest :=
  List.head?_eq_some_iff

theorem isAbsolute_stripDots_iff (cs : List Char) : IsAbsolute (stripDots cs) ↔ IsAbsolute cs ∨ IsDoubled cs := by
  obtain ⟨n, hn⟩ := exists_dots cs
  constructor
  · intro h
    obtain ⟨rest, hRest⟩ := isAbsolute_iff.mp h
    rw [hRest] at hn
    cases n with
    | zero => exact .inl (isAbsolute_iff.mpr ⟨rest, hn⟩)
    | succ n => exact .inr ⟨n, rest, hn⟩
  · rintro (h | ⟨n, rest, rfl⟩)
    · obtain ⟨rest, rfl⟩ := isAbsolute_iff.mp h
      exact isAbsolute_iff.mpr ⟨rest, rfl⟩
    · rw [stripDots_dots_append]
      exact isAbsolute_iff.mpr ⟨rest, rfl⟩

theorem IsDoubled.not_isAbsolute {cs : List Char} (h : IsDoubled cs) : ¬ IsAbsolute cs := by
  obtain ⟨n, rest, rfl⟩ := h
  rw [dots_succ_append, isAbsolute_iff]
  rintro ⟨_, ⟨⟩⟩

/-- A path keeps its names, and it stays the same path exactly if no slash follows the `./` in front. -/
theorem samePath_ofText_iff {s : String} (h : stripDots (forward s.toList) ≠ []) :
    names (ofText s).text.toList = names (forward s.toList) ∧
      (SamePath (forward s.toList) (ofText s).text.toList ↔ ¬ IsDoubled (forward s.toList)) := by
  rw [text_ofText h, String.toList_ofList]
  refine ⟨names_stripDots _, fun hSame hDoubled => ?_, fun hSingle => ⟨?_, (names_stripDots _).symm⟩⟩
  -- Behind the dots there is an absolute path, but a path that starts with a dot is relative.
  · exact hDoubled.not_isAbsolute (hSame.absolute.mpr ((isAbsolute_stripDots_iff _).mpr (.inr hDoubled)))
  · rw [isAbsolute_stripDots_iff, or_iff_left hSingle]

theorem samePath_ofText_ci : stripDots (forward "././ci\\.//deny.toml".toList) ≠ [] ∧
    ¬ IsDoubled (forward "././ci\\.//deny.toml".toList) ∧
    SamePath (forward "././ci\\.//deny.toml".toList) (ofText "././ci\\.//deny.toml").text.toList := by
  have hSome : stripDots (forward "././ci\\.//deny.toml".toList) ≠ [] := by decide
  have hSingle : ¬ IsDoubled (forward "././ci\\.//deny.toml".toList) := by
    intro hDoubled
    have hAbsolute := (isAbsolute_stripDots_iff _).mpr (.inr hDoubled)
    revert hAbsolute
    rw [IsAbsolute]
    decide
  exact ⟨hSome, hSingle, (samePath_ofText_iff hSome).2.mpr hSingle⟩

/-- Without its dot the path leads to another file. -/
theorem not_samePath_ofText_etc : stripDots (forward ".//etc/deny.toml".toList) ≠ [] ∧
    (ofText ".//etc/deny.toml").text = "/etc/deny.toml" ∧
    ¬ SamePath (forward ".//etc/deny.toml".toList) (ofText ".//etc/deny.toml").text.toList := by
  have hText : (ofText ".//etc/deny.toml").text = "/etc/deny.toml" := by decide
  refine ⟨by decide, hText, fun hSame => ?_⟩
  have hAbsolute : IsAbsolute (forward ".//etc/deny.toml".toList) := hSame.absolute.mpr (by rw [hText]; rfl)
  revert hAbsolute
  rw [IsAbsolute]
  decide

end PolicyLint.Policy.FilePath
