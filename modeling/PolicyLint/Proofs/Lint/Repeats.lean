import Mathlib.Data.Finset.Card
import PolicyLint.Proofs.Lint.Fingerprints
import PolicyLint.Proofs.Lint.Walks

/-!
# Repeated entries

Of the entries of one list that name a package and are not passed over, each one whose package and version an
earlier one has is reported as a duplicate, and no other. So a list has as many duplicates as it has entries
more than packages. What else is wrong with an entry has no influence on that.
-/
namespace PolicyLint.Lint
open Text Policy
set_option autoImplicit false

section

variable {α κ : Type} [DecidableEq κ]

/-- The elements whose key an earlier element has. -/
def repeats (key : α → κ) : List α → List α :=
  eachAfter fun before a => if key a ∈ before.map key then some a else none

theorem repeats_nil (key : α → κ) : repeats key [] = [] := rfl

theorem repeats_concat (key : α → κ) (l : List α) (a : α) :
    repeats key (l ++ [a]) = repeats key l ++ if key a ∈ l.map key then [a] else [] := by
  rw [repeats, eachAfter_concat]
  split <;> rfl

/-- An element has a key of its own, or it is a repeat. -/
theorem length_repeats (key : α → κ) (l : List α) :
    (repeats key l).length + (l.map key).toFinset.card = l.length := by
  induction l using List.reverseRecOn with
  | nil => rfl
  | append_singleton l a ih =>
    have hKeys : ((l ++ [a]).map key).toFinset = insert (key a) (l.map key).toFinset := by
      ext k
      simp
    rw [repeats_concat, hKeys, List.length_append, List.length_append, List.length_singleton]
    split
    · rename_i hMem
      rw [Finset.insert_eq_of_mem (List.mem_toFinset.mpr hMem), List.length_singleton]
      omega
    · rename_i hNew
      rw [Finset.card_insert_of_notMem fun hMem => hNew (List.mem_toFinset.mp hMem), List.length_nil]
      omega

theorem repeats_append {key : α → κ} {l l' : List α} (h : ∀ a ∈ l, ∀ b ∈ l', key a ≠ key b) :
    repeats key (l ++ l') = repeats key l ++ repeats key l' := by
  induction l' using List.reverseRecOn with
  | nil => rw [repeats_nil, List.append_nil, List.append_nil]
  | append_singleton l' b ih =>
    have hOther : key b ∉ l.map key := by
      intro hMem
      obtain ⟨a, ha, hSame⟩ := List.mem_map.mp hMem
      exact h a ha b (by simp) hSame
    rw [← List.append_assoc, repeats_concat, repeats_concat,
      ih fun a ha c hc => h a ha c (List.mem_append_left _ hc), List.append_assoc, List.map_append]
    simp only [List.mem_append, hOther, false_or]

theorem repeats_congr {κ' : Type} [DecidableEq κ'] {key : α → κ} {key' : α → κ'} {l : List α}
    (h : ∀ a ∈ l, ∀ b ∈ l, key a = key b ↔ key' a = key' b) : repeats key l = repeats key' l := by
  induction l using List.reverseRecOn with
  | nil => rfl
  | append_singleton l b ih =>
    have hMem : key b ∈ l.map key ↔ key' b ∈ l.map key' := by
      rw [List.mem_map, List.mem_map]
      apply exists_congr
      intro a
      apply and_congr_right
      intro ha
      exact h a (List.mem_append_left _ ha) b (by simp)
    rw [repeats_concat, repeats_concat, ih fun a ha c hc => h a (List.mem_append_left _ ha) c
      (List.mem_append_left _ hc)]
    simp only [hMem]

/-- A walk that remembers the keys of the elements that have one, and says `duplicate` of those that it
remembers already. -/
theorem IsSequential.filter_eq_repeats {β ν : Type} {walk : List κ → List α → List β}
    {next : List κ → α → List κ} (h : IsSequential walk next) {named? : α → Option ν} {key : ν → κ}
    {duplicate : ν → β} {p : β → Bool} (hNext : ∀ seen a, next seen a = ((named? a).map key).toList ++ seen)
    (hNone : ∀ seen a, named? a = none → (walk seen [a]).filter p = [])
    (hNew : ∀ seen a n, named? a = some n → key n ∉ seen → (walk seen [a]).filter p = [])
    (hRepeat : ∀ seen a n, named? a = some n → key n ∈ seen → (walk seen [a]).filter p = [duplicate n])
    (l : List α) :
    (walk [] l).filter p = (repeats key (l.filterMap named?)).map duplicate := by
  have hSeen : ∀ l : List α, ∀ k, k ∈ l.foldl next [] ↔ k ∈ (l.filterMap named?).map key := by
    intro l k
    induction l using List.reverseRecOn with
    | nil => exact Iff.rfl
    | append_singleton l a ih =>
      rw [List.foldl_append, List.foldl_cons, List.foldl_nil, hNext, List.mem_append, ih, List.filterMap_append,
        List.map_append, List.mem_append, or_comm]
      cases hNamed : named? a <;> simp [hNamed]
  induction l using List.reverseRecOn with
  | nil =>
    rw [h.nil]
    rfl
  | append_singleton l a ih =>
    rw [h.append, List.filter_append, ih, List.filterMap_append]
    cases hNamed : named? a with
    | none => rw [hNone _ a hNamed, List.append_nil, List.filterMap_cons_none hNamed, List.filterMap_nil, List.append_nil]
    | some n =>
      rw [List.filterMap_cons_some hNamed, List.filterMap_nil, repeats_concat, List.map_append]
      split
      · rename_i hMem
        rw [hRepeat _ a n hNamed ((hSeen l _).mpr hMem)]
        rfl
      · rename_i hMem
        rw [hNew _ a n hNamed (mt (hSeen l _).mp hMem)]
        rfl

end

/-- Of the entries of a list that count, exactly those are reported as duplicates whose package an earlier one
has: each once, and together as many as there are more entries than packages. -/
structure RepeatsReported {α : Type} (counted : List α) (package : α → PackageKey) (duplicate : α → Finding)
    (reported : List Finding) : Prop where
  each : reported = (repeats package counted).map duplicate
  count : reported.length + (counted.map package).toFinset.card = counted.length

theorem repeatsReported_map {α : Type} (counted : List α) (package : α → PackageKey) (duplicate : α → Finding) :
    RepeatsReported counted package duplicate ((repeats package counted).map duplicate) where
  each := rfl
  count := by rw [List.length_map, length_repeats]

theorem filter_map_finding (check : Check) (severity : Severity) (path : FilePath) (code : Code) (is : List Issue) :
    (is.map (Issue.finding check severity path)).filter (fun f => f.code = code.name) =
      (is.filter fun i => i.code = code).map (Issue.finding check severity path) := by
  have hCode : ∀ i : Issue, (i.finding check severity path).code = code.name ↔ i.code = code := fun i =>
    ⟨Code.name_injective, congrArg Code.name⟩
  rw [List.filter_map]
  simp only [Function.comp_def, hCode]

namespace Exceptions

def named? : Exception × Nat → Option Named
  | (e, index) => (packageName e.name).map fun name => ⟨index, name, e⟩

/-- The exceptions that name a package and are not passed over. -/
def counted (m : Model) (allowed : String → Bool) : List Named :=
  (m.licenses.exceptions.zipIdx.filter fun (e, _) => !allowsPackage allowed e.name).filterMap named?

theorem Named.filter_issues (m : Model) (again : Bool) (e : Named) :
    (e.issues m again).filter (fun i => i.code = .duplicateException) =
      if again then [e.duplicate m] else [] := by
  have hVersion : (e.invalidVersion m).filter (fun i => i.code = .duplicateException) = [] :=
    List.filter_eq_nil_iff.mpr fun i hi => by simp [(of_mem_invalidVersion hi).1]
  have hAllow : (e.emptyAllow m).filter (fun i => i.code = .duplicateException) = [] :=
    List.filter_eq_nil_iff.mpr fun i hi => by simp [(of_mem_emptyAllow hi).1]
  have hLicenses : (e.entry.allow.filterMap (e.invalidLicense m)).filter
      (fun i => i.code = .duplicateException) = [] := by
    apply List.filter_eq_nil_iff.mpr
    intro i hi
    obtain ⟨license, -, hLicense⟩ := List.mem_filterMap.mp hi
    simp [(of_invalidLicense hLicense).1]
  rw [issues, List.filter_append, List.filter_append, List.filter_append, hVersion, hAllow, hLicenses,
    List.nil_append, List.append_nil, List.append_nil]
  cases again <;> rfl

theorem filter_issues (m : Model) (allowed : String → Bool) :
    (issues m allowed).filter (fun i => i.code = .duplicateException) =
      (repeats Named.key (counted m allowed)).map (Named.duplicate m) := by
  apply (isSequential_walk m).filter_eq_repeats
  · rintro seen ⟨e, index⟩
    rw [remember, named?]
    cases packageName e.name <;> rfl
  · rintro seen ⟨e, index⟩ hNone
    rw [walk_unnamed (Option.map_eq_none_iff.mp hNone)]
    rfl
  · rintro seen ⟨e, index⟩ n hSome hNew
    obtain ⟨name, hName, rfl⟩ := Option.map_eq_some_iff.mp hSome
    rw [walk_named hName, Named.filter_issues, List.contains_eq_mem, decide_eq_false hNew, if_neg Bool.false_ne_true]
  · rintro seen ⟨e, index⟩ n hSome hSeen
    obtain ⟨name, hName, rfl⟩ := Option.map_eq_some_iff.mp hSome
    rw [walk_named hName, Named.filter_issues, List.contains_eq_mem, decide_eq_true hSeen, if_pos rfl]

end Exceptions

namespace SkipEntries

def entriesOf (b : Bans) : ListName → List Entry
  | .skip => b.skip.zipIdx.map fun (s, i) => ⟨.skip, i, s.name, s.version⟩
  | .skipTree => b.skipTree.zipIdx.map fun (s, i) => ⟨.skipTree, i, s.name, s.version⟩

theorem list_of_mem_entriesOf {b : Bans} {list : ListName} {e : Entry} (h : e ∈ entriesOf b list) :
    e.list = list := by
  cases list <;> obtain ⟨s, -, rfl⟩ := List.mem_map.mp h <;> rfl

structure NamedEntry where
  name : String
  entry : Entry

namespace NamedEntry

def package (e : NamedEntry) : PackageKey := .of e.name e.entry.trimmed

def duplicate (m : Model) (e : NamedEntry) : Issue := e.entry.duplicate m e.name

end NamedEntry

def named? (e : Entry) : Option NamedEntry := (packageName e.name).map fun name => ⟨name, e⟩

/-- The entries of a list that name a package and are not passed over. -/
def counted (m : Model) (allowed : String → Bool) (list : ListName) : List NamedEntry :=
  ((entriesOf m.bans list).filter fun e => !allowsPackage allowed e.name).filterMap named?

theorem list_of_mem_counted {m : Model} {allowed : String → Bool} {list : ListName} {e : NamedEntry}
    (h : e ∈ counted m allowed list) : e.entry.list = list := by
  obtain ⟨entry, hEntry, hNamed⟩ := List.mem_filterMap.mp h
  obtain ⟨name, -, rfl⟩ := Option.map_eq_some_iff.mp hNamed
  exact list_of_mem_entriesOf (List.mem_of_mem_filter hEntry)

theorem filter_walk_named {m : Model} {seen : Seen} {e : Entry} {name : String} (h : packageName e.name = some name) :
    (walk m seen [e]).filter (fun i => i.code = .duplicateSkip) =
      if seen.contains (e.list, PackageKey.of name e.trimmed) then [e.duplicate m name] else [] := by
  have hVersion : (e.invalidVersion m name).filter (fun i => i.code = .duplicateSkip) = [] :=
    List.filter_eq_nil_iff.mpr fun i hi => by simp [(Entry.of_mem_invalidVersion hi).1]
  rw [walk_named h, List.filter_append, hVersion, List.nil_append]
  split <;> rfl

/-- The lists are walked as one, but no entry of one list repeats an entry of the other. -/
theorem filter_issues (m : Model) (allowed : String → Bool) :
    (issues m allowed).filter (fun i => i.code = .duplicateSkip) =
      (repeats NamedEntry.package (counted m allowed .skip)).map (NamedEntry.duplicate m) ++
        (repeats NamedEntry.package (counted m allowed .skipTree)).map (NamedEntry.duplicate m) := by
  have hWalk : (issues m allowed).filter (fun i => i.code = .duplicateSkip) =
      (repeats (fun e => (e.entry.list, e.package))
        (counted m allowed .skip ++ counted m allowed .skipTree)).map (NamedEntry.duplicate m) := by
    have hEntries : entries m.bans = entriesOf m.bans .skip ++ entriesOf m.bans .skipTree := rfl
    rw [counted, counted, ← List.filterMap_append, ← List.filter_append, ← hEntries]
    apply (isSequential_walk m).filter_eq_repeats
    · intro seen e
      rw [remember, named?]
      cases packageName e.name <;> rfl
    · intro seen e hNone
      rw [walk_unnamed (Option.map_eq_none_iff.mp hNone)]
      rfl
    · intro seen e n hSome hNew
      obtain ⟨name, hName, rfl⟩ := Option.map_eq_some_iff.mp hSome
      have hContains : seen.contains (e.list, PackageKey.of name e.trimmed) = false :=
        Bool.eq_false_iff.mpr (mt List.contains_iff_mem.mp hNew)
      rw [filter_walk_named hName, hContains, if_neg Bool.false_ne_true]
    · intro seen e n hSome hSeen
      obtain ⟨name, hName, rfl⟩ := Option.map_eq_some_iff.mp hSome
      have hContains : seen.contains (e.list, PackageKey.of name e.trimmed) = true :=
        List.contains_iff_mem.mpr hSeen
      rw [filter_walk_named hName, hContains, if_pos rfl]
      rfl
  have hOne : ∀ list, repeats (fun e => (e.entry.list, e.package)) (counted m allowed list) =
      repeats NamedEntry.package (counted m allowed list) := by
    intro list
    apply repeats_congr
    intro a ha b hb
    rw [Prod.mk.injEq, list_of_mem_counted ha, list_of_mem_counted hb, and_iff_right rfl]
  have hApart : ∀ a ∈ counted m allowed .skip, ∀ b ∈ counted m allowed .skipTree,
      (a.entry.list, a.package) ≠ (b.entry.list, b.package) := by
    intro a ha b hb
    rw [list_of_mem_counted ha, list_of_mem_counted hb]
    simp
  rw [hWalk, repeats_append hApart, List.map_append, hOne, hOne]

end SkipEntries

/-- Exceptions, skip entries and skipped trees that repeat an earlier entry of their list are reported, and
nothing else is reported as a duplicate. -/
theorem repeatsReported_findings (m : Model) (plan : Plan) :
    (∀ rule ∈ plan.rule? .exceptions,
      RepeatsReported (Exceptions.counted m (Glob.anyMatches rule.allow)) Exceptions.Named.key
        (fun e => (e.duplicate m).finding .exceptions rule.severity m.path)
        ((Check.exceptions.findings m plan).filter fun f => f.code = Code.duplicateException.name)) ∧
    ∀ rule ∈ plan.rule? .skipEntries, ∃ skips trees,
      (Check.skipEntries.findings m plan).filter (fun f => f.code = Code.duplicateSkip.name) = skips ++ trees ∧
      RepeatsReported (SkipEntries.counted m (Glob.anyMatches rule.allow) .skip) SkipEntries.NamedEntry.package
        (fun e => (e.duplicate m).finding .skipEntries rule.severity m.path) skips ∧
      RepeatsReported (SkipEntries.counted m (Glob.anyMatches rule.allow) .skipTree) SkipEntries.NamedEntry.package
        (fun e => (e.duplicate m).finding .skipEntries rule.severity m.path) trees := by
  constructor
  · intro rule hRule
    rw [Check.findings, Option.mem_def.mp hRule]
    simp only [Check.issues, filter_map_finding, Exceptions.filter_issues, List.map_map]
    exact repeatsReported_map _ _ _
  · intro rule hRule
    rw [Check.findings, Option.mem_def.mp hRule]
    simp only [Check.issues, filter_map_finding, SkipEntries.filter_issues, List.map_append, List.map_map]
    exact ⟨_, _, rfl, repeatsReported_map _ _ _, repeatsReported_map _ _ _⟩

/-- A package three times: unnamed and invalid entries stand between, the second time the empty version is
given, and the third time is in the other list. -/
def interruptedPolicy : Model :=
  .ofDocument .default {
    licenses := some {
      exceptions := [{ name := some ⟨"ring", ⟨0, 0⟩⟩ }, {}, { name := some ⟨" ring", ⟨0, 0⟩⟩, version := some ⟨"", ⟨0, 0⟩⟩ }] }
    bans := some {
      skip := [{ name := some ⟨"syn", ⟨0, 0⟩⟩, version := some ⟨"one", ⟨0, 0⟩⟩ }, {},
        { name := some ⟨"syn", ⟨0, 0⟩⟩, version := some ⟨" one", ⟨0, 0⟩⟩ }]
      skipTree := [{ name := some ⟨"syn", ⟨0, 0⟩⟩, version := some ⟨"one", ⟨0, 0⟩⟩ }] } }

theorem repeatsReported_interruptedPolicy :
    let rule : Rule := { severity := .error }
    rule ∈ strictPlan.rule? .exceptions ∧ rule ∈ strictPlan.rule? .skipEntries ∧
    (∃ reported, RepeatsReported (Exceptions.counted interruptedPolicy (Glob.anyMatches [])) Exceptions.Named.key
        (fun e => (e.duplicate interruptedPolicy).finding .exceptions .error .default) reported ∧
      reported.map Finding.message = ["'ring@' has more than one entry in licenses.exceptions"]) ∧
    ∃ skips trees, (Check.skipEntries.findings interruptedPolicy strictPlan).filter
        (fun f => f.code = Code.duplicateSkip.name) = skips ++ trees ∧
      RepeatsReported (SkipEntries.counted interruptedPolicy (Glob.anyMatches []) .skip) SkipEntries.NamedEntry.package
        (fun e => (e.duplicate interruptedPolicy).finding .skipEntries .error .default) skips ∧
      RepeatsReported (SkipEntries.counted interruptedPolicy (Glob.anyMatches []) .skipTree)
        SkipEntries.NamedEntry.package
        (fun e => (e.duplicate interruptedPolicy).finding .skipEntries .error .default) trees ∧
      skips.map Finding.message = ["'syn@one' appears more than once in bans.skip"] ∧ trees = [] := by
  intro rule
  have hRule : rule ∈ strictPlan.rule? .exceptions := rfl
  have hRule' : rule ∈ strictPlan.rule? .skipEntries := rfl
  obtain ⟨hExceptions, hSkipEntries⟩ := repeatsReported_findings interruptedPolicy strictPlan
  obtain ⟨skips, trees, hAll, hSkips, hTrees⟩ := hSkipEntries rule hRule'
  refine ⟨hRule, hRule', ⟨_, hExceptions rule hRule, by decide +kernel⟩, skips, trees, hAll, hSkips, hTrees, ?_, ?_⟩
  · rw [hSkips.each]
    decide +kernel
  · rw [hTrees.each]
    exact List.map_eq_nil_iff.mpr (List.eq_nil_of_length_eq_zero (by decide +kernel))

end PolicyLint.Lint
