import Mathlib.Data.List.Basic
import Mathlib.Data.List.Induction
import PolicyLint.Lint.Checks.Exceptions
import PolicyLint.Lint.Checks.LicenseLists
import PolicyLint.Lint.Checks.SkipEntries

/-!
# Walks over lists of entries

The checks on lists go through the entries and remember what they have met. All that a walk says is said of
one entry after another, and what it says of an entry depends on the entries behind it in no way.
-/
namespace PolicyLint.Lint
open Text Policy License
set_option autoImplicit false

/-- A walk that goes through a list element by element, with `next` as the state behind an element. -/
structure IsSequential {σ α β : Type} (walk : σ → List α → List β) (next : σ → α → σ) : Prop where
  nil : ∀ s, walk s [] = []
  cons : ∀ s a as, walk s (a :: as) = walk s [a] ++ walk (next s a) as

namespace IsSequential

variable {σ α β : Type} {walk : σ → List α → List β} {next : σ → α → σ} (h : IsSequential walk next)

include h

theorem append (s : σ) (as bs : List α) : walk s (as ++ bs) = walk s as ++ walk (as.foldl next s) bs := by
  induction as generalizing s with
  | nil => rw [List.nil_append, h.nil, List.nil_append, List.foldl_nil]
  | cons a as ih =>
    rw [List.cons_append, h.cons, ih, h.cons s a as, List.append_assoc, List.foldl_cons]

theorem append_after (s : σ) (before as bs : List α) :
    walk (before.foldl next s) (as ++ bs) =
      walk (before.foldl next s) as ++ walk ((before ++ as).foldl next s) bs := by
  rw [h.append, List.foldl_append]

theorem exists_of_mem {s : σ} {as : List α} {b : β} (hb : b ∈ walk s as) :
    ∃ a ∈ as, ∃ t, b ∈ walk t [a] := by
  induction as generalizing s with
  | nil =>
    rw [h.nil] at hb
    cases hb
  | cons a as ih =>
    rw [h.cons, List.mem_append] at hb
    rcases hb with hb | hb
    · exact ⟨a, List.mem_cons_self, s, hb⟩
    · obtain ⟨a', ha', t, hb⟩ := ih hb
      exact ⟨a', List.mem_cons_of_mem _ ha', t, hb⟩

end IsSequential

/-- What there is to say of the elements of a list, each in view of those before it. -/
def eachAfter {α β : Type} (said : List α → α → Option β) (l : List α) : List β :=
  l.zipIdx.filterMap fun (a, k) => said (l.take k) a

theorem mem_eachAfter_iff {α β : Type} {said : List α → α → Option β} {l : List α} {b : β} :
    b ∈ eachAfter said l ↔ ∃ before a after, l = before ++ a :: after ∧ said before a = some b := by
  simp only [eachAfter, List.mem_filterMap, Prod.exists, List.mem_zipIdx_iff_getElem?]
  constructor
  · rintro ⟨a, k, hGet, hSaid⟩
    obtain ⟨hk, rfl⟩ := List.getElem?_eq_some_iff.mp hGet
    exact ⟨l.take k, l[k], l.drop (k + 1), by rw [← List.drop_eq_getElem_cons hk, List.take_append_drop], hSaid⟩
  · rintro ⟨before, a, after, rfl, hSaid⟩
    exact ⟨a, before.length, by simp, by rwa [List.take_left]⟩

theorem eachAfter_concat {α β : Type} (said : List α → α → Option β) (l : List α) (a : α) :
    eachAfter said (l ++ [a]) = eachAfter said l ++ (said l a).toList := by
  have hFront : l.zipIdx.filterMap (fun (b, k) => said ((l ++ [a]).take k) b) = eachAfter said l := by
    apply List.filterMap_congr
    rintro ⟨b, k⟩ hMem
    have hIndex := (List.mem_zipIdx hMem).2.1
    simp only [List.take_append_of_le_length (show k ≤ l.length by omega)]
  rw [eachAfter, List.zipIdx_append, List.filterMap_append, hFront]
  cases hSaid : said l a <;> simp [hSaid]

/-- A walk that says of each element what there is to say after those before it. -/
theorem IsSequential.eq_eachAfter {σ α β : Type} {walk : σ → List α → List β} {next : σ → α → σ}
    (h : IsSequential walk next) {said : List α → α → Option β} {s : σ}
    (hSaid : ∀ before a, walk (before.foldl next s) [a] = (said before a).toList) (l : List α) :
    walk s l = eachAfter said l := by
  induction l using List.reverseRecOn with
  | nil => exact h.nil s
  | append_singleton l a ih => rw [h.append, ih, hSaid, eachAfter_concat]

namespace LicenseLists

/-- The license of an entry as it is written in issues; none if the entry cannot be read. -/
def Entry.written (e : Entry) : Option String :=
  match Requirement.parse e.license.value with
  | .ok license => some license.render
  | .error _ => none

theorem Entry.written_of_ok {e : Entry} {license : Requirement} (h : Requirement.parse e.license.value = .ok license) :
    e.written = some license.render := by
  rw [written, h]

theorem Entry.written_of_error {e : Entry} {fault : Fault} (h : Requirement.parse e.license.value = .error fault) :
    e.written = none := by
  rw [written, h]

def remember (seen : Seen) (e : Entry) : Seen :=
  match e.written with
  | some name => if (seen.lookup name).isSome then seen else (name, e.list) :: seen
  | none => seen

theorem isSequential_walk (m : Model) : IsSequential (walk m) remember where
  nil := fun _ => rfl
  cons := by
    intro seen e es
    cases hParse : Requirement.parse e.license.value with
    | error fault => simp [walk, remember, Entry.written, hParse]
    | ok license =>
      cases hLookup : seen.lookup license.render <;> simp [walk, remember, Entry.written, hParse, hLookup]

/-- The list that has a license first, be it among those met before or among the entries to come. -/
def firstList (seen : Seen) (es : List Entry) (name : String) : Option ListName :=
  (seen.lookup name).or ((es.find? fun e => e.written = some name).map Entry.list)

theorem firstList_remember (seen : Seen) (e : Entry) (es : List Entry) (name : String) :
    firstList (remember seen e) es name = firstList seen (e :: es) name := by
  rw [firstList, firstList, remember, List.find?_cons]
  cases hWritten : e.written with
  | none => simp
  | some written =>
    by_cases hName : written = name
    · subst hName
      cases hLookup : seen.lookup written <;> simp [hLookup]
    · have hOther : (some written = some name) = False := by simp [hName]
      have hLookup : ((written, e.list) :: seen).lookup name = seen.lookup name := by
        rw [List.lookup_cons, beq_eq_false_iff_ne.mpr (Ne.symm hName)]
      simp only [hOther, decide_false]
      split
      · rfl
      · rw [hLookup]

theorem lookup_remember (before : List Entry) (name : String) :
    (before.foldl remember []).lookup name = (before.find? fun e => e.written = some name).map Entry.list := by
  have hFirst : ∀ seen : Seen, firstList (before.foldl remember seen) [] name = firstList seen before name := by
    induction before with
    | nil => exact fun _ => rfl
    | cons e before ih =>
      intro seen
      rw [List.foldl_cons, ih, firstList_remember]
  have hNone := hFirst []
  rwa [firstList, firstList, List.find?_nil, Option.map_none, Option.or_none, List.lookup_nil, Option.none_or] at hNone

/-- What an issue of the license lists is about. -/
inductive Origin (m : Model) (first : String → Option ListName) : Issue → Prop
  | invalid (e : Entry) (fault : Fault) (hFault : Requirement.parse e.license.value = .error fault) :
      Origin m first (invalid m e fault)
  | duplicate (e : Entry) (license : Requirement) (list : ListName) (hFirst : first license.render = some list) :
      Origin m first (duplicate m e license list)

/-- The walk names the first list of a license however far it has come. -/
theorem origin_of_mem_walk {m : Model} {seen : Seen} {es : List Entry} {i : Issue} (h : i ∈ walk m seen es) :
    Origin m (firstList seen es) i := by
  induction es generalizing seen with
  | nil => cases h
  | cons e es ih =>
    rw [(isSequential_walk m).cons, List.mem_append] at h
    rcases h with h | h
    · rw [walk] at h
      split at h
      · rename_i fault hFault
        rw [List.mem_singleton.mp h]
        exact .invalid e fault hFault
      · rename_i license hLicense
        split at h
        · rename_i first hFirst
          rw [List.mem_singleton.mp h]
          exact .duplicate e license first (by rw [firstList, hFirst, Option.some_or])
        · cases h
    · have hFirst : firstList seen (e :: es) = firstList (remember seen e) es :=
        funext fun name => (firstList_remember seen e es name).symm
      rw [hFirst]
      exact ih h

end LicenseLists

namespace Exceptions

def remember (seen : List PackageKey) (e : Exception × Nat) : List PackageKey :=
  match packageName e.1.name with
  | none => seen
  | some name => Named.key ⟨e.2, name, e.1⟩ :: seen

theorem isSequential_walk (m : Model) : IsSequential (walk m) remember where
  nil := fun _ => rfl
  cons := by
    rintro seen ⟨e, index⟩ es
    cases hName : packageName e.name <;> simp [walk, remember, hName]

theorem walk_unnamed {m : Model} {seen : List PackageKey} {e : Exception} {index : Nat}
    (h : packageName e.name = none) : walk m seen [(e, index)] =
      [.missingName (label index) (label index) "Add `name = \"<crate>\"` to the exception."
        (m.lineOf (anchor e))] := by
  simp only [walk, h]

theorem walk_named {m : Model} {seen : List PackageKey} {e : Exception} {index : Nat} {name : String}
    (h : packageName e.name = some name) : walk m seen [(e, index)] =
      Named.issues m (seen.contains (Named.key ⟨index, name, e⟩)) ⟨index, name, e⟩ := by
  simp only [walk, h, List.append_nil]

end Exceptions

namespace SkipEntries

def remember (seen : Seen) (e : Entry) : Seen :=
  match packageName e.name with
  | none => seen
  | some name => (e.list, PackageKey.of name e.trimmed) :: seen

theorem isSequential_walk (m : Model) : IsSequential (walk m) remember where
  nil := fun _ => rfl
  cons := by
    intro seen e es
    cases hName : packageName e.name <;> simp [walk, remember, hName]

theorem walk_unnamed {m : Model} {seen : Seen} {e : Entry} (h : packageName e.name = none) :
    walk m seen [e] = [.missingName e.label e.label "Add `name = \"<crate>\"` to the entry."
      (m.lineOf e.anchor)] := by
  simp only [walk, h]

theorem walk_named {m : Model} {seen : Seen} {e : Entry} {name : String} (h : packageName e.name = some name) :
    walk m seen [e] = e.invalidVersion m name ++
      if seen.contains (e.list, PackageKey.of name e.trimmed) then [e.duplicate m name] else [] := by
  simp only [walk, h, List.append_nil]

end SkipEntries

end PolicyLint.Lint
