import PolicyLint.Proofs.Json.Paths
import PolicyLint.Report.Check
import PolicyLint.Report.Normal
import PolicyLint.Report.Writer

/-!
# Normal forms do not show the clock

Normalizing a value writes fixed values at four places, where something stands there, and leaves the rest alone.
In a report these are the places that the clock decides, so two runs on the same input have one normal form.
-/
namespace PolicyLint.Report
open Json Lint Settings Policy Time
set_option autoImplicit false

/-- The places that are written over, and what is put there. -/
def pinned : List (List String × Value) :=
  [(["tool", "version"], .string "__VERSION__"), (["run", "started_at"], .string "__TIMESTAMP__"),
    (["run", "finished_at"], .string "__TIMESTAMP__"), (["run", "duration_ms"], .ofNat 0)]

/-- Puts values at places, one after the other. -/
def pin (places : List (List String × Value)) (v : Value) : Value :=
  places.foldl (fun v place => Value.put place.1 place.2 v) v

theorem normalTool_eq_put (v : Value) : normalTool v = Value.put ["version"] (.string "__VERSION__") v := by
  cases v <;> rfl

theorem normalRun_eq_puts (v : Value) : normalRun v = Value.put ["duration_ms"] (.ofNat 0)
    (Value.put ["finished_at"] (.string "__TIMESTAMP__")
      (Value.put ["started_at"] (.string "__TIMESTAMP__") v)) := by
  cases v <;> rfl

theorem normalize_eq_pin (v : Value) : normalize v = pin pinned v := by
  cases v with
  | object ms =>
    have hTool := funext normalTool_eq_put
    have hRun := funext normalRun_eq_puts
    simp only [normalize, onMembers, hTool, hRun, pin, pinned, List.foldl_cons, List.foldl_nil, Value.put,
      Members.modify_modify]
  | null | boolean _ | number _ | string _ | array _ => rfl

section
variable {places : List (List String × Value)} {v : Value} {path : Path}

/-- No place is inside another one. -/
def AllApart (places : List (List String × Value)) : Prop :=
  places.Pairwise fun place other => Value.Apart place.1 other.1

theorem pinned_allApart : AllApart pinned := by
  unfold AllApart pinned Value.Apart
  decide

theorem head_at?_pin (h : ∀ place ∈ places, ¬ Value.memberPath place.1 <+: path) :
    ((pin places v).at? path).map Value.head = (v.at? path).map Value.head := by
  induction places generalizing v with
  | nil => rfl
  | cons place places ih =>
    rw [List.forall_mem_cons] at h
    calc
      _ = ((Value.put place.1 place.2 v).at? path).map Value.head := ih h.2
      _ = _ := Value.head_at?_put h.1

theorem at?_pin_of_apart {keys : List String} (h : ∀ place ∈ places, Value.Apart place.1 keys) :
    (pin places v).at? (Value.memberPath keys) = v.at? (Value.memberPath keys) := by
  induction places generalizing v with
  | nil => rfl
  | cons place places ih =>
    rw [List.forall_mem_cons] at h
    calc
      _ = (Value.put place.1 place.2 v).at? (Value.memberPath keys) := ih h.2
      _ = _ := Value.at?_put_of_apart h.1

theorem at?_pin_of_mem (hApart : AllApart places) {place : List String × Value} (hMem : place ∈ places) :
    (pin places v).at? (Value.memberPath place.1) =
      (v.at? (Value.memberPath place.1)).map fun _ => place.2 := by
  induction places generalizing v with
  | nil => cases hMem
  | cons first places ih =>
    obtain ⟨hFirst, hRest⟩ := List.pairwise_cons.mp hApart
    rcases List.mem_cons.mp hMem with rfl | hMem
    · calc
        _ = (Value.put place.1 place.2 v).at? (Value.memberPath place.1) :=
          at?_pin_of_apart fun other hOther => (hFirst other hOther).symm
        _ = _ := Value.at?_put_self
    · calc
        _ = ((Value.put first.1 first.2 v).at? (Value.memberPath place.1)).map fun _ => place.2 := ih hRest hMem
        _ = _ := by rw [Value.at?_put_of_apart (hFirst place hMem)]

theorem pin_put_comm {keys : List String} (new : Value) (h : ∀ place ∈ places, Value.Apart place.1 keys) :
    pin places (Value.put keys new v) = Value.put keys new (pin places v) := by
  induction places generalizing v with
  | nil => rfl
  | cons place places ih =>
    rw [List.forall_mem_cons] at h
    calc
      _ = pin places (Value.put keys new (Value.put place.1 place.2 v)) := congrArg (pin places) (Value.put_comm h.1)
      _ = _ := ih h.2

theorem pin_pin (hApart : AllApart places) : pin places (pin places v) = pin places v := by
  induction places generalizing v with
  | nil => rfl
  | cons place places ih =>
    obtain ⟨hFirst, hRest⟩ := List.pairwise_cons.mp hApart
    have hComm (w : Value) : pin places (Value.put place.1 place.2 w) = Value.put place.1 place.2 (pin places w) :=
      pin_put_comm place.2 fun other hOther => (hFirst other hOther).symm
    calc
      _ = pin places (Value.put place.1 place.2 (pin places (Value.put place.1 place.2 v))) := rfl
      _ = Value.put place.1 place.2 (Value.put place.1 place.2 (pin places (pin places v))) := by
        rw [hComm, hComm, hComm]
      _ = pin places (Value.put place.1 place.2 v) := by rw [Value.put_put_self, ih hRest, hComm]

theorem pin_canonical (h : ∀ place ∈ places, place.2.canonical = place.2) :
    pin places v.canonical = (pin places v).canonical := by
  induction places generalizing v with
  | nil => rfl
  | cons place places ih =>
    rw [List.forall_mem_cons] at h
    calc
      _ = pin places (Value.put place.1 place.2 v).canonical := congrArg (pin places) (Value.put_canonical h.1)
      _ = _ := ih h.2

end

/-- Normalizing touches nothing but the four pinned values, each of which it replaces if it is there. -/
structure PinsOnly (v w : Value) : Prop where
  elsewhere : ∀ path, (∀ place ∈ pinned, ¬ Value.memberPath place.1 <+: path) →
    (w.at? path).map Value.head = (v.at? path).map Value.head
  there : ∀ place ∈ pinned,
    w.at? (Value.memberPath place.1) = (v.at? (Value.memberPath place.1)).map fun _ => place.2

theorem pinsOnly_normalize (v : Value) : PinsOnly v (normalize v) := by
  rw [normalize_eq_pin]
  exact ⟨fun _ h => head_at?_pin h, fun _ h => at?_pin_of_mem pinned_allApart h⟩

theorem normalize_normalize (v : Value) : normalize (normalize v) = normalize v := by
  rw [normalize_eq_pin, normalize_eq_pin, pin_pin pinned_allApart]

theorem normalize_canonical (v : Value) : normalize v.canonical = (normalize v).canonical := by
  rw [normalize_eq_pin, normalize_eq_pin]
  apply pin_canonical
  simp only [pinned, List.forall_mem_cons]
  exact ⟨rfl, rfl, rfl, rfl, List.forall_mem_nil _⟩

theorem triples_normalize (v : Value) : triples (normalize v) = triples v := by
  have hFindings : (normalize v).get? "findings" = v.get? "findings" := by
    cases v with
    | object ms =>
      exact (Members.find?_modify_of_ne (by decide)).trans (Members.find?_modify_of_ne (by decide))
    | null | boolean _ | number _ | string _ | array _ => rfl
  rw [triples, hFindings, triples]

theorem normalize_toJson (r : Report) (run : RunTimes) :
    normalize { r with run := run }.toJson = normalize r.toJson := by
  simp [normalize, normalRun, onMembers, overwrite, Members.modify, Report.toJson, RunTimes.toJson]

theorem ofLoaded_eq (started finished started' finished' : Stamp) (path : FilePath) (plan : Plan)
    (loaded : Except LoadError Model) : ∃ run, ofLoaded started' finished' path plan loaded =
      { ofLoaded started finished path plan loaded with run := run } := by
  cases loaded with
  | ok model => exact ⟨_, rfl⟩
  | error error => exact ⟨_, rfl⟩

/-- Whatever the clock says, the reports on the same input have the same normal form, also when they are read back.
Normalizing is idempotent, pins four values, and leaves the findings alone. -/
theorem normalForms_hideClock :
    (∀ (started finished started' finished' : Stamp) (path : FilePath) (policy settings : String)
      (overrides : Overrides),
      (check started finished path policy settings overrides).map (fun r => normalize r.toJson) =
        (check started' finished' path policy settings overrides).map (fun r => normalize r.toJson) ∧
      (check started finished path policy settings overrides).map (fun r => normalize r.toJson.canonical) =
        (check started' finished' path policy settings overrides).map fun r => normalize r.toJson.canonical) ∧
    ∀ v, normalize (normalize v) = normalize v ∧ PinsOnly v (normalize v) ∧ triples (normalize v) = triples v := by
  refine ⟨?_, fun v => ⟨normalize_normalize v, pinsOnly_normalize v, triples_normalize v⟩⟩
  intro started finished started' finished' path policy settings overrides
  simp only [normalize_canonical]
  rw [check, check]
  cases planOf settings overrides with
  | error fault => exact ⟨rfl, rfl⟩
  | ok plan =>
    obtain ⟨run, hRun⟩ := ofLoaded_eq started finished started' finished' path plan (Model.ofSource path policy)
    have hSame := normalize_toJson (ofLoaded started finished path plan (Model.ofSource path policy)) run
    simp only [Except.map, hRun, hSame, and_self]

end PolicyLint.Report
