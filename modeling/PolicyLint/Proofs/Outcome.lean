/-!
# Outcomes

When a composed reading succeeds, and when it fails.
-/
namespace PolicyLint.Outcome
set_option autoImplicit false

variable {ε α β : Type}

theorem bind_eq_ok_iff {x : Except ε α} {f : α → Except ε β} {b : β} :
    x >>= f = .ok b ↔ ∃ a, x = .ok a ∧ f a = .ok b := by
  cases x with
  | error fault => simp [bind, Except.bind]
  | ok a => simp [bind, Except.bind]

/-- As `bind_eq_ok_iff`, where only the success of the first part counts. -/
theorem seq_eq_ok_iff {x : Except ε Unit} {y : Except ε β} {b : β} :
    (x >>= fun _ => y) = .ok b ↔ x = .ok () ∧ y = .ok b := by
  rw [bind_eq_ok_iff]
  constructor
  · rintro ⟨⟨⟩, hx, hy⟩
    exact ⟨hx, hy⟩
  · rintro ⟨hx, hy⟩
    exact ⟨(), hx, hy⟩

theorem map_eq_ok_iff {x : Except ε α} {f : α → β} {b : β} :
    x.map f = .ok b ↔ ∃ a, x = .ok a ∧ f a = b := by
  cases x with
  | error fault => simp [Except.map]
  | ok a => simp [Except.map]

theorem bind_eq_error_iff {x : Except ε α} {f : α → Except ε β} {fault : ε} :
    x >>= f = .error fault ↔ x = .error fault ∨ ∃ a, x = .ok a ∧ f a = .error fault := by
  cases x with
  | error fault => simp [bind, Except.bind]
  | ok a => simp [bind, Except.bind]

theorem map_eq_error_iff {x : Except ε α} {f : α → β} {fault : ε} :
    x.map f = .error fault ↔ x = .error fault := by
  cases x with
  | error fault => simp [Except.map]
  | ok a => simp [Except.map]

theorem mapM_eq_ok_iff {f : α → Except ε β} {xs : List α} {ys : List β} :
    xs.mapM f = .ok ys ↔ xs.map f = ys.map .ok := by
  induction xs generalizing ys with
  | nil =>
    rw [List.mapM_nil]
    cases ys <;> simp [pure, Except.pure]
  | cons x xs ih =>
    rw [List.mapM_cons, bind_eq_ok_iff, List.map_cons]
    constructor
    · rintro ⟨y, hy, h⟩
      obtain ⟨rest, hRest, h⟩ := bind_eq_ok_iff.mp h
      cases h
      rw [List.map_cons, hy, ih.mp hRest]
    · intro h
      cases ys with
      | nil => cases h
      | cons y ys =>
        obtain ⟨hy, hRest⟩ := List.cons.inj h
        exact ⟨y, hy, bind_eq_ok_iff.mpr ⟨ys, ih.mpr hRest, rfl⟩⟩

theorem map_eq_map_of_mapM {γ : Type} {f : α → Except ε β} {view : α → γ} {view' : β → γ}
    (h : ∀ x y, f x = .ok y → view x = view' y) {xs : List α} {ys : List β} (hRun : xs.mapM f = .ok ys) :
    xs.map view = ys.map view' := by
  rw [mapM_eq_ok_iff] at hRun
  induction xs generalizing ys with
  | nil =>
    cases ys with
    | nil => rfl
    | cons => cases hRun
  | cons x xs ih =>
    cases ys with
    | nil => cases hRun
    | cons y ys =>
      obtain ⟨hHead, hRest⟩ := List.cons.inj hRun
      rw [List.map_cons, List.map_cons, h x y hHead, ih hRest]

theorem foldlM_preserves {P : β → Prop} {f : β → α → Except ε β} {xs : List α}
    (hStep : ∀ x ∈ xs, ∀ b b', f b x = .ok b' → P b → P b') {b b' : β} (hRun : xs.foldlM f b = .ok b')
    (h : P b) : P b' := by
  induction xs generalizing b with
  | nil =>
    cases hRun
    exact h
  | cons x xs ih =>
    rw [List.foldlM_cons] at hRun
    obtain ⟨next, hNext, hRun⟩ := bind_eq_ok_iff.mp hRun
    rw [List.forall_mem_cons] at hStep
    exact ih hStep.2 hRun (hStep.1 b next hNext h)

/-- A run on other steps from another start ends accordingly, if every step does. -/
theorem foldlM_map {γ δ : Type} {f : β → α → Except ε β} {f' : δ → γ → Except ε δ} {view : α → γ} {view' : β → δ}
    {xs : List α} (hStep : ∀ x ∈ xs, ∀ b b', f b x = .ok b' → f' (view' b) (view x) = .ok (view' b')) {b b' : β}
    (hRun : xs.foldlM f b = .ok b') : (xs.map view).foldlM f' (view' b) = .ok (view' b') := by
  induction xs generalizing b with
  | nil =>
    cases hRun
    rfl
  | cons x xs ih =>
    rw [List.foldlM_cons] at hRun
    obtain ⟨next, hNext, hRun⟩ := bind_eq_ok_iff.mp hRun
    rw [List.forall_mem_cons] at hStep
    rw [List.map_cons, List.foldlM_cons]
    exact bind_eq_ok_iff.mpr ⟨view' next, hStep.1 b next hNext, ih hStep.2 hRun⟩

/-- Both fail, or both succeed with related results. -/
inductive Agrees (R : α → β → Prop) : Except ε α → Except ε β → Prop
  | error (fault fault' : ε) : Agrees R (.error fault) (.error fault')
  | ok {a : α} {b : β} (h : R a b) : Agrees R (.ok a) (.ok b)

theorem Agrees.bind {α' β' : Type} {R : α → β → Prop} {S : α' → β' → Prop} {x : Except ε α} {y : Except ε β}
    {f : α → Except ε α'} {g : β → Except ε β'} (h : Agrees R x y)
    (hNext : ∀ a b, R a b → Agrees S (f a) (g b)) : Agrees S (x >>= f) (y >>= g) := by
  cases h with
  | error fault fault' => exact .error fault fault'
  | ok h => exact hNext _ _ h

theorem Agrees.map {α' β' : Type} {R : α → β → Prop} {S : α' → β' → Prop} {x : Except ε α} {y : Except ε β}
    {f : α → α'} {g : β → β'} (h : Agrees R x y) (hNext : ∀ a b, R a b → S (f a) (g b)) :
    Agrees S (x.map f) (y.map g) := by
  cases h with
  | error fault fault' => exact .error fault fault'
  | ok h => exact .ok (hNext _ _ h)

theorem Agrees.exists_error {R : α → β → Prop} {x : Except ε α} {y : Except ε β} (h : Agrees R x y) {fault : ε}
    (hx : x = .error fault) : ∃ fault', y = .error fault' := by
  cases h with
  | error _ fault' => exact ⟨fault', rfl⟩
  | ok _ => cases hx

/-- Both succeed with results of a kind, if related results are of that kind or neither is. -/
theorem Agrees.exists_ok_iff {R : α → β → Prop} {x : Except ε α} {y : Except ε β} {P : α → Prop} {Q : β → Prop}
    (h : Agrees R x y) (hIff : ∀ a b, R a b → (P a ↔ Q b)) :
    (∃ a, x = .ok a ∧ P a) ↔ ∃ b, y = .ok b ∧ Q b := by
  cases h with
  | error fault fault' => simp
  | ok h => simpa using hIff _ _ h

/-- `x` fails with the first of these faults, and succeeds if there is none. -/
def FailsFirst (x : Except ε α) (faults : List ε) : Prop :=
  ∀ fault, x = .error fault ↔ faults.head? = some fault

theorem failsFirst_ok (a : α) : FailsFirst (.ok a : Except ε α) [] := fun fault => by simp

theorem failsFirst_error (fault : ε) (faults : List ε) : FailsFirst (.error fault : Except ε α) (fault :: faults) :=
  fun other => by simp

theorem FailsFirst.exists_ok {x : Except ε α} (h : FailsFirst x []) : ∃ a, x = .ok a := by
  cases x with
  | error fault => cases (h fault).mp rfl
  | ok a => exact ⟨a, rfl⟩

theorem FailsFirst.eq_nil {x : Except ε α} {faults : List ε} {a : α} (h : FailsFirst x faults) (hx : x = .ok a) :
    faults = [] := by
  cases faults with
  | nil => rfl
  | cons fault faults => cases hx.symm.trans ((h fault).mpr rfl)

/-- The faults of the first part come before those of the second. -/
theorem FailsFirst.bind {x : Except ε α} {f : α → Except ε β} {faults faults' : List ε} (hx : FailsFirst x faults)
    (hf : ∀ a, x = .ok a → FailsFirst (f a) faults') : FailsFirst (x >>= f) (faults ++ faults') := by
  cases x with
  | error fault =>
    obtain ⟨rest, rfl⟩ := List.head?_eq_some_iff.mp ((hx fault).mp rfl)
    exact failsFirst_error fault _
  | ok a =>
    rw [hx.eq_nil rfl]
    exact hf a rfl

/-- A run fails with the first fault of its steps, if each step does and keeps what the next one relies on. -/
theorem FailsFirst.foldlM {P : β → Prop} {f : β → α → Except ε β} {faults : α → List ε} {xs : List α}
    (hStep : ∀ x b, P b → FailsFirst (f b x) (faults x) ∧ ∀ b', f b x = .ok b' → P b') {b : β} (h : P b) :
    FailsFirst (xs.foldlM f b) (xs.flatMap faults) := by
  induction xs generalizing b with
  | nil => exact failsFirst_ok b
  | cons x xs ih =>
    rw [List.foldlM_cons, List.flatMap_cons]
    exact (hStep x b h).1.bind fun b' hNext => ih ((hStep x b h).2 b' hNext)

end PolicyLint.Outcome
