import PolicyLint.License.Expr

/-!
# Regrouping chains

Two trees that differ only in how chains of one operator are grouped say the same and are written alike.
Among them one has all its chains grouped to the left.
-/
namespace PolicyLint.License.Expr
set_option autoImplicit false

/-- The second tree comes from the first by moving groups of a chain to the left. -/
inductive Regroups : Expr → Expr → Prop
  | refl (e : Expr) : Regroups e e
  | trans {a b c : Expr} (first : Regroups a b) (second : Regroups b c) : Regroups a c
  | and {a a' b b' : Expr} (left : Regroups a a') (right : Regroups b b') : Regroups (and a b) (and a' b')
  | or {a a' b b' : Expr} (left : Regroups a a') (right : Regroups b b') : Regroups (or a b) (or a' b')
  | andLeft (a b c : Expr) : Regroups (and a (and b c)) (and (and a b) c)
  | orLeft (a b c : Expr) : Regroups (or a (or b c)) (or (or a b) c)

/-- No chain has a group of the same operator on the right. -/
inductive IsLeft : Expr → Prop
  | license (r : Requirement) : IsLeft (license r)
  | and {a b : Expr} (left : IsLeft a) (right : IsLeft b) (h : ∀ c d, b ≠ .and c d) : IsLeft (and a b)
  | or {a b : Expr} (left : IsLeft a) (right : IsLeft b) (h : ∀ c d, b ≠ .or c d) : IsLeft (or a b)

/-- A conjunction to whose left end the chain of the right operand is moved. -/
def joinAnd (a : Expr) : Expr → Expr
  | and b c => and (joinAnd a b) c
  | b => and a b

/-- As `joinAnd`, for disjunctions. -/
def joinOr (a : Expr) : Expr → Expr
  | or b c => or (joinOr a b) c
  | b => or a b

/-- The tree with all chains grouped to the left. -/
def leftAssoc : Expr → Expr
  | license r => license r
  | and a b => joinAnd a.leftAssoc b.leftAssoc
  | or a b => joinOr a.leftAssoc b.leftAssoc

theorem joinAnd_assoc (a b c : Expr) : joinAnd a (joinAnd b c) = joinAnd (joinAnd a b) c := by
  induction c with
  | and c d ih _ => simp [joinAnd, ih]
  | license r => simp [joinAnd]
  | or c d _ _ => simp [joinAnd]

theorem joinOr_assoc (a b c : Expr) : joinOr a (joinOr b c) = joinOr (joinOr a b) c := by
  induction c with
  | or c d ih _ => simp [joinOr, ih]
  | license r => simp [joinOr]
  | and c d _ _ => simp [joinOr]

theorem regroups_joinAnd (a b : Expr) : Regroups (and a b) (joinAnd a b) := by
  induction b with
  | and b c ih _ => exact (Regroups.andLeft a b c).trans (.and ih (.refl c))
  | license r => exact .refl _
  | or b c _ _ => exact .refl _

theorem regroups_joinOr (a b : Expr) : Regroups (or a b) (joinOr a b) := by
  induction b with
  | or b c ih _ => exact (Regroups.orLeft a b c).trans (.or ih (.refl c))
  | license r => exact .refl _
  | and b c _ _ => exact .refl _

theorem regroups_leftAssoc (e : Expr) : Regroups e e.leftAssoc := by
  induction e with
  | license r => exact .refl _
  | and a b iha ihb => exact (Regroups.and iha ihb).trans (regroups_joinAnd _ _)
  | or a b iha ihb => exact (Regroups.or iha ihb).trans (regroups_joinOr _ _)

theorem IsLeft.joinAnd {a b : Expr} (ha : IsLeft a) (hb : IsLeft b) : IsLeft (joinAnd a b) := by
  induction hb with
  | license r => exact .and ha (.license r) (by simp)
  | and _ hRight h ih _ => exact .and ih hRight h
  | or hLeft hRight h _ _ => exact .and ha (.or hLeft hRight h) (by simp)

theorem IsLeft.joinOr {a b : Expr} (ha : IsLeft a) (hb : IsLeft b) : IsLeft (joinOr a b) := by
  induction hb with
  | license r => exact .or ha (.license r) (by simp)
  | or _ hRight h ih _ => exact .or ih hRight h
  | and hLeft hRight h _ _ => exact .or ha (.and hLeft hRight h) (by simp)

theorem isLeft_leftAssoc (e : Expr) : e.leftAssoc.IsLeft := by
  induction e with
  | license r => exact .license r
  | and a b iha ihb => exact iha.joinAnd ihb
  | or a b iha ihb => exact iha.joinOr ihb

/-- The text of an operand of a conjunction. -/
def operandText (e : Expr) : String := render.operand e e.render

theorem Regroups.render_eq {e e' : Expr} (h : Regroups e e') :
    e'.render = e.render ∧ e'.operandText = e.operandText := by
  induction h with
  | refl e => exact ⟨rfl, rfl⟩
  | trans _ _ ih ih' => exact ⟨ih'.1.trans ih.1, ih'.2.trans ih.2⟩
  | @and a a' b b' _ _ iha ihb =>
    have h : (Expr.and a' b').render = (Expr.and a b).render := by
      change a'.operandText ++ " AND " ++ b'.operandText = a.operandText ++ " AND " ++ b.operandText
      rw [iha.2, ihb.2]
    exact ⟨h, h⟩
  | @or a a' b b' _ _ iha ihb =>
    have h : (Expr.or a' b').render = (Expr.or a b).render := by simp [render, iha.1, ihb.1]
    exact ⟨h, by simp [operandText, render.operand, h]⟩
  | andLeft a b c =>
    have h : (Expr.and (Expr.and a b) c).render = (Expr.and a (Expr.and b c)).render := by
      simp [render, render.operand, String.append_assoc]
    exact ⟨h, h⟩
  | orLeft a b c =>
    have h : (Expr.or (Expr.or a b) c).render = (Expr.or a (Expr.or b c)).render := by
      simp [render, String.append_assoc]
    exact ⟨h, by simp [operandText, render.operand, h]⟩

theorem Regroups.requirements_eq {e e' : Expr} (h : Regroups e e') : e'.requirements = e.requirements := by
  induction h with
  | refl e => rfl
  | trans _ _ ih ih' => exact ih'.trans ih
  | and _ _ iha ihb | or _ _ iha ihb => simp [requirements, iha, ihb]
  | andLeft a b c | orLeft a b c => simp [requirements]

theorem Regroups.eval_eq {e e' : Expr} (h : Regroups e e') (met : Requirement → Bool) :
    e'.eval met = e.eval met := by
  induction h with
  | refl e => rfl
  | trans _ _ ih ih' => exact ih'.trans ih
  | and _ _ iha ihb | or _ _ iha ihb => simp [eval, iha, ihb]
  | andLeft a b c => simp [eval, Bool.and_assoc]
  | orLeft a b c => simp [eval, Bool.or_assoc]

end PolicyLint.License.Expr
