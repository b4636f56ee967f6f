import Mathlib.Data.Option.NAry

/-!
# Truth values of SQL

A condition over nullable columns is true, false or NULL.  A WHERE clause keeps
a row when the condition is true; a CHECK constraint refuses a row when the
condition is false.
-/

namespace JobApplyAgent.Library

/-- `none` is NULL. -/
abbrev SqlBool := Option Bool

namespace SqlBool

def and : SqlBool → SqlBool → SqlBool
  | some false, _ => some false
  | _, some false => some false
  | some true, some true => some true
  | _, _ => none

def or : SqlBool → SqlBool → SqlBool
  | some true, _ => some true
  | _, some true => some true
  | some false, some false => some false
  | _, _ => none

/-- The conjunction of a list of conditions. -/
def all (conditions : List SqlBool) : SqlBool :=
  conditions.foldr and (some true)

def compare {α β : Type*} (relation : α → β → Bool) (left : Option α) (right : Option β) :
    SqlBool :=
  Option.map₂ relation left right

def eq {α : Type*} [DecidableEq α] (left right : Option α) : SqlBool :=
  compare (fun x y => decide (x = y)) left right

def ne {α : Type*} [DecidableEq α] (left right : Option α) : SqlBool :=
  compare (fun x y => decide (x ≠ y)) left right

def isIn {α : Type*} [DecidableEq α] (values : List α) (column : Option α) : SqlBool :=
  column.map fun value => decide (value ∈ values)

def isNull {α : Type*} (column : Option α) : SqlBool :=
  some column.isNone

def isNotNull {α : Type*} (column : Option α) : SqlBool :=
  some column.isSome

/-- A WHERE clause keeps the row. -/
def Keeps (condition : SqlBool) : Prop :=
  condition = some true

instance (condition : SqlBool) : Decidable condition.Keeps :=
  inferInstanceAs (Decidable (condition = some true))

/-- A CHECK constraint admits the row. -/
def Accepts (condition : SqlBool) : Prop :=
  condition ≠ some false

instance (condition : SqlBool) : Decidable condition.Accepts :=
  inferInstanceAs (Decidable (condition ≠ some false))

section Lemmas

variable {α β : Type*} {p : SqlBool}

@[simp]
theorem and_keeps : (p.and q).Keeps ↔ p.Keeps ∧ q.Keeps := by
  rcases p with _ | _ | _ <;> rcases q with _ | _ | _ <;> simp [and, Keeps]

@[simp]
theorem and_accepts : (p.and q).Accepts ↔ p.Accepts ∧ q.Accepts := by
  rcases p with _ | _ | _ <;> rcases q with _ | _ | _ <;> simp [and, Accepts]

@[simp]
theorem or_accepts : (p.or q).Accepts ↔ p.Accepts ∨ q.Accepts := by
  rcases p with _ | _ | _ <;> rcases q with _ | _ | _ <;> simp [or, Accepts]

@[simp]
theorem all_keeps : (all conditions).Keeps ↔ ∀ condition ∈ conditions, condition.Keeps := by
  induction conditions with
  | nil => simp [all, Keeps]
  | cons condition conditions ih =>
    rw [List.forall_mem_cons, ← ih, ← and_keeps]
    rfl

@[simp]
theorem all_accepts :
    (all conditions).Accepts ↔ ∀ condition ∈ conditions, condition.Accepts := by
  induction conditions with
  | nil => simp [all, Accepts]
  | cons condition conditions ih =>
    rw [List.forall_mem_cons, ← ih, ← and_accepts]
    rfl

variable {left : Option α} {x : α}

variable {values : List α}

@[simp]
theorem compare_keeps {right : Option β} :
    (compare relation left right).Keeps ↔
      ∃ x y, left = some x ∧ right = some y ∧ relation x y = true := by
  cases left <;> cases right <;> simp [compare, Keeps]

@[simp]
theorem compare_accepts_some :
    (compare relation (some x) (some y)).Accepts ↔ relation x y = true := by
  simp [compare, Accepts]

@[simp]
theorem isNotNull_keeps :
    (isNotNull column).Keeps ↔ column.isSome = true := by
  simp [isNotNull, Keeps]

@[simp]
theorem isNotNull_accepts :
    (isNotNull column).Accepts ↔ ∃ value, column = some value := by
  cases column <;> simp [isNotNull, Accepts]

variable [DecidableEq α]

@[simp]
theorem eq_accepts_some : (eq (some x) (some y)).Accepts ↔ x = y := by
  simp [eq]

@[simp]
theorem isIn_accepts_some {value : α} :
    (isIn values (some value)).Accepts ↔ value ∈ values := by
  simp [isIn, Accepts]

@[simp]
theorem eq_keeps :
    (eq left right).Keeps ↔ ∃ x, left = some x ∧ right = some x := by
  simp [eq]

@[simp]
theorem isIn_keeps :
    (isIn values column).Keeps ↔ ∃ value ∈ values, column = some value := by
  cases column <;> simp [isIn, Keeps]

@[simp]
theorem eq_some_keeps :
    (eq (some x) right).Keeps ↔ right = some x := by
  simp

@[simp]
theorem eq_keeps_some :
    (eq left (some x)).Keeps ↔ left = some x := by
  simp

@[simp]
theorem ne_accepts_self : ¬(ne (some x) (some x)).Accepts := by
  simp [ne, compare, Accepts]

end Lemmas

end SqlBool

end JobApplyAgent.Library
