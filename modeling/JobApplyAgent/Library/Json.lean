import Mathlib.Data.List.Basic

/-!
# JSON values

The values that a JSON text stands for, over any kind of numbers, with readers for the shapes
that records are written in.  A reader undoes the writer beside it.  The last part is
about the objects that a text spells with a name twice.
-/

namespace JobApplyAgent.Library

inductive Json (Number : Type) where
  | null
  | bool (value : Bool)
  | number (value : Number)
  | text (value : String)
  | array (items : List (Json Number))
  | object (members : List (String × Json Number))

namespace Json

variable {Number α : Type}

/-! ## Writers -/

def optional (write : α → Json Number) : Option α → Json Number
  | none => null
  | some value => write value

def list (write : α → Json Number) (values : List α) : Json Number :=
  array (values.map write)

/-! ## Readers -/

def text? : Json Number → Option String
  | text value => some value
  | _ => none

def bool? : Json Number → Option Bool
  | bool value => some value
  | _ => none

def number? : Json Number → Option Number
  | number value => some value
  | _ => none

def list? (read : Json Number → Option α) : Json Number → Option (List α)
  | array items => items.mapM read
  | _ => none

def optional? (read : Json Number → Option α) : Json Number → Option (Option α)
  | null => some none
  | json => (read json).map some

/-- The value under a name. -/
def member? (name : String) : Json Number → Option (Json Number)
  | object members => members.lookup name
  | _ => none

/-- An object without any other names. -/
def hasOnly (names : List String) : Json Number → Bool
  | object members => members.all fun entry => names.contains entry.1
  | _ => false

/-- The value under a name, a default where the name is missing. -/
def memberOr (name : String) (read : Json Number → Option α) (missing : Option α)
    (json : Json Number) : Option α :=
  match json.member? name with
  | some value => read value
  | none => missing

variable {read : Json Number → Option α} {write : α → Json Number}

theorem list?_list_of_mem (hread : ∀ value ∈ values, read (write value) = some value) :
    list? read (list write values) = some values := by
  change (values.map write).mapM read = some values
  induction values with
  | nil => rfl
  | cons value values ih =>
    rw [List.map_cons, List.mapM_cons, hread value List.mem_cons_self,
      ih fun later hlater => hread later (List.mem_cons_of_mem _ hlater)]
    rfl

theorem list?_list (hread : ∀ value, read (write value) = some value) (values : List α) :
    list? read (list write values) = some values :=
  list?_list_of_mem fun value _ => hread value

theorem list?_texts (values : List String) :
    list? text? (list text values : Json Number) = some values := by
  have hread : ∀ value, text? (text value : Json Number) = some value := fun _ => rfl
  exact list?_list hread values

/-- What is written for a value that may be missing is read back, where no value is written
as null. -/
theorem optional?_optional {value : Option α}
    (hread : ∀ found, value = some found → read (write found) = some found)
    (hnull : read null = none) : optional? read (optional write value) = some value := by
  cases value with
  | none => rfl
  | some found =>
    have hfound := hread found rfl
    simp only [optional]
    cases hwritten : write found <;> rw [hwritten] at hfound
    · rw [hnull] at hfound
      cases hfound
    all_goals simp only [optional?, hfound, Option.map_some]

end Json

/-! ## Enumerations -/

/-- The member of an enumeration that is spelled like this. -/
def ofToken {α : Type} (token : α → String) (members : List α) (spelled : String) : Option α :=
  members.find? fun member => token member == spelled

theorem ofToken_token {α : Type} [DecidableEq α] {token : α → String} {members : List α}
    (hdistinct : (members.map token).Nodup) {member : α} (hmember : member ∈ members) :
    ofToken token members (token member) = some member := by
  induction members with
  | nil => cases hmember
  | cons first rest ih =>
    rw [List.map_cons, List.nodup_cons] at hdistinct
    rw [ofToken, List.find?_cons]
    by_cases hsame : first = member
    · subst hsame
      simp
    · have hother : (token first == token member) = false := by
        have hrest : member ∈ rest := (List.mem_cons.mp hmember).resolve_left (Ne.symm hsame)
        rw [beq_eq_false_iff_ne]
        intro htoken
        exact hdistinct.1 (htoken ▸ List.mem_map_of_mem hrest)
      rw [hother]
      exact ih hdistinct.2 ((List.mem_cons.mp hmember).resolve_left (Ne.symm hsame))

/-! ## Names that are spelled twice -/

namespace Json

variable {Number : Type}

mutual

/-- A strict decoder takes the text: no object has a name twice and the numbers are proper. -/
def isStrict (proper : Number → Bool) : Json Number → Bool
  | null => true
  | bool _ => true
  | number value => proper value
  | text _ => true
  | array items => areStrict proper items
  | object members => decide (members.map Prod.fst).Nodup && membersStrict proper members

def areStrict (proper : Number → Bool) : List (Json Number) → Bool
  | [] => true
  | item :: items => isStrict proper item && areStrict proper items

def membersStrict (proper : Number → Bool) : List (String × Json Number) → Bool
  | [] => true
  | (_, value) :: members => isStrict proper value && membersStrict proper members

end

mutual

/-- What a lax decoder makes of the text: the last value of a name stands. -/
def keepLast : Json Number → Json Number
  | null => null
  | bool value => bool value
  | number value => number value
  | text value => text value
  | array items => array (keepLastItems items)
  | object members => object (keepLastMembers members)

def keepLastItems : List (Json Number) → List (Json Number)
  | [] => []
  | item :: items => keepLast item :: keepLastItems items

def keepLastMembers : List (String × Json Number) → List (String × Json Number)
  | [] => []
  | (name, value) :: members =>
    if name ∈ members.map Prod.fst then keepLastMembers members
    else (name, keepLast value) :: keepLastMembers members

end

theorem areStrict_iff :
    areStrict proper items = true ↔ ∀ item ∈ items, isStrict proper item = true := by
  induction items with
  | nil => simp [areStrict]
  | cons item items ih => simp [areStrict, ih]

variable {α : Type} {write : α → Json Number}

theorem isStrict_list (hwrite : ∀ value ∈ values, isStrict proper (write value) = true) :
    isStrict proper (list write values) = true := by
  rw [list, isStrict, areStrict_iff]
  intro item hitem
  obtain ⟨value, hvalue, rfl⟩ := List.mem_map.mp hitem
  exact hwrite value hvalue

theorem isStrict_texts (values : List String) : isStrict proper (list text values) = true :=
  isStrict_list fun _ _ => rfl

theorem isStrict_optional {value : Option α}
    (hwrite : ∀ found, value = some found → isStrict proper (write found) = true) :
    isStrict proper (optional write value) = true := by
  cases value with
  | none => rfl
  | some found => exact hwrite found rfl

mutual

/-- A lax decoder changes nothing that a strict one takes. -/
theorem keepLast_of_isStrict : ∀ json : Json Number, isStrict proper json = true →
    keepLast json = json
  | null, _ | bool _, _ | number _, _ | text _, _ => rfl
  | array items, hstrict => by
      rw [keepLast, keepLastItems_of_areStrict items hstrict]
  | object members, hstrict => by
      rw [isStrict, Bool.and_eq_true, decide_eq_true_eq] at hstrict
      rw [keepLast, keepLastMembers_of_membersStrict members hstrict.1 hstrict.2]

theorem keepLastItems_of_areStrict : ∀ items : List (Json Number),
    areStrict proper items = true → keepLastItems items = items
  | [], _ => rfl
  | item :: items, hstrict => by
      rw [areStrict, Bool.and_eq_true] at hstrict
      rw [keepLastItems, keepLast_of_isStrict item hstrict.1,
        keepLastItems_of_areStrict items hstrict.2]

theorem keepLastMembers_of_membersStrict : ∀ members : List (String × Json Number),
    (members.map Prod.fst).Nodup → membersStrict proper members = true →
      keepLastMembers members = members
  | [], _, _ => rfl
  | (name, value) :: members, hdistinct, hstrict => by
      rw [membersStrict, Bool.and_eq_true] at hstrict
      rw [List.map_cons, List.nodup_cons] at hdistinct
      rw [keepLastMembers, if_neg hdistinct.1, keepLast_of_isStrict value hstrict.1,
        keepLastMembers_of_membersStrict members hdistinct.2 hstrict.2]

end

end Json

end JobApplyAgent.Library
