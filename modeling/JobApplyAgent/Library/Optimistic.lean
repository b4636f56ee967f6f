import Mathlib.Algebra.Order.Ring.Int
import Mathlib.Data.List.Basic

/-!
# Key-value stores with optimistic transactions

Every write of a key raises the version of the key.  A transaction watches some keys,
reads them one by one, and is carried out only if no watched key was touched since: what
it learned about these keys on the way is then still true of them.
-/

namespace JobApplyAgent.Library

universe u v

variable {κ : Type u} {ν : Type v}

/-- A value with the instant from which on the store forgets it. -/
structure KeyEntry (ν : Type v) where
  value : ν
  expiresAt : Option ℕ

def KeyEntry.live (entry : KeyEntry ν) (now : ℕ) : Bool :=
  entry.expiresAt.all fun expiry => now < expiry

theorem KeyEntry.live_earlier {entry : KeyEntry ν} (hle : now ≤ later)
    (hlive : entry.live later = true) : entry.live now = true := by
  unfold live at hlive ⊢
  cases hexpiry : entry.expiresAt with
  | none => rfl
  | some expiry =>
    simp only [hexpiry, Option.all_some, decide_eq_true_eq] at hlive ⊢
    omega

structure Keyspace (κ : Type u) (ν : Type v) where
  entry : κ → Option (KeyEntry ν)
  version : κ → ℕ

namespace Keyspace

def empty : Keyspace κ ν where
  entry := fun _ => none
  version := fun _ => 0

def get (store : Keyspace κ ν) (now : ℕ) (key : κ) : Option ν :=
  ((store.entry key).filter fun entry => entry.live now).map KeyEntry.value

variable {store : Keyspace κ ν} {value : ν}

theorem get_eq_some :
    store.get now key = some value ↔
      ∃ entry, store.entry key = some entry ∧ entry.live now = true ∧ entry.value = value := by
  unfold get
  cases store.entry key with
  | none => simp
  | some entry =>
    by_cases hlive : entry.live now = true
    · simp [Option.filter, hlive]
    · simp [Option.filter, hlive]

/-- What is there later was there before, as long as nobody writes. -/
theorem get_earlier (hle : now ≤ later) (hget : store.get later key = some value) :
    store.get now key = some value := by
  obtain ⟨entry, hentry, hlive, hvalue⟩ := get_eq_some.mp hget
  exact get_eq_some.mpr ⟨entry, hentry, KeyEntry.live_earlier hle hlive, hvalue⟩

theorem get_none_later (hle : now ≤ later) (hget : store.get now key = none) :
    store.get later key = none := by
  cases hlater : store.get later key with
  | none => rfl
  | some value => simp [get_earlier hle hlater] at hget

/-- An entry without an expiry is read at any instant. -/
theorem get_of_lasting (hentry : store.entry key = some ⟨value, none⟩) (now : ℕ) :
    store.get now key = some value :=
  get_eq_some.mpr ⟨⟨value, none⟩, hentry, rfl, rfl⟩

/-- A key that reads as absent has no entry, or one that has expired. -/
theorem expired_of_get_eq_none (hget : store.get now key = none) {entry : KeyEntry ν}
    (hentry : store.entry key = some entry) (hexpiry : entry.expiresAt = some expiry) :
    expiry ≤ now := by
  by_contra hlater
  have hlive : entry.live now = true := by
    simp only [KeyEntry.live, hexpiry, Option.all_some, decide_eq_true_eq]
    omega
  have hsome := get_eq_some.mpr ⟨entry, hentry, hlive, rfl⟩
  rw [hget] at hsome
  cases hsome

variable [DecidableEq κ]

/-- One write: the new entry, or its absence, under the next version. -/
def put (store : Keyspace κ ν) (key : κ) (entry : Option (KeyEntry ν)) : Keyspace κ ν where
  entry := Function.update store.entry key entry
  version := Function.update store.version key (store.version key + 1)

def set (store : Keyspace κ ν) (key : κ) (value : ν) (expiresAt : Option ℕ) : Keyspace κ ν :=
  store.put key (some ⟨value, expiresAt⟩)

/-- Deleting a key that is not there touches nothing. -/
def delete (store : Keyspace κ ν) (key : κ) : Keyspace κ ν :=
  if (store.entry key).isSome then store.put key none else store

/-- The count under the key, from zero where there is none, keeping its expiry. -/
def increment (store : Keyspace κ ℤ) (now : ℕ) (key : κ) : Keyspace κ ℤ :=
  store.put key (some
    ⟨(store.get now key).getD 0 + 1,
      ((store.entry key).filter fun entry => entry.live now).bind KeyEntry.expiresAt⟩)

@[simp]
theorem put_entry_self (store : Keyspace κ ν) (key : κ) (entry : Option (KeyEntry ν)) :
    (store.put key entry).entry key = entry := by
  simp [put]

@[simp]
theorem put_version_self (store : Keyspace κ ν) (key : κ) (entry : Option (KeyEntry ν)) :
    (store.put key entry).version key = store.version key + 1 := by
  simp [put]

theorem put_entry_of_ne (store : Keyspace κ ν) (entry : Option (KeyEntry ν)) (hne : other ≠ key) :
    (store.put key entry).entry other = store.entry other := by
  simp [put, hne]

theorem put_version_of_ne (store : Keyspace κ ν) (entry : Option (KeyEntry ν)) (hne : other ≠ key) :
    (store.put key entry).version other = store.version other := by
  simp [put, hne]

theorem get_put_of_ne (store : Keyspace κ ν) (now : ℕ) (entry : Option (KeyEntry ν))
    (hne : other ≠ key) :
    (store.put key entry).get now other = store.get now other := by
  unfold get
  rw [put_entry_of_ne store entry hne]

theorem delete_entry_of_ne (store : Keyspace κ ν) (hne : other ≠ key) :
    (store.delete key).entry other = store.entry other := by
  unfold delete
  split
  · exact put_entry_of_ne store none hne
  · rfl

/-- A count that never expires goes up by one for good. -/
theorem increment_entry {store : Keyspace κ ℤ} (now : ℕ)
    (hlasting : ∀ entry, store.entry key = some entry → entry.expiresAt = none) :
    (store.increment now key).entry key = some ⟨(store.get now key).getD 0 + 1, none⟩ := by
  unfold increment
  rw [put_entry_self]
  cases hentry : store.entry key with
  | none => rfl
  | some entry =>
    have hlive : entry.live now = true := by simp [KeyEntry.live, hlasting entry hentry]
    simp [Option.filter, hlive, hlasting entry hentry]

end Keyspace

/-- What two states of one store have in common: a key of unchanged version has an
unchanged entry. -/
structure Since (older newer : Keyspace κ ν) : Prop where
  version_le : ∀ key, older.version key ≤ newer.version key
  entry_eq : ∀ key, newer.version key = older.version key → newer.entry key = older.entry key

namespace Since

theorem refl (store : Keyspace κ ν) : Since store store where
  version_le := fun _ => le_rfl
  entry_eq := fun _ _ => rfl

theorem trans (hfirst : Since first second) (hsecond : Since second third) : Since first third := by
  constructor
  · intro key
    exact (hfirst.version_le key).trans (hsecond.version_le key)
  · intro key hsame
    have hle := hfirst.version_le key
    have hle' := hsecond.version_le key
    rw [hsecond.entry_eq key (by omega), hfirst.entry_eq key (by omega)]

theorem get_eq (hsince : Since older newer)
    (hsame : newer.version key = older.version key) (now : ℕ) :
    newer.get now key = older.get now key := by
  unfold Keyspace.get
  rw [hsince.entry_eq key hsame]

/-- A key untouched since the first state was untouched in between. -/
theorem untouched (hfirst : Since first second) (hsecond : Since second third)
    (hsame : third.version key = first.version key) :
    second.version key = first.version key := by
  have hle := hfirst.version_le key
  have hle' := hsecond.version_le key
  omega

variable [DecidableEq κ]

theorem put (store : Keyspace κ ν) (key : κ) (entry : Option (KeyEntry ν)) :
    Since store (store.put key entry) := by
  constructor
  · intro other
    by_cases hsame : other = key
    · subst hsame
      simp
    · rw [Keyspace.put_version_of_ne store entry hsame]
  · intro other hversion
    by_cases hsame : other = key
    · subst hsame
      simp at hversion
    · exact Keyspace.put_entry_of_ne store entry hsame

theorem delete (store : Keyspace κ ν) (key : κ) : Since store (store.delete key) := by
  unfold Keyspace.delete
  split
  · exact put store key none
  · exact refl store

end Since

/-- The watched keys, and the store as it was when they were watched. -/
structure Watch (κ : Type u) (ν : Type v) where
  keys : List κ
  taken : Keyspace κ ν
  takenAt : ℕ

namespace Watch

/-- No watched key was written since, and none that was there has expired. -/
def intact (watch : Watch κ ν) (store : Keyspace κ ν) (now : ℕ) : Bool :=
  watch.keys.all fun key =>
    store.version key == watch.taken.version key &&
      ((watch.taken.get watch.takenAt key).isNone || (store.get now key).isSome)

/-- The key was not written since it was watched. -/
def Untouched (watch : Watch κ ν) (store : Keyspace κ ν) (key : κ) : Prop :=
  store.version key = watch.taken.version key

variable {watch : Watch κ ν} {store : Keyspace κ ν}

theorem untouched_of_intact (hintact : watch.intact store now = true)
    (hkey : key ∈ watch.keys) :
    watch.Untouched store key := by
  have hall := List.all_eq_true.mp hintact key hkey
  rw [Bool.and_eq_true, beq_iff_eq] at hall
  exact hall.1

theorem Untouched.earlier (htaken : Since watch.taken store)
    (hsince : Since store later) (hlater : watch.Untouched later key) : watch.Untouched store key :=
  htaken.untouched hsince hlater

end Watch

end JobApplyAgent.Library
