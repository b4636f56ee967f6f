import Mathlib.Data.List.Nodup
import Mathlib.Data.List.Infix

/-!
# Bounded deduplication

The index of values seen during a session: for each digest the instant at which it was
added, the digest touched last at the end.  It forgets what is older than its time limit and,
beyond its capacity, what was touched least recently.
-/

namespace JobApplyAgent.Bridge

/-- The options of a deduper, both at least one. -/
structure Limits where
  capacity : ℕ
  ttl : ℤ
  capacity_pos : 0 < capacity
  ttl_pos : 0 < ttl

/-- `DEFAULT_MAX_ENTRIES` and `DEFAULT_TTL_MS`, with which the bridge creates its deduper. -/
def defaultLimits : Limits where
  capacity := 10000
  ttl := 24 * 60 * 60 * 1000
  capacity_pos := by decide
  ttl_pos := by decide

/-- A map from digests to instants, in the order of insertion. -/
structure SeenIndex (Digest : Type) where
  entries : List (Digest × ℤ)
  distinct : (entries.map Prod.fst).Nodup

namespace SeenIndex

variable {Digest : Type} [DecidableEq Digest] (limits : Limits)

def empty : SeenIndex Digest where
  entries := []
  distinct := List.nodup_nil

/-- Leave out some of the entries. -/
def restrict (index : SeenIndex Digest) (kept : List (Digest × ℤ))
    (hkept : kept.Sublist index.entries) : SeenIndex Digest where
  entries := kept
  distinct := index.distinct.sublist (hkept.map Prod.fst)

def delete (index : SeenIndex Digest) (key : Digest) : SeenIndex Digest :=
  index.restrict (index.entries.filter fun entry => decide (entry.1 ≠ key)) List.filter_sublist

theorem key_not_mem_delete (index : SeenIndex Digest) (key : Digest) :
    key ∉ (index.delete key).entries.map Prod.fst := by
  rw [List.mem_map]
  rintro ⟨entry, hentry, rfl⟩
  have hne := (List.mem_filter.mp hentry).2
  simp at hne

/-- `entries.delete(key)` and then `entries.set(key, seenAt)`. -/
def touch (index : SeenIndex Digest) (key : Digest) (seenAt : ℤ) : SeenIndex Digest where
  entries := (index.delete key).entries ++ [(key, seenAt)]
  distinct := by
    rw [List.map_append, List.map_singleton]
    refine List.Nodup.append (index.delete key).distinct (List.nodup_singleton key) ?_
    rw [List.disjoint_singleton]
    exact index.key_not_mem_delete key

def get (index : SeenIndex Digest) (key : Digest) : Option ℤ :=
  (index.entries.find? fun entry => decide (entry.1 = key)).map Prod.snd

/-- The entries that are not too old. -/
def fresh (index : SeenIndex Digest) (currentTime : ℤ) : List (Digest × ℤ) :=
  index.entries.filter fun entry => decide (currentTime - entry.2 < limits.ttl)

def prune (index : SeenIndex Digest) (currentTime : ℤ) : SeenIndex Digest :=
  index.restrict
    ((index.fresh limits currentTime).drop
      ((index.fresh limits currentTime).length - limits.capacity))
    ((List.drop_sublist _ _).trans List.filter_sublist)

/-- `has`, on the digest of a value: whether it was seen, and the index afterwards. -/
def has (index : SeenIndex Digest) (currentTime : ℤ) (key : Digest) :
    Bool × SeenIndex Digest :=
  match (index.prune limits currentTime).get key with
  | none => (false, index.prune limits currentTime)
  | some seenAt => (true, (index.prune limits currentTime).touch key seenAt)

def add (index : SeenIndex Digest) (currentTime : ℤ) (key : Digest) : SeenIndex Digest :=
  ((index.prune limits currentTime).touch key currentTime).prune limits currentTime

def keys (index : SeenIndex Digest) : List Digest :=
  index.entries.map Prod.fst

/-! ## What is retained -/

variable {limits} {index : SeenIndex Digest}

theorem get_eq_none_iff : index.get key = none ↔ key ∉ index.keys := by
  rw [get, Option.map_eq_none_iff, List.find?_eq_none, keys, List.mem_map]
  constructor
  · rintro hnone ⟨entry, hentry, rfl⟩
    exact hnone entry hentry (by simp)
  · intro hnone entry hentry hkey
    exact hnone ⟨entry, hentry, by simpa using hkey⟩

omit [DecidableEq Digest] in
theorem prune_sublist : (index.prune limits currentTime).entries.Sublist index.entries :=
  (List.drop_sublist _ _).trans List.filter_sublist

omit [DecidableEq Digest] in
theorem mem_keys_of_mem_prune (hkey : key ∈ (index.prune limits currentTime).keys) :
    key ∈ index.keys :=
  (prune_sublist.map Prod.fst).subset hkey

theorem mem_keys_touch :
    other ∈ (index.touch key seenAt).keys ↔ other = key ∨ other ∈ index.keys := by
  have hdelete : other ∈ (index.delete key).entries.map Prod.fst ↔
      other ≠ key ∧ other ∈ index.keys := by
    rw [keys, List.mem_map, List.mem_map]
    constructor
    · rintro ⟨entry, hentry, rfl⟩
      obtain ⟨hmem, hne⟩ := List.mem_filter.mp hentry
      exact ⟨by simpa using hne, entry, hmem, rfl⟩
    · rintro ⟨hne, entry, hentry, rfl⟩
      exact ⟨entry, List.mem_filter.mpr ⟨hentry, by simpa using hne⟩, rfl⟩
  rw [keys, touch, List.map_append, List.mem_append, hdelete, List.map_singleton,
    List.mem_singleton]
  by_cases hsame : other = key
  · simp [hsame]
  · simp [hsame]

/-- A value is seen exactly while its entry is retained. -/
theorem has_iff_mem_keys : (index.has limits currentTime key).1 = true ↔
    key ∈ (index.prune limits currentTime).keys := by
  rw [has]
  cases hget : (index.prune limits currentTime).get key with
  | none => simpa using get_eq_none_iff.mp hget
  | some seenAt =>
    have hmem : key ∈ (index.prune limits currentTime).keys := by
      by_contra hnot
      rw [get_eq_none_iff.mpr hnot] at hget
      cases hget
    simpa using hmem

/-- Looking a value up adds nothing. -/
theorem mem_keys_of_mem_has (hother : other ∈ (index.has limits currentTime key).2.keys) :
    other ∈ index.keys := by
  rw [has] at hother
  cases hget : (index.prune limits currentTime).get key with
  | none =>
    rw [hget] at hother
    exact mem_keys_of_mem_prune hother
  | some seenAt =>
    rw [hget] at hother
    rcases mem_keys_touch.mp hother with rfl | hkept
    · have hmem : other ∈ (index.prune limits currentTime).keys := by
        by_contra hnot
        rw [get_eq_none_iff.mpr hnot] at hget
        cases hget
      exact mem_keys_of_mem_prune hmem
    · exact mem_keys_of_mem_prune hkept

theorem mem_keys_of_mem_add (hother : other ∈ (index.add limits currentTime key).keys) :
    other = key ∨ other ∈ index.keys :=
  (mem_keys_touch.mp (mem_keys_of_mem_prune hother)).imp id mem_keys_of_mem_prune

end SeenIndex

end JobApplyAgent.Bridge
