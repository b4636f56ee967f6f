import JobApplyAgent.Library.Slots
import Mathlib.Data.List.Nodup

/-!
# Keys in hand

Each activity takes keys into its hand before it stores them, and takes only keys that are
neither stored nor in another hand.  Then no key is ever stored twice.
-/

namespace JobApplyAgent.Library

universe u v

variable {κ : Type u} {σ : Type v}

/-- The stored keys and the keys in hand are all different. -/
structure Exclusive (stored : List κ) (hands : ℕ → Option (List κ)) : Prop where
  nodup : stored.Nodup
  own : ∀ index hand, hands index = some hand → hand.Nodup ∧ ∀ key ∈ hand, key ∉ stored
  apart : ∀ index place hand other, index ≠ place → hands index = some hand →
    hands place = some other → ∀ key ∈ hand, key ∉ other

namespace Exclusive

variable {hands : ℕ → Option (List κ)}

theorem nil (hhands : ∀ index, hands index = none) : Exclusive ([] : List κ) hands where
  nodup := List.nodup_nil
  own := fun index hand hhand => by
    rw [hhands index] at hhand
    cases hhand
  apart := fun index place hand other _ hhand => by
    rw [hhands index] at hhand
    cases hhand

/-- A key that an activity may take. -/
def Free (stored : List κ) (hands : ℕ → Option (List κ)) (index : ℕ) (key : κ) : Prop :=
  key ∉ stored ∧ ∀ place other, place ≠ index → hands place = some other → key ∉ other

/-- An activity stores some keys and keeps others, from its hand or free ones. -/
theorem step (hexclusive : Exclusive stored hands) (hhand : hands index = some hand)
    (hafter : after index = some kept)
    (hothers : ∀ place, place ≠ index → after place = hands place) (hnodup : (moved ++ kept).Nodup)
    (hfrom : ∀ key ∈ moved ++ kept, key ∈ hand ∨ Free stored hands index key) :
    Exclusive (stored ++ moved) after := by
  have hunstored : ∀ key ∈ moved ++ kept, key ∉ stored := by
    intro key hkey
    rcases hfrom key hkey with hown | hfree
    · exact (hexclusive.own index hand hhand).2 key hown
    · exact hfree.1
  have hunheld : ∀ key ∈ moved ++ kept, ∀ place other, place ≠ index →
      hands place = some other → key ∉ other := by
    intro key hkey place other hplace hother
    rcases hfrom key hkey with hown | hfree
    · exact hexclusive.apart index place hand other (Ne.symm hplace) hhand hother key hown
    · exact hfree.2 place other hplace hother
  have hparts := List.nodup_append.mp hnodup
  refine ⟨?_, fun place other hother => ?_, fun first second left right hne hleft hright => ?_⟩
  · refine List.nodup_append.mpr ⟨hexclusive.nodup, hparts.1, fun key hold other hnew => ?_⟩
    rintro rfl
    exact hunstored key (List.mem_append_left _ hnew) hold
  · by_cases hplace : place = index
    · subst hplace
      rw [hafter] at hother
      cases hother
      refine ⟨hparts.2.1, fun key hkey hstored => ?_⟩
      rcases List.mem_append.mp hstored with hold | hnew
      · exact hunstored key (List.mem_append_right _ hkey) hold
      · exact hparts.2.2 key hnew key hkey rfl
    · rw [hothers place hplace] at hother
      have hown := hexclusive.own place other hother
      refine ⟨hown.1, fun key hkey hstored => ?_⟩
      rcases List.mem_append.mp hstored with hold | hnew
      · exact hown.2 key hkey hold
      · exact hunheld key (List.mem_append_left _ hnew) place other hplace hother hkey
  · intro key hkey hin
    by_cases hfirst : first = index
    · subst hfirst
      rw [hafter] at hleft
      cases hleft
      rw [hothers second (Ne.symm hne)] at hright
      exact hunheld key (List.mem_append_right _ hkey) second right (Ne.symm hne) hright hin
    · rw [hothers first hfirst] at hleft
      by_cases hsecond : second = index
      · subst hsecond
        rw [hafter] at hright
        cases hright
        exact hunheld key (List.mem_append_right _ hin) first left hfirst hleft hkey
      · rw [hothers second hsecond] at hright
        exact hexclusive.apart first second left right hne hleft hright key hkey hin

/-- An activity stores the keys in its hand and ends, or ends without storing them. -/
theorem finish (hexclusive : Exclusive stored hands) (hhand : hands index = some hand)
    (hafter : after index = none) (hothers : ∀ place, place ≠ index → after place = hands place)
    (hnodup : moved.Nodup) (hfrom : ∀ key ∈ moved, key ∈ hand) :
    Exclusive (stored ++ moved) after := by
  have hemptied : Exclusive (stored ++ moved)
      (fun place => if place = index then some [] else hands place) := by
    refine hexclusive.step hhand (if_pos rfl) (fun place hplace => if_neg hplace) ?_ ?_
    · rw [List.append_nil]
      exact hnodup
    · intro key hkey
      rw [List.append_nil] at hkey
      exact .inl (hfrom key hkey)
  have hsome : ∀ place other, after place = some other →
      (if place = index then some [] else hands place) = some other := by
    intro place other hother
    have hplace : place ≠ index := by
      rintro rfl
      rw [hafter] at hother
      cases hother
    rw [if_neg hplace, ← hothers place hplace]
    exact hother
  refine ⟨hemptied.nodup, fun place other hother => hemptied.own place other (hsome _ _ hother),
    fun first second left right hne hleft hright => ?_⟩
  exact hemptied.apart first second left right hne (hsome _ _ hleft) (hsome _ _ hright)

/-- A new activity has nothing in hand. -/
theorem add (hexclusive : Exclusive stored hands)
    (hafter : ∀ place other, after place = some other → other = [] ∨ hands place = some other) :
    Exclusive stored after := by
  refine ⟨hexclusive.nodup, fun place other hother => ?_, ?_⟩
  · rcases hafter place other hother with rfl | hold
    · exact ⟨List.nodup_nil, fun key hkey => absurd hkey List.not_mem_nil⟩
    · exact hexclusive.own place other hold
  · intro first second left right hne hleft hright key hkey hin
    rcases hafter first left hleft with rfl | holdLeft
    · cases hkey
    · rcases hafter second right hright with rfl | holdRight
      · cases hin
      · exact hexclusive.apart first second left right hne holdLeft holdRight key hkey hin

end Exclusive

/-! ## Hands of running activities -/

namespace Slots

/-- The keys in the hands of running activities. -/
def hands (slots : Slots σ) (hand : σ → List κ) (index : ℕ) : Option (List κ) :=
  (slots.entry index).map hand

variable {slots : Slots σ} {hand : σ → List κ}

theorem hands_put_of_ne (activity : Option σ) (hne : place ≠ index) :
    (slots.put index activity).hands hand place = slots.hands hand place := by
  unfold hands
  rw [entry_put_of_ne slots activity hne]

theorem hands_put_self (hold : slots.entry index = some old) (activity : Option σ) :
    (slots.put index activity).hands hand index = activity.map hand := by
  unfold hands
  rw [entry_put_self hold]

theorem hands_add (hempty : hand activity = [])
    (hother : (slots.add activity).hands hand place = some other) :
    other = [] ∨ slots.hands hand place = some other := by
  obtain ⟨found, hfound, rfl⟩ := Option.map_eq_some_iff.mp hother
  rcases entry_add hfound with ⟨hold, _⟩ | ⟨_, rfl⟩
  · unfold hands
    rw [hold]
    exact .inr rfl
  · exact .inl hempty

end Slots

/-! ## Keys by their holders -/

universe w

/-- A stored key is carried by one row, and a taken one by no row and by one activity. -/
structure Claimed {ι : Type u} {τ : Type w} (carries : ι → κ → Prop) (takes : τ → κ → Prop) :
    Prop where
  carriers : ∀ id other key, carries id key → carries other key → id = other
  untaken : ∀ taker key, takes taker key → ∀ id, ¬carries id key
  takers : ∀ taker other key, takes taker key → takes other key → taker = other

namespace Claimed

variable {ι : Type u} {τ : Type w} {carries : ι → κ → Prop}

theorem mono (hclaimed : Claimed carries takes)
    (hcarries : ∀ id key, carriesAfter id key → carries id key)
    (htakes : ∀ taker key, takesAfter taker key → takes taker key) :
    Claimed carriesAfter takesAfter where
  carriers := fun id other key hid hother =>
    hclaimed.carriers id other key (hcarries id key hid) (hcarries other key hother)
  untaken := fun taker key htaker id hid =>
    hclaimed.untaken taker key (htakes taker key htaker) id (hcarries id key hid)
  takers := fun taker other key htaker hother =>
    hclaimed.takers taker other key (htakes taker key htaker) (htakes other key hother)

/-- An activity takes a key that is neither stored nor taken. -/
theorem take (hclaimed : Claimed carries takes) (place : τ)
    (hstored : ∀ id, ¬carries id taken) (hheld : ∀ taker, ¬takes taker taken)
    (hcarries : ∀ id key, carriesAfter id key → carries id key)
    (htakes : ∀ taker key, takesAfter taker key →
      takes taker key ∨ taker = place ∧ key = taken) :
    Claimed carriesAfter takesAfter where
  carriers := fun id other key hid hother =>
    hclaimed.carriers id other key (hcarries id key hid) (hcarries other key hother)
  untaken := by
    intro taker key htaker id hid
    rcases htakes taker key htaker with hold | ⟨_, rfl⟩
    · exact hclaimed.untaken taker key hold id (hcarries id key hid)
    · exact hstored id (hcarries id key hid)
  takers := by
    intro taker other key htaker hother
    rcases htakes taker key htaker with hold | ⟨rfl, rfl⟩ <;>
      rcases htakes other key hother with holdOther | ⟨rfl, hkey⟩
    · exact hclaimed.takers taker other key hold holdOther
    · exact absurd (hkey ▸ hold) (hheld taker)
    · exact absurd holdOther (hheld other)
    · rfl

/-- A row gets a key that no other row carries and that no activity has taken, or no longer
has. -/
theorem bring (hclaimed : Claimed carries takes) (row : ι) (brought : κ)
    (hstored : ∀ id, carries id brought → id = row)
    (hheld : ∀ taker, ¬takesAfter taker brought)
    (hcarries : ∀ id key, carriesAfter id key → carries id key ∨ id = row ∧ key = brought)
    (htakes : ∀ taker key, takesAfter taker key → takes taker key) :
    Claimed carriesAfter takesAfter where
  carriers := by
    intro id other key hid hother
    rcases hcarries id key hid with hold | ⟨rfl, rfl⟩ <;>
      rcases hcarries other key hother with holdOther | ⟨rfl, hkey⟩
    · exact hclaimed.carriers id other key hold holdOther
    · exact hstored id (hkey ▸ hold)
    · exact (hstored other holdOther).symm
    · rfl
  untaken := by
    intro taker key htaker id hid
    rcases hcarries id key hid with hold | ⟨_, rfl⟩
    · exact hclaimed.untaken taker key (htakes taker key htaker) id hold
    · exact hheld taker htaker
  takers := fun taker other key htaker hother =>
    hclaimed.takers taker other key (htakes taker key htaker) (htakes other key hother)

end Claimed

end JobApplyAgent.Library
