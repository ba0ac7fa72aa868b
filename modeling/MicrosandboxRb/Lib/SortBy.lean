import Mathlib.Data.List.Perm.Basic
import Mathlib.Order.Lattice

/-!
# Sorting by a key

A list sorted by a key. When no two elements share a key, the sorted list does not depend on the
order of the list that was sorted.

## Main results

* `List.pairwise_lt_sortBy`: the keys increase strictly when they are distinct;
* `List.sortBy_eq_of_perm`: two orders of the same elements are sorted to the same list;
* `List.forall₂_sortBy`: lists that are related element by element are sorted to such lists.
-/

namespace List

variable {α κ : Type} [LinearOrder κ] {key : α → κ} {xs ys : List α}

/-- The elements in the order of their keys. -/
def sortBy (key : α → κ) (xs : List α) : List α := xs.mergeSort fun a b => decide (key a ≤ key b)

/-- Sorting keeps the elements. -/
theorem sortBy_perm (key : α → κ) (xs : List α) : (xs.sortBy key).Perm xs :=
  List.mergeSort_perm xs _

/-- An element is in the sorted list if it was in the list. -/
theorem mem_sortBy {x : α} : x ∈ xs.sortBy key ↔ x ∈ xs := (sortBy_perm key xs).mem_iff

/-- The keys do not fall. -/
theorem pairwise_sortBy (key : α → κ) (xs : List α) :
    (xs.sortBy key).Pairwise fun a b => key a ≤ key b := by
  have htrans : ∀ a b c, decide (key a ≤ key b) = true → decide (key b ≤ key c) = true →
      decide (key a ≤ key c) = true := by
    intro a b c hab hbc
    rw [decide_eq_true_eq] at hab hbc ⊢
    exact le_trans hab hbc
  have htotal : ∀ a b, (decide (key a ≤ key b) || decide (key b ≤ key a)) = true := by
    intro a b
    rw [Bool.or_eq_true, decide_eq_true_eq, decide_eq_true_eq]
    exact le_total _ _
  exact (List.pairwise_mergeSort htrans htotal xs).imp fun h => of_decide_eq_true h

/-- The keys are distinct in any order. -/
theorem nodup_map_sortBy : ((xs.sortBy key).map key).Nodup ↔ (xs.map key).Nodup :=
  ((sortBy_perm key xs).map key).nodup_iff

/-- Distinct keys rise. -/
theorem pairwise_lt_sortBy (h : (xs.map key).Nodup) :
    (xs.sortBy key).Pairwise fun a b => key a < key b := by
  have hne : (xs.sortBy key).Pairwise fun a b => key a ≠ key b :=
    List.pairwise_map.mp (nodup_map_sortBy.mpr h)
  exact (hne.and (pairwise_sortBy key xs)).imp fun hab => lt_of_le_of_ne hab.2 hab.1

/-- Images are sorted as what they are images of. -/
theorem sortBy_map {β : Type} {f : β → α} {key' : β → κ} (h : ∀ b, key (f b) = key' b)
    (xs : List β) : (xs.map f).sortBy key = (xs.sortBy key').map f := by
  rw [sortBy, sortBy, List.map_mergeSort]
  intro a _ b _
  rw [h, h]

/-- Lists that are related element by element, with the same keys, are sorted to lists that are. -/
theorem forall₂_sortBy {β : Type} {r : α → β → Prop} {key' : β → κ} {ys : List β}
    (h : Forall₂ r xs ys) (hkey : ∀ a b, r a b → key a = key' b) :
    Forall₂ r (xs.sortBy key) (ys.sortBy key') := by
  obtain ⟨hlength, hr⟩ := forall₂_iff_zip.mp h
  -- both are projections of the list of pairs, sorted by the common key
  have hkeys : ∀ p ∈ xs.zip ys, key p.1 = key' p.2 := fun p hp => hkey _ _ (hr hp)
  have hfst : xs.sortBy key = ((xs.zip ys).sortBy fun p => key p.1).map Prod.fst := by
    rw [← sortBy_map (fun _ => rfl), map_fst_zip hlength.le]
  have hsnd : ys.sortBy key' = ((xs.zip ys).sortBy fun p => key p.1).map Prod.snd := by
    rw [sortBy, sortBy, map_mergeSort, map_snd_zip hlength.ge]
    intro p hp q hq
    rw [hkeys p hp, hkeys q hq]
  rw [hfst, hsnd]
  refine forall₂_map_left_iff.mpr (forall₂_map_right_iff.mpr (forall₂_same.mpr ?_))
  exact fun p hp => hr (mem_sortBy.mp hp)

/-- With distinct keys, the order before the sorting does not matter. -/
theorem sortBy_eq_of_perm (h : (xs.map key).Nodup) (hperm : xs.Perm ys) :
    xs.sortBy key = ys.sortBy key := by
  have h' : (ys.map key).Nodup := (hperm.map key).nodup_iff.mp h
  have hsorted : (xs.sortBy key).Perm (ys.sortBy key) :=
    (sortBy_perm key xs).trans (hperm.trans (sortBy_perm key ys).symm)
  refine hsorted.eq_of_pairwise ?_ (pairwise_lt_sortBy h) (pairwise_lt_sortBy h')
  intro a b _ _ hab hba
  exact absurd hba (lt_asymm hab)

end List
