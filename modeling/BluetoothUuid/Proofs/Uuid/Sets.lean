import Mathlib.Data.List.Sort
import BluetoothUuid.Proofs.Uuid.Order

/-! Sets of UUIDs of one kind, as the increasing list of what was put in. It is the only one: an
increasing list is known by what is in it, so that neither order nor repetition on the way in leaves a
trace. Printed line by line, such a list is in the order of its texts. -/
namespace BluetoothUuid.Uuid
variable {k : Kind} {u v w : Uuid k} {us vs set : List (Uuid k)}

instance : Std.Irrefl fun u v : Uuid k => u < v := ⟨lt_irrefl⟩

instance : Std.Antisymm fun u v : Uuid k => u < v :=
  ⟨fun u _ first second => absurd (lt_trans first second) (lt_irrefl u)⟩

/-- Only the order is asked where a UUID goes, and whether it is there. -/
theorem insertSorted_cons (u v : Uuid k) (vs : List (Uuid k)) :
    insertSorted u (v :: vs) =
      if u < v then u :: v :: vs
      else if v < u then v :: insertSorted u vs
      else v :: vs := by
  rw [insertSorted]
  cases order : compare u v with
  | lt => exact (if_pos order).symm
  | eq =>
    obtain rfl := compare_eq_eq_iff.mp order
    rw [if_neg (lt_irrefl u), if_neg (lt_irrefl u)]
  | gt =>
    have greater := compare_eq_gt_iff.mp order
    have notLess : ¬ u < v := fun less => lt_irrefl u (lt_trans less greater)
    rw [if_neg notLess, if_pos greater]

theorem mem_insertSorted : w ∈ insertSorted u vs ↔ w = u ∨ w ∈ vs := by
  induction vs with
  | nil => simp [insertSorted]
  | cons v vs ih =>
    rw [insertSorted_cons]
    split
    · exact List.mem_cons
    · next notLess =>
      split
      · rw [List.mem_cons, List.mem_cons, ih]
        exact or_left_comm
      · next notGreater =>
        obtain rfl := eq_of_not_lt notLess notGreater
        simp

/-- One more UUID leaves a list increasing. -/
theorem increasing_insertSorted (increasing : vs.Pairwise (· < ·)) (u : Uuid k) :
    (insertSorted u vs).Pairwise (· < ·) := by
  induction vs with
  | nil => simp [insertSorted]
  | cons v vs ih =>
    obtain ⟨least, rest⟩ := List.pairwise_cons.mp increasing
    rw [insertSorted_cons]
    split
    · next less =>
      refine List.pairwise_cons.mpr ⟨?_, increasing⟩
      intro w member
      rcases List.mem_cons.mp member with rfl | later
      · exact less
      · exact lt_trans less (least w later)
    · split
      · next greater =>
        refine List.pairwise_cons.mpr ⟨?_, ih rest⟩
        intro w member
        rcases mem_insertSorted.mp member with rfl | later
        · exact greater
        · exact least w later
      · exact increasing

theorem mem_sortUnique : u ∈ sortUnique us ↔ u ∈ us := by
  induction us with
  | nil => exact Iff.rfl
  | cons v us ih =>
    rw [sortUnique, List.foldr_cons, mem_insertSorted, List.mem_cons]
    exact or_congr_right ih

theorem increasing_sortUnique (us : List (Uuid k)) : (sortUnique us).Pairwise (· < ·) := by
  induction us with
  | nil => exact .nil
  | cons v us ih => exact increasing_insertSorted ih v

/-- The list is what an ordered set of the UUIDs holds: some of them, in increasing order, among them
for each one that is neither less nor greater. -/
structure Collects (us set : List (Uuid k)) : Prop where
  increasing : set.Pairwise (· < ·)
  taken : ∀ u ∈ set, u ∈ us
  kept : ∀ u ∈ us, ∃ v ∈ set, ¬ u < v ∧ ¬ v < u

theorem Collects.mem_iff (collects : Collects us set) : u ∈ set ↔ u ∈ us := by
  constructor
  · exact collects.taken u
  · intro member
    obtain ⟨v, within, notLess, notGreater⟩ := collects.kept u member
    rwa [eq_of_not_lt notLess notGreater]

theorem collects_sortUnique (us : List (Uuid k)) : Collects us (sortUnique us) where
  increasing := increasing_sortUnique us
  taken _ member := mem_sortUnique.mp member
  kept u member := ⟨u, mem_sortUnique.mpr member, lt_irrefl u, lt_irrefl u⟩

theorem sortUnique_eq_iff : sortUnique us = sortUnique vs ↔ ∀ u, u ∈ us ↔ u ∈ vs := by
  constructor
  · intro same u
    rw [← mem_sortUnique, same, mem_sortUnique]
  · intro same
    apply (increasing_sortUnique us).eq_of_mem_iff (increasing_sortUnique vs)
    intro u
    rw [mem_sortUnique, mem_sortUnique, same]

theorem collects_iff : Collects us set ↔ set = sortUnique us := by
  constructor
  · intro collects
    apply collects.increasing.eq_of_mem_iff (increasing_sortUnique us)
    intro u
    rw [collects.mem_iff, mem_sortUnique]
  · rintro rfl
    exact collects_sortUnique us

/-- A set may be filled from either end of the list. -/
theorem foldl_insertSorted (us : List (Uuid k)) :
    us.foldl (fun set u => insertSorted u set) [] = sortUnique us := by
  rw [← List.foldr_reverse]
  apply sortUnique_eq_iff.mpr
  intro u
  exact List.mem_reverse

/-- The increasing list of the UUIDs of a list, each once, is the only form of their set. What is in it
is what was put in, no two are equal, and their texts are in the same order as they are. -/
theorem sortUnique_canonical (k : Kind) :
    (∀ us set : List (Uuid k), Collects us set ↔ set = sortUnique us) ∧
    (∀ us : List (Uuid k),
      us.foldl (fun set u => insertSorted u set) [] = sortUnique us ∧
      (sortUnique us).Pairwise (· < ·) ∧
      (∀ u, u ∈ sortUnique us ↔ ∃ v ∈ us, compare v u = .eq) ∧
      (sortUnique us).Pairwise (fun u v => ¬ compare u v = .eq) ∧
      ((sortUnique us).map (text .canonical)).Pairwise (· < ·)) ∧
    ∀ us vs : List (Uuid k), sortUnique us = sortUnique vs ↔ ∀ u, u ∈ us ↔ u ∈ vs := by
  refine ⟨fun _ _ => collects_iff, ?_, fun _ _ => sortUnique_eq_iff⟩
  intro us
  have increasing := increasing_sortUnique us
  refine ⟨foldl_insertSorted us, increasing, ?_, ?_, ?_⟩
  · intro u
    simp only [mem_sortUnique, compare_eq_eq_iff, exists_eq_right]
  · refine increasing.imp ?_
    intro u v less same
    rw [lt_iff_compare, same] at less
    contradiction
  · rw [List.pairwise_map]
    refine increasing.imp ?_
    intro u v less
    exact (lt_iff_text_lt .canonical).mp less

end BluetoothUuid.Uuid
