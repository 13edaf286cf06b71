import Mathlib

/-!
# The sample of a rank

The sample of rank `r`, counted from one, is the one at that place when the
samples are sorted. `nearestRank_le_iff` says it without sorting: it is at most
`v` exactly when at least `r` samples are. A histogram only knows such counts.
-/
namespace Nucleo

variable {α : Type} [LinearOrder α]

def nearestRank (xs : List α) (rank : Nat) : Option α := (xs.mergeSort (· ≤ ·))[rank - 1]?

theorem sorted_mergeSort (xs : List α) : (xs.mergeSort (· ≤ ·)).Pairwise (· ≤ ·) := by
  have h := @List.pairwise_mergeSort α (fun a b : α => decide (a ≤ b))
    (fun a b c hab hbc => decide_eq_true (le_trans (of_decide_eq_true hab) (of_decide_eq_true hbc)))
    (fun a b => by simpa using le_total a b) xs
  exact h.imp fun hab => of_decide_eq_true hab

/-- In a sorted list, those up to an entry are at most it and those from it on
at least it. -/
theorem sorted_le_iff {l : List α} (hl : l.Pairwise (· ≤ ·)) {i : Nat} {a v : α} (ha : l[i]? = some a) :
    a ≤ v ↔ i < l.countP (· ≤ v) := by
  induction l generalizing i with
  | nil => simp at ha
  | cons b l ih =>
    obtain ⟨hb, hl⟩ := List.pairwise_cons.1 hl
    cases i with
    | zero =>
      obtain rfl : b = a := by simpa using ha
      constructor
      · intro h
        simp [h]
      · intro h
        by_contra hv
        have hnone : (b :: l).countP (· ≤ v) = 0 := by
          refine List.countP_eq_zero.2 fun c hc => ?_
          rcases List.mem_cons.1 hc with rfl | hc
          · simpa using hv
          · simpa using lt_of_lt_of_le (not_le.1 hv) (hb c hc)
        omega
    | succ i =>
      have ha : l[i]? = some a := by simpa using ha
      rw [ih hl ha, List.countP_cons]
      by_cases hbv : b ≤ v
      · simp [hbv]
      · have hnone : l.countP (· ≤ v) = 0 := by
          refine List.countP_eq_zero.2 fun c hc => ?_
          simpa using lt_of_lt_of_le (not_le.1 hbv) (hb c hc)
        simp [hbv, hnone]

/-- **The sample of a rank, by counting.** -/
theorem nearestRank_le_iff {xs : List α} {rank : Nat} (hrank : 0 < rank) {a v : α}
    (h : nearestRank xs rank = some a) : a ≤ v ↔ rank ≤ xs.countP (· ≤ v) := by
  rw [sorted_le_iff (sorted_mergeSort xs) h, (List.mergeSort_perm xs _).countP_eq]
  omega

theorem nearestRank_mem {xs : List α} {rank : Nat} {a : α} (h : nearestRank xs rank = some a) : a ∈ xs := by
  have hmem := List.mem_of_getElem? h
  simpa using hmem

/-- Every rank up to their number has a sample. -/
theorem nearestRank_some {xs : List α} {rank : Nat} (h0 : 0 < rank) (h : rank ≤ xs.length) :
    ∃ a, nearestRank xs rank = some a := by
  refine ⟨_, List.getElem?_eq_getElem ?_⟩
  rw [List.length_mergeSort]
  omega

end Nucleo
