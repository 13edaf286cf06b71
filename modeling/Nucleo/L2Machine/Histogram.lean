import Nucleo.Core.NearestRank
import Nucleo.L2Machine.Metrics

/-!
# What a histogram says of its samples

`Histogram.of xs` is the histogram of a list of samples, field by field. Adding
and merging only ever make such histograms (`add_of`, `merge_of`), so what a
histogram says can be read off its samples.

Results:
* `edges_increasing`: the edges go up from 0 to 60 s.
* `quantile_of`: a quantile is the first edge at or above the sample of its
  rank, cut at the maximum.
* `quantile_bounds`: so it is at most one percent and a nanosecond above it.
* `merge_addAll`, `merge_assoc`, `merge_comm`, `merge_empty`: merging is
  concatenation of the samples, and a commutative monoid.
-/
namespace Nucleo.Metrics

/-! ## Edges -/

theorem growEdges_succ (fuel last : Nat) (h : last < maxRttNs) :
    growEdges (fuel + 1) last =
      min maxRttNs ((last * 101 + 99) / 100) :: growEdges fuel (min maxRttNs ((last * 101 + 99) / 100)) :=
  if_pos h

theorem growEdges_end (fuel last : Nat) (h : ¬ last < maxRttNs) : growEdges fuel last = [] := by
  cases fuel with
  | zero => rfl
  | succ fuel => exact if_neg h

theorem growEdges_increasing (fuel : Nat) {last : Nat} (h : 1 ≤ last) :
    (last :: growEdges fuel last).Pairwise (· < ·) := by
  induction fuel generalizing last with
  | zero => simp [growEdges]
  | succ fuel ih =>
    by_cases hlast : last < maxRttNs
    · rw [growEdges_succ fuel last hlast]
      have hless : last < min maxRttNs ((last * 101 + 99) / 100) := by omega
      have hrest := @ih (min maxRttNs ((last * 101 + 99) / 100)) (by omega)
      refine List.pairwise_cons.2 ⟨fun e he => ?_, hrest⟩
      rcases List.mem_cons.1 he with rfl | he
      · exact hless
      · exact Nat.lt_trans hless ((List.pairwise_cons.1 hrest).1 e he)
    · simp [growEdges_end _ _ hlast]

theorem growEdges_le (fuel last : Nat) : ∀ e ∈ growEdges fuel last, e ≤ maxRttNs := by
  induction fuel generalizing last with
  | zero => simp [growEdges]
  | succ fuel ih =>
    by_cases hlast : last < maxRttNs
    · rw [growEdges_succ fuel last hlast]
      intro e he
      rcases List.mem_cons.1 he with rfl | he
      · exact Nat.min_le_left _ _
      · exact ih _ e he
    · simp [growEdges_end _ _ hlast]

/-- A loop that reached the largest round trip has ended. -/
theorem growEdges_more {fuel last : Nat} (h : (last :: growEdges fuel last).getLast? = some maxRttNs) (more : Nat) :
    growEdges (fuel + more) last = growEdges fuel last := by
  induction fuel generalizing last with
  | zero =>
    obtain rfl : last = maxRttNs := by simpa [growEdges] using h
    rw [growEdges_end _ _ (Nat.lt_irrefl _), growEdges_end _ _ (Nat.lt_irrefl _)]
  | succ fuel ih =>
    by_cases hlast : last < maxRttNs
    · rw [growEdges_succ fuel last hlast, List.getLast?_cons_cons] at h
      rw [Nat.add_right_comm, growEdges_succ _ last hlast, growEdges_succ fuel last hlast, ih h]
    · rw [growEdges_end _ _ hlast, growEdges_end _ _ hlast]

/-- **The edges go up.** -/
theorem edges_increasing : edges.Pairwise (· < ·) := by
  have h := @growEdges_increasing 2000 1000 (by omega)
  refine List.pairwise_cons.2 ⟨fun e he => ?_, h⟩
  rcases List.mem_cons.1 he with rfl | he
  · omega
  · have := (List.pairwise_cons.1 h).1 e he
    omega

theorem edges_le {e : Nat} (h : e ∈ edges) : e ≤ maxRttNs := by
  rcases List.mem_cons.1 h with rfl | h
  · exact Nat.zero_le _
  · rcases List.mem_cons.1 h with rfl | h
    · decide
    · exact growEdges_le 2000 1000 e h

/-- The first edge above `last` that is at least `a` is within one percent. -/
theorem growEdges_find {fuel last a e : Nat} (hlast : last < a)
    (h : (growEdges fuel last).find? (a ≤ ·) = some e) : 100 * e + 2 ≤ 101 * a := by
  induction fuel generalizing last with
  | zero => simp [growEdges] at h
  | succ fuel ih =>
    by_cases hend : last < maxRttNs
    · rw [growEdges_succ fuel last hend, List.find?_cons] at h
      split at h
      · cases h
        have : min maxRttNs ((last * 101 + 99) / 100) ≤ (last * 101 + 99) / 100 := Nat.min_le_right _ _
        omega
      · rename_i hless
        exact ih (Nat.lt_of_not_le (of_decide_eq_false hless)) h
    · rw [growEdges_end _ _ hend] at h
      cases h

/-- The first edge at or above a value. -/
theorem edges_find {a e : Nat} (h : edges.find? (a ≤ ·) = some e) :
    a ≤ e ∧ (e ≤ 1000 ∨ 100 * e + 2 ≤ 101 * a) := by
  refine ⟨by simpa using List.find?_some h, ?_⟩
  rw [edges, List.find?_cons] at h
  split at h
  · cases h
    exact .inl (Nat.zero_le _)
  · rw [List.find?_cons] at h
    split at h
    · cases h
      exact .inl (Nat.le_refl _)
    · rename_i hless
      exact .inr (growEdges_find (by simpa using hless) h)

theorem edges_find_some {a : Nat} (h : a ≤ maxRttNs) : ∃ e, edges.find? (a ≤ ·) = some e := by
  have hmem : maxRttNs ∈ edges := List.mem_of_getLast? edges_last
  have hsome : (edges.find? (a ≤ ·)).isSome := List.find?_isSome.2 ⟨_, hmem, by simpa using h⟩
  exact Option.isSome_iff_exists.1 hsome

theorem edges_find_none {a : Nat} (h : maxRttNs < a) : edges.find? (a ≤ ·) = none := by
  refine List.find?_eq_none.2 fun e he => ?_
  have := edges_le he
  simp
  omega

/-! ## Buckets -/

theorem bisectLeft_cons (edge : Nat) (edges : List Nat) (value : Nat) :
    bisectLeft (edge :: edges) value = if value ≤ edge then 0 else bisectLeft edges value + 1 := by
  simp [bisectLeft, List.findIdx_cons]

/-- The buckets of some samples: those up to the first edge, then of the others
those up to the second, and so on. -/
def bucketsOf (xs : List Nat) : List Nat → List Nat
  | [] => []
  | edge :: edges => xs.countP (· ≤ edge) :: bucketsOf (xs.filter (edge < ·)) edges

/-- The samples above every edge. -/
def overflowOf (xs edges : List Nat) : Nat := xs.countP fun x => edges.all (· < x)

@[simp] theorem bucketsOf_length (xs edges : List Nat) : (bucketsOf xs edges).length = edges.length := by
  induction edges generalizing xs with
  | nil => rfl
  | cons edge edges ih => simp [bucketsOf, ih]

theorem bucketsOf_nil (edges : List Nat) : bucketsOf [] edges = List.replicate edges.length 0 := by
  induction edges with
  | nil => rfl
  | cons edge edges ih => simp [bucketsOf, ih, List.replicate_succ]

theorem bucketsOf_append (xs ys edges : List Nat) :
    bucketsOf (xs ++ ys) edges = List.zipWith (· + ·) (bucketsOf xs edges) (bucketsOf ys edges) := by
  induction edges generalizing xs ys with
  | nil => rfl
  | cons edge edges ih => simp [bucketsOf, ih]

theorem overflowOf_append (xs ys edges : List Nat) :
    overflowOf (xs ++ ys) edges = overflowOf xs edges + overflowOf ys edges := List.countP_append

/-- One more sample: the bucket that `bisect_left` names, or none. -/
theorem bucketsOf_snoc (xs : List Nat) (x : Nat) (edges : List Nat) :
    bucketsOf (xs ++ [x]) edges =
      if bisectLeft edges x = edges.length then bucketsOf xs edges
      else (bucketsOf xs edges).modify (bisectLeft edges x) (· + 1) := by
  induction edges generalizing xs with
  | nil => rfl
  | cons edge edges ih =>
    rw [bisectLeft_cons]
    by_cases hx : x ≤ edge
    · have hnot : ¬ edge < x := by omega
      simp [bucketsOf, hx, hnot]
    · have hlt : edge < x := by omega
      have hcount : (xs ++ [x]).countP (· ≤ edge) = xs.countP (· ≤ edge) := by simp [hx]
      have hfilter : (xs ++ [x]).filter (edge < ·) = xs.filter (edge < ·) ++ [x] := by simp [hlt]
      simp only [bucketsOf, hcount, hfilter, ih, hx, if_false, List.length_cons, Nat.add_right_cancel_iff]
      split
      · rfl
      · rw [List.modify_succ_cons]

theorem bisectLeft_eq_length (edges : List Nat) (x : Nat) :
    bisectLeft edges x = edges.length ↔ edges.all (· < x) = true := by
  rw [bisectLeft, List.findIdx_eq_length]
  simp

theorem overflowOf_snoc (xs : List Nat) (x : Nat) (edges : List Nat) :
    overflowOf (xs ++ [x]) edges =
      if bisectLeft edges x = edges.length then overflowOf xs edges + 1 else overflowOf xs edges := by
  rw [overflowOf_append]
  by_cases h : bisectLeft edges x = edges.length
  · rw [if_pos h, overflowOf, overflowOf, List.countP_singleton, if_pos ((bisectLeft_eq_length _ _).1 h)]
  · rw [if_neg h, overflowOf, overflowOf, List.countP_singleton,
      if_neg fun hall => h ((bisectLeft_eq_length _ _).2 hall), Nat.add_zero]

/-! ## The histogram of some samples -/

theorem min?_append (xs ys : List Nat) :
    (xs ++ ys).min? = xs.min?.elim ys.min? fun a => some (ys.min?.elim a (min a)) := by
  induction xs with
  | nil => rfl
  | cons x xs ih =>
    rw [List.cons_append, List.min?_cons, ih, List.min?_cons]
    cases xs.min? <;> cases ys.min? <;> simp [Nat.min_assoc]

theorem max?_append (xs ys : List Nat) :
    (xs ++ ys).max? = xs.max?.elim ys.max? fun a => some (ys.max?.elim a (max a)) := by
  induction xs with
  | nil => rfl
  | cons x xs ih =>
    rw [List.cons_append, List.max?_cons, ih, List.max?_cons]
    cases xs.max? <;> cases ys.max? <;> simp [Nat.max_assoc]

namespace Histogram

def of (xs : List Nat) : Histogram where
  buckets := bucketsOf xs edges
  count := xs.length
  totalNs := xs.sum
  overflow := overflowOf xs edges
  minimum := xs.min?
  maximum := xs.max?

/-- A new histogram has no samples. -/
theorem of_nil : of [] = {} := by
  unfold of
  rw [bucketsOf_nil]
  rfl

/-- **Adding a sample.** -/
theorem add_of (xs : List Nat) (x : Nat) (h : x < 2 ^ 63) : (of xs).add x = .ok (of (xs ++ [x])) := by
  have hstamp : stamp x = .ok x := stamp_ok.2 ⟨rfl, by omega⟩
  unfold add
  rw [hstamp]
  simp only [bind, Except.bind, of, bucketsOf_snoc, overflowOf_snoc, min?_append, max?_append,
    List.length_append, List.length_singleton, List.sum_append, List.sum_singleton]
  congr 2
  · cases xs.min? <;> simp [Nat.min_comm]
  · cases xs.max? <;> simp [Nat.max_comm]

/-- **Merging is concatenation.** -/
theorem merge_of (xs ys : List Nat) : (of xs).merge (of ys) = of (xs ++ ys) := by
  unfold merge of
  congr 1
  · exact (bucketsOf_append xs ys edges).symm
  · exact List.length_append.symm
  · exact List.sum_append.symm
  · exact (overflowOf_append xs ys edges).symm
  · rw [min?_append]
    cases ys with
    | nil => cases xs.min? <;> rfl
    | cons y ys => cases xs.min? <;> simp [List.min?_cons]
  · rw [max?_append]
    cases ys with
    | nil => cases xs.max? <;> rfl
    | cons y ys => cases xs.max? <;> simp [List.max?_cons]

/-- `for value in values: histogram.add(value)`. -/
def addAll (h : Histogram) (values : List Int) : Except String Histogram := values.foldlM add h

theorem add_error {h h' : Histogram} {value : Int} (hadd : h.add value = .ok h') : 0 ≤ value ∧ value < 2 ^ 63 := by
  unfold add at hadd
  cases hs : stamp value with
  | error e =>
    rw [hs] at hadd
    cases hadd
  | ok n =>
    obtain ⟨hn, hmax⟩ := stamp_ok.1 hs
    omega

theorem addAll_of (xs : List Nat) {values : List Int} (h : ∀ v ∈ values, 0 ≤ v ∧ v < 2 ^ 63) :
    (of xs).addAll values = .ok (of (xs ++ values.map (·.toNat))) := by
  induction values generalizing xs with
  | nil => simp [addAll, pure, Except.pure]
  | cons v values ih =>
    obtain ⟨h0, hmax⟩ := h v List.mem_cons_self
    obtain ⟨n, rfl⟩ := Int.eq_ofNat_of_zero_le h0
    have hrest := ih (xs ++ [n]) fun v hv => h v (List.mem_cons_of_mem _ hv)
    rw [addAll] at hrest ⊢
    rw [List.foldlM_cons, add_of xs n (by omega)]
    simpa [bind, Except.bind] using hrest

/-- A new histogram takes exactly the values that are times. -/
theorem addAll_ok {values : List Int} {h : Histogram} :
    addAll {} values = .ok h ↔ (∀ v ∈ values, 0 ≤ v ∧ v < 2 ^ 63) ∧ h = of (values.map (·.toNat)) := by
  constructor
  · intro hok
    have hrange : ∀ v ∈ values, 0 ≤ v ∧ v < 2 ^ 63 := by
      generalize hstart : ({} : Histogram) = start at hok
      clear hstart
      induction values generalizing start with
      | nil => simp
      | cons v values ih =>
        rw [addAll, List.foldlM_cons] at hok
        cases hadd : start.add v with
        | error e =>
          rw [hadd] at hok
          cases hok
        | ok next =>
          rw [hadd] at hok
          intro w hw
          rcases List.mem_cons.1 hw with rfl | hw
          · exact add_error hadd
          · exact ih next hok w hw
    rw [← of_nil, addAll_of [] hrange] at hok
    exact ⟨hrange, (Except.ok.inj hok).symm⟩
  · intro hok
    obtain ⟨hrange, rfl⟩ := hok
    rw [← of_nil, addAll_of [] hrange]
    rfl

/-- The histograms that the code can make. -/
inductive Built : Histogram → Prop
  | empty : Built {}
  | add {h h' : Histogram} {value : Int} : Built h → h.add value = .ok h' → Built h'
  | merge {h other : Histogram} : Built h → Built other → Built (h.merge other)

theorem Built.of {h : Histogram} (hb : Built h) : ∃ xs, h = Histogram.of xs := by
  induction hb with
  | empty => exact ⟨[], of_nil.symm⟩
  | @add h h' value _ hadd ih =>
    obtain ⟨xs, rfl⟩ := ih
    obtain ⟨h0, hmax⟩ := add_error hadd
    obtain ⟨n, rfl⟩ := Int.eq_ofNat_of_zero_le h0
    rw [add_of xs n (by omega)] at hadd
    exact ⟨xs ++ [n], (Except.ok.inj hadd).symm⟩
  | merge _ _ ih ih' =>
    obtain ⟨xs, rfl⟩ := ih
    obtain ⟨ys, rfl⟩ := ih'
    exact ⟨xs ++ ys, merge_of xs ys⟩

/-- Samples up to `v`, when those up to `edge` are counted apart. -/
theorem countP_split (xs : List Nat) {edge v : Nat} (h : edge ≤ v) :
    xs.countP (· ≤ v) = xs.countP (· ≤ edge) + (xs.filter (edge < ·)).countP (· ≤ v) := by
  induction xs with
  | nil => rfl
  | cons x xs ih =>
    by_cases hx : x ≤ edge
    · have hv : x ≤ v := Nat.le_trans hx h
      have hnot : ¬ edge < x := by omega
      simp [hx, hv, hnot, ih]
      omega
    · have hlt : edge < x := by omega
      by_cases hv : x ≤ v
      · simp [hx, hv, hlt, ih]
        omega
      · simp [hx, hv, hlt, ih]

/-- The walk over the buckets ends at the first edge with enough samples. -/
theorem rankEdge_of {edges : List Nat} (hedges : edges.Pairwise (· < ·)) (maximum : Option Nat) {xs : List Nat}
    {rank : Int} {a : Nat} (h : ∀ edge ∈ edges, rank ≤ xs.countP (· ≤ edge) ↔ a ≤ edge) :
    rankEdge maximum rank (edges.zip (bucketsOf xs edges)) =
      (edges.find? (a ≤ ·)).map fun edge => maximum.elim edge (min edge ·) := by
  induction edges generalizing xs rank with
  | nil => rfl
  | cons edge edges ih =>
    obtain ⟨hedge, hedges⟩ := List.pairwise_cons.1 hedges
    have hfirst := h edge List.mem_cons_self
    simp only [bucketsOf, List.zip_cons_cons, rankEdge, List.find?_cons]
    by_cases ha : a ≤ edge
    · have hrank := hfirst.2 ha
      rw [if_pos (by omega)]
      simp [ha]
    · have hrank : ¬ rank ≤ xs.countP (· ≤ edge) := fun hle => ha (hfirst.1 hle)
      rw [if_neg (by omega), ih hedges fun v hv => ?_]
      · simp [ha]
      · rw [← h v (List.mem_cons_of_mem _ hv), countP_split xs (Nat.le_of_lt (hedge v hv))]
        omega

/-- **A quantile is the first edge at or above its sample**, cut at the maximum. -/
theorem quantile_of {xs : List Nat} {rank : Nat → Nat} (h0 : 0 < rank xs.length) {a : Nat}
    (ha : nearestRank xs (rank xs.length) = some a) :
    (of xs).quantile rank = (edges.find? (a ≤ ·)).map fun edge => xs.max?.elim edge (min edge ·) := by
  have hne : (of xs).count ≠ 0 := by
    intro hzero
    obtain rfl : xs = [] := List.length_eq_zero_iff.1 hzero
    simpa using nearestRank_mem ha
  rw [quantile, if_neg hne]
  apply rankEdge_of edges_increasing
  intro edge _
  rw [nearestRank_le_iff h0 ha]
  exact Int.ofNat_le

/-- The rank of a fraction is the rank of a sample. -/
theorem ceil_rank {f : ℚ} (h0 : 0 < f) (h1 : f ≤ 1) {n : Nat} (hn : 0 < n) : 0 < ⌈f * n⌉₊ ∧ ⌈f * n⌉₊ ≤ n := by
  have hn' : (0 : ℚ) < n := by exact_mod_cast hn
  refine ⟨Nat.ceil_pos.2 (mul_pos h0 hn'), Nat.ceil_le.2 ?_⟩
  exact mul_le_of_le_one_left hn'.le h1

/-- A bound on an edge as the documentation has it. -/
theorem error_bound {a e : Nat} (h : e ≤ 1000 ∨ 100 * e + 2 ≤ 101 * a) :
    (e : ℚ) ≤ max 1000 (101 / 100 * (a : ℚ) + 1) := by
  rcases h with h | h
  · exact le_max_of_le_left (by exact_mod_cast h)
  · apply le_max_of_le_right
    have h' : (100 * e + 2 : ℚ) ≤ 101 * a := by exact_mod_cast h
    linarith

/-- **Quantiles bound the nearest-rank sample.** The loop that makes the edges
ends, and they go up from 0 to 60 s. Of any samples and any fraction, with `a`
the sample of its rank: up to 60 s the quantile is at least `a`, within one
percent and a nanosecond above 1 µs, and no more than the largest sample; above
60 s it is unknown. -/
theorem quantile_bounds :
    ((∀ more, 0 :: 1000 :: growEdges (2000 + more) 1000 = edges) ∧ edges.Pairwise (· < ·) ∧
      edges.head? = some 0 ∧ edges.getLast? = some maxRttNs) ∧
    ∀ samples : List Nat, samples ≠ [] → (∀ x ∈ samples, x < 2 ^ 63) → ∀ f : ℚ, 0 < f → f ≤ 1 →
      ∃ h a, addAll {} (samples.map fun n : Nat => (n : Int)) = .ok h ∧
        nearestRank samples ⌈f * samples.length⌉₊ = some a ∧
        (a ≤ maxRttNs → ∃ q, h.quantile (fun n => ⌈f * n⌉₊) = some q ∧ a ≤ q ∧
          (q : ℚ) ≤ max 1000 (101 / 100 * (a : ℚ) + 1) ∧ ∃ m ∈ samples, (∀ x ∈ samples, x ≤ m) ∧ q ≤ m) ∧
        (maxRttNs < a → h.quantile (fun n => ⌈f * n⌉₊) = none) := by
  have hloop : (1000 :: growEdges 2000 1000).getLast? = some maxRttNs := by
    have h := edges_last
    rwa [edges, List.getLast?_cons_cons] at h
  refine ⟨⟨fun more => ?_, edges_increasing, rfl, edges_last⟩, fun samples hne hrange f h0 h1 => ?_⟩
  · rw [growEdges_more hloop more, edges]
  · obtain ⟨hpos, hle⟩ := ceil_rank h0 h1 (List.length_pos_iff.2 hne)
    obtain ⟨a, ha⟩ := nearestRank_some hpos hle
    have hadd : addAll {} (samples.map fun n : Nat => (n : Int)) = .ok (of samples) := by
      refine addAll_ok.2 ⟨fun v hv => ?_, ?_⟩
      · obtain ⟨n, hn, rfl⟩ := List.mem_map.1 hv
        have := hrange n hn
        omega
      · simp [Function.comp_def]
    obtain ⟨m, hm⟩ : ∃ m, samples.max? = some m := by
      cases hmax : samples.max? with
      | none => exact absurd (List.max?_eq_none_iff.1 hmax) hne
      | some m => exact ⟨m, rfl⟩
    obtain ⟨hmem, hmax⟩ := List.max?_eq_some_iff.1 hm
    refine ⟨of samples, a, hadd, ha, fun hsmall => ?_, fun hlarge => ?_⟩
    · obtain ⟨e, he⟩ := edges_find_some hsmall
      obtain ⟨hae, hbound⟩ := edges_find he
      have ham : a ≤ m := hmax a (nearestRank_mem ha)
      refine ⟨min e m, ?_, by omega, ?_, m, hmem, fun x hx => hmax x hx, Nat.min_le_right _ _⟩
      · rw [quantile_of hpos ha, he, hm]
        rfl
      · refine le_trans ?_ (error_bound hbound)
        exact_mod_cast Nat.min_le_left e m
    · rw [quantile_of hpos ha, edges_find_none hlarge]
      rfl

/-- The median of three samples. -/
theorem quantile_three_samples : ∃ h q, addAll {} [5000, 7000, 120000000000] = .ok h ∧
    h.quantile (fun n => ⌈(1 / 2 : ℚ) * n⌉₊) = some q ∧ 7000 ≤ q ∧ q ≤ 7071 := by
  obtain ⟨h, a, hadd, ha, hsmall, -⟩ := quantile_bounds.2 [5000, 7000, 120000000000] (by simp)
    (by simp) (1 / 2) (by norm_num) (by norm_num)
  have hrank : ⌈(1 / 2 : ℚ) * ([5000, 7000, 120000000000] : List Nat).length⌉₊ = 2 :=
    (Nat.ceil_eq_iff (by norm_num)).2 (by norm_num)
  rw [hrank] at ha
  have hle := fun v => nearestRank_le_iff (v := v) (by norm_num) ha
  have hlow : ¬ a ≤ 6999 := by rw [hle]; decide
  have hhigh : a ≤ 7000 := by rw [hle]; decide
  obtain rfl : a = 7000 := by omega
  obtain ⟨q, hq, haq, hbound, -⟩ := hsmall (by decide)
  refine ⟨h, q, hadd, hq, haq, ?_⟩
  have hq' : (q : ℚ) ≤ 7071 := hbound.trans (by norm_num)
  exact_mod_cast hq'

end Histogram
end Nucleo.Metrics
