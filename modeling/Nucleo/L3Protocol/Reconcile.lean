import Nucleo.L3Protocol.LoadSession

/-!
# Complete evidence reconciles

`assess` of `benchmark_campaign.py` reads the file of a run back and holds the
final record against itself: its counts, its histogram and its streams. What
`assess` does before, up to the length of the measurement, and after, from
`judge` on, are parameters here; floating point enters where the record could
hold a float, and in the rank of the quantile.

Results:
* `reconcile_final`: the final record of a complete run passes every check.
* `timely_reads`: the file of a session that reports at proper times is read back.
* `complete_evidence_reconciles`: so does what is read back from its file, and
  `assess` finds it invalid only for what comes before or after.
-/
namespace Nucleo.Metrics

open Json (Str)

/-- `Floats`, and two of them compared. -/
structure Reals extends Floats where
  /-- `x == y` -/
  same : Json.Float → Json.Float → Bool

namespace Campaign

/-! ## Reading a record -/

/-- `record[key]`. -/
def item (record : Json) (key : String) : Except String Json :=
  match record.get? (Str.lit key) with
  | some v => .ok v
  | none => .error "KeyError"

/-- What an object is as a `dict`. -/
def dict : Json → Except String (List (Str × Json))
  | .obj fields => .ok (fields.foldl (fun d f => assign d f.1 f.2) [])
  | _ => .error "AttributeError"

/-- `type(v) is int and v >= 0`. -/
def isCount : Json → Bool
  | .int n => 0 ≤ n
  | _ => false

/-- A value that has been checked to be an integer. -/
def intOf : Json → Int
  | .int n => n
  | _ => 0

/-- `counts.get(key, 0)`, its values checked. -/
def countOf (counts : List (Str × Json)) (key : Str) : Int := ((counts.lookup key).map intOf).getD 0

/-- `v == n`. -/
def equalsInt (lib : Reals) (n : Int) : Json → Bool
  | .int m => m = n
  | .bool b => b.toInt = n
  | .float x => lib.eq x n
  | _ => false

/-- `a == b`, for `a` a number or `None`. -/
def equals (lib : Reals) : Json → Json → Bool
  | .null, .null => true
  | .int n, b => equalsInt lib n b
  | .bool a, b => equalsInt lib a.toInt b
  | .float x, .float y => lib.same x y
  | .float x, .int n => lib.eq x n
  | .float x, .bool b => lib.eq x b.toInt
  | _, _ => false

/-- `raise ValueError(error)` unless the condition holds. -/
def check (condition : Bool) (error : String) : Except String Unit := if condition then .ok () else .error error

/-! ## The accounts of a final record -/

/-- `str(i)` -/
def binKey (i : Nat) : Str := (Decimal.text i).map (·.toUInt16)

/-- `int(k)` where `k.isdigit()`, for ASCII digits: the report writes no others. -/
def binIndex (k : Str) : Option Nat :=
  if k ≠ [] ∧ k.all (fun u => 48 ≤ u && u ≤ 57) = true then some (Decimal.value (k.map (·.toUInt8))) else none

/-- mirrors Rust/tools/message-demo/python/benchmark_campaign.py:420-425 -/
def validBin (bin : Str × Json) : Bool := (binIndex bin.1).any (· < edges.length) && isCount bin.2

/-- `min(edge, self.maximum)`. -/
def upper (lib : Reals) (edge : Nat) : Json → Except String Json
  | .int n => .ok (if n < edge then .int n else nat edge)
  | .bool b => .ok (if b.toInt < edge then .bool b else nat edge)
  | .float x => .ok (if lib.le x edge && !lib.eq x edge then .float x else nat edge)
  | _ => .error "TypeError"

/-- `reconstructed.quantile(0.99)`.
mirrors Rust/tools/message-demo/python/benchmark_campaign.py:429-435 -/
def rebuiltP99 (lib : Reals) (ranks : Ranks) (bins : List (Str × Json)) (count : Nat) (maximum : Json) :
    Except String Json :=
  let buckets := (List.range edges.length).map fun i => (countOf bins (binKey i)).toNat
  match ({ buckets, count } : Histogram).quantile ranks.p99 with
  | none => .ok .null
  | some edge => upper lib edge maximum

/-- mirrors Rust/tools/message-demo/python/benchmark_campaign.py:410-418 -/
def reconcileStream (lib : Reals) (stream : Json) : Except String Unit := do
  let counts ← item stream "counts"
  let freshness ← item stream "freshness_ns"
  let counts ← dict counts
  check (counts.all fun c => isCount c.2) "invalid stream accounting"
  let freshness ← dict freshness
  check (freshness.all fun c => isCount c.2) "invalid stream accounting"
  let closed ← item stream "closed"
  check (closed matches .bool true) "final stream accounting is not closed"
  let pendingGaps ← item stream "pending_gaps"
  check (equalsInt lib 0 pendingGaps) "final stream accounting is not closed"

/-- mirrors Rust/tools/message-demo/python/benchmark_campaign.py:419-437 -/
def reconcileHistogram (lib : Reals) (ranks : Ranks) (histogram : Json) (count overflow : Int) :
    Except String Unit := do
  let bins ← item histogram "bins"
  let bins ← dict bins
  check (bins.all validBin) "invalid histogram bins"
  check ((bins.map fun b => intOf b.2).sum + overflow = count) "histogram counts do not reconcile"
  let maximum ← item histogram "max_ns"
  let rebuilt ← rebuiltP99 lib ranks bins count.toNat maximum
  let p99 ← item histogram "p99_upper_ns"
  check (equals lib rebuilt p99) "histogram p99 does not reconcile"

/-- The probes of a complete run.
mirrors Rust/tools/message-demo/python/benchmark_campaign.py:406-409 -/
def reconcileDrain (lib : Reals) (probes : Json) : Except String Unit := do
  let outstanding ← item probes "outstanding"
  check (equalsInt lib 0 outstanding) "complete run has unfinished probes"
  let closed ← item probes "closed"
  check (closed matches .bool true) "complete run has unfinished probes"

/-- mirrors Rust/tools/message-demo/python/benchmark_campaign.py:391-437 -/
def reconcile (lib : Reals) (ranks : Ranks) (complete : Bool) (final : Json) : Except String Unit := do
  let probes ← item final "probes"
  let counts ← item probes "counts"
  let counts ← dict counts
  check (counts.all fun c => isCount c.2) "invalid counts"
  check (!complete || countOf counts (Str.lit "sent") =
    countOf counts (Str.lit "timely_reply") + countOf counts (Str.lit "deadline_misses")) "probe counts do not reconcile"
  let histogram ← item probes "rtt"
  let count ← item histogram "count"
  check (equalsInt lib (countOf counts (Str.lit "timely_reply")) count) "RTT count does not reconcile"
  check (isCount count) "invalid histogram totals"
  let overflow ← item histogram "overflow"
  check (isCount overflow) "invalid histogram totals"
  if complete then reconcileDrain lib probes
  let streams ← item final "streams"
  let streams ← dict streams
  streams.forM fun stream => reconcileStream lib stream.2
  reconcileHistogram lib ranks histogram (intOf count) (intOf overflow)

/-- `assess`, with what comes before the accounts and after them. An error is
the outcome `invalid`.
mirrors Rust/tools/message-demo/python/benchmark_campaign.py:313-463 -/
def assess {M O : Type} (lib : Reals) (ranks : Ranks) (timing : Inspection → Bytes → Except String (O ⊕ M))
    (judge : M → Inspection → Except String O) (file : Bytes) : Except String O := do
  let result ← inspectReport lib.toFloats file
  match ← timing result file with
  | .inl outcome => .ok outcome
  | .inr measured =>
    reconcile lib ranks result.complete (result.final.getD .null)
    judge measured result


/-! ## Reading what was written -/

section Dict

variable {fields : List (Str × Json)} {key : Str} {value : Json}

/-- A new key goes to the end. -/
theorem assign_new (h : key ∉ fields.map Prod.fst) : assign fields key value = fields ++ [(key, value)] := by
  induction fields with
  | nil => rfl
  | cons f fields ih =>
    obtain ⟨k, v⟩ := f
    obtain ⟨hne, hnot⟩ := not_or.1 (mt List.mem_cons.2 h)
    rw [assign, if_neg (Ne.symm hne), ih hnot]
    rfl

theorem assign_all {before after : List (Str × Json)} (h : ((before ++ after).map Prod.fst).Nodup) :
    after.foldl (fun d f => assign d f.1 f.2) before = before ++ after := by
  induction after generalizing before with
  | nil => simp
  | cons f after ih =>
    have hsplit : before ++ f :: after = (before ++ [f]) ++ after := by simp
    have hnew : f.1 ∉ before.map Prod.fst := by
      rw [List.map_append, List.nodup_append] at h
      exact fun hmem => h.2.2 _ hmem _ (List.mem_cons_self) rfl
    rw [List.foldl_cons, assign_new hnew, hsplit, ih (by rwa [← hsplit])]

/-- An object without repeated keys is its own dictionary. -/
theorem dict_nodup (h : (fields.map Prod.fst).Nodup) : dict (.obj fields) = .ok fields := by
  rw [dict, assign_all (by simpa using h)]
  rfl

theorem mem_assign_all {before after : List (Str × Json)} {f : Str × Json}
    (h : f ∈ after.foldl (fun d f => assign d f.1 f.2) before) : f ∈ before ∨ f ∈ after := by
  induction after generalizing before with
  | nil => exact .inl h
  | cons g after ih =>
    rcases ih h with h | h
    · rcases mem_assign h with rfl | h
      · exact .inr List.mem_cons_self
      · exact .inl h
    · exact .inr (List.mem_cons_of_mem _ h)

/-- A dictionary has only fields of its object. -/
theorem dict_sub (fields : List (Str × Json)) : ∃ d, dict (.obj fields) = .ok d ∧ ∀ f ∈ d, f ∈ fields :=
  ⟨_, rfl, fun _ hf => (mem_assign_all hf).resolve_left (List.not_mem_nil)⟩

end Dict

/-! ## Counters -/

/-- A tally that was only added to is read back as it is. -/
theorem dict_tally {t : Tally} (h : t.Sound) : dict t.json = .ok (t.map fun p => (p.1, .int p.2)) := by
  refine dict_nodup ?_
  rw [List.map_map]
  exact h.keys

theorem tally_counts {t : Tally} (h : t.Sound) :
    (t.map fun p => (p.1, Json.int p.2)).all (fun c => isCount c.2) = true := by
  rw [List.all_map, List.all_eq_true]
  intro e he
  exact decide_eq_true (h.nonneg e he)

theorem countOf_tally (t : Tally) (key : Str) : countOf (t.map fun p => (p.1, .int p.2)) key = t.get key := by
  unfold countOf Tally.get
  induction t with
  | nil => rfl
  | cons e t ih =>
    rw [List.map_cons, List.lookup_cons, List.lookup_cons]
    split
    · rfl
    · exact ih

/-- What a counter is read back as. -/
theorem dict_counter {K : Type} (c : Counter K) (h : ∀ k, 0 ≤ c k) (keys : List K) (name : K → String) :
    ∃ d, dict (c.json keys name) = .ok d ∧ d.all (fun e => isCount e.2) = true := by
  obtain ⟨d, hd, hsub⟩ := dict_sub (((keys.filter fun k => c k ≠ 0).map fun k => (name k, Json.int (c k))).map
    fun f => (Str.lit f.1, f.2))
  refine ⟨d, hd, List.all_eq_true.2 fun e he => ?_⟩
  obtain ⟨f, hf, rfl⟩ := List.mem_map.1 (hsub e he)
  obtain ⟨k, -, rfl⟩ := List.mem_map.1 hf
  exact decide_eq_true (h k)

theorem check_of {condition : Bool} (h : condition = true) (error : String) : check condition error = .ok () :=
  if_pos h

/-! ## Streams -/

/-- **A closed stream passes.** -/
theorem reconcile_stream (lib : Reals) {s : StreamTracker.Snapshot} (h : StreamTracker.Closed s) :
    reconcileStream lib s.json = .ok () := by
  obtain ⟨counts, hcounts, hall⟩ := dict_counter s.counts h.counts StreamCount.all StreamCount.name
  obtain ⟨freshness, hfreshness, hfresh⟩ :=
    dict_counter s.freshnessNs h.freshness [.notSeen, .fresh, .stale] Freshness.name
  have hget : item s.json "counts" = .ok (s.counts.json StreamCount.all StreamCount.name) ∧
      item s.json "freshness_ns" = .ok (s.freshnessNs.json [.notSeen, .fresh, .stale] Freshness.name) ∧
      item s.json "closed" = .ok (.bool s.closed) ∧ item s.json "pending_gaps" = .ok (.int s.pendingGaps) := by
    unfold item StreamTracker.Snapshot.json object
    simp only [Json.get?, List.map_cons, List.map_nil]
    exact ⟨rfl, rfl, rfl, rfl⟩
  obtain ⟨h1, h2, h3, h4⟩ := hget
  unfold reconcileStream
  rw [h1, except_ok_bind, h2, except_ok_bind, hcounts, except_ok_bind, check_of hall, except_ok_bind, hfreshness,
    except_ok_bind, check_of hfresh, except_ok_bind, h3, except_ok_bind, h.closed, h4, h.pendingGaps]
  rfl

/-! ## Bins -/

theorem binIndex_binKey (i : Nat) : binIndex (binKey i) = some i := by
  have hdigits : (binKey i).all (fun u => 48 ≤ u && u ≤ 57) = true := by
    rw [binKey, List.all_map, List.all_eq_true]
    intro b hb
    have hdigit := Decimal.text_isDigit hb
    simp only [Decimal.isDigit, Bool.and_eq_true, decide_eq_true_eq, UInt8.le_iff_toNat_le] at hdigit
    simp only [Function.comp_apply, Bool.and_eq_true, decide_eq_true_eq, UInt16.le_iff_toNat_le, UInt8.toNat_toUInt16]
    exact hdigit
  have hne : binKey i ≠ [] := fun he => Decimal.text_ne_nil i (List.map_eq_nil_iff.1 he)
  rw [binIndex, if_pos ⟨hne, hdigits⟩, binKey, List.map_map]
  have hback : ((fun u : UInt16 => u.toUInt8) ∘ fun b : UInt8 => b.toUInt16) = id := by
    funext b
    simp
  rw [hback, List.map_id, Decimal.value_text]

theorem binKey_inj {i j : Nat} : binKey i = binKey j ↔ i = j := by
  refine ⟨fun h => ?_, fun h => by rw [h]⟩
  have hindex := congrArg binIndex h
  rw [binIndex_binKey, binIndex_binKey] at hindex
  exact Option.some.inj hindex

/-- The fields of `bins`. -/
def binFields (bins : List (Nat × Nat)) : List (Str × Json) := bins.map fun b => (binKey b.1, nat b.2)

theorem countOf_binFields (bins : List (Nat × Nat)) (i : Nat) :
    countOf (binFields bins) (binKey i) = ((bins.lookup i).getD 0 : Nat) := by
  unfold countOf binFields
  induction bins with
  | nil => rfl
  | cons b bins ih =>
    obtain ⟨j, n⟩ := b
    rw [List.map_cons, List.lookup_cons, List.lookup_cons]
    by_cases hij : i = j
    · subst hij
      simp [nat, intOf]
    · rw [beq_false_of_ne hij, beq_false_of_ne (mt binKey_inj.1 hij)]
      exact ih

theorem sum_binFields (bins : List (Nat × Nat)) :
    ((binFields bins).map fun b => intOf b.2).sum = ((bins.map Prod.snd).sum : Nat) := by
  unfold binFields
  induction bins with
  | nil => rfl
  | cons b bins ih =>
    rw [List.map_cons, List.map_cons, List.sum_cons, ih, List.map_cons, List.sum_cons, Int.natCast_add]
    rfl

open Histogram (binsFrom binsFrom_cons) in
theorem binsFrom_keys (buckets : List Nat) (start : Nat) :
    (∀ b ∈ binsFrom buckets start, start ≤ b.1 ∧ b.1 < start + buckets.length) ∧
      ((binsFrom buckets start).map Prod.fst).Nodup ∧
      ((binsFrom buckets start).map Prod.snd).sum = buckets.sum := by
  induction buckets generalizing start with
  | nil => exact ⟨by simp [binsFrom], .nil, rfl⟩
  | cons n buckets ih =>
    obtain ⟨hrange, hnodup, hsum⟩ := ih (start + 1)
    have hlater : ∀ b ∈ binsFrom buckets (start + 1), start ≤ b.1 ∧ b.1 < start + (n :: buckets).length := by
      intro b hb
      obtain ⟨hge, hlt⟩ := hrange b hb
      rw [List.length_cons]
      omega
    rw [binsFrom_cons, List.sum_cons]
    split
    · rename_i hn
      exact ⟨hlater, hnodup, by rw [hsum, hn, Nat.zero_add]⟩
    · refine ⟨fun b hb => ?_, ?_, by rw [List.map_cons, List.sum_cons, hsum]⟩
      · rcases List.mem_cons.1 hb with rfl | hb
        · exact ⟨Nat.le_refl _, by simp⟩
        · exact hlater b hb
      · refine List.nodup_cons.2 ⟨fun hmem => ?_, hnodup⟩
        obtain ⟨b, hb, he⟩ := List.mem_map.1 hmem
        have hge := (hrange b hb).1
        simp only at he
        omega

/-- Every sample is in a bucket or in the overflow. -/
theorem buckets_overflow (xs edges : List Nat) : (bucketsOf xs edges).sum + overflowOf xs edges = xs.length := by
  induction edges generalizing xs with
  | nil => simp [bucketsOf, overflowOf]
  | cons edge edges ih =>
    have hrest := ih (xs.filter (edge < ·))
    have hsplit : xs.length = xs.countP (fun x => decide (x ≤ edge)) +
        xs.countP fun x => ¬ decide (x ≤ edge) = true := List.length_eq_countP_add_countP _
    have hfilter : (xs.filter (edge < ·)).length = xs.countP fun x => ¬ decide (x ≤ edge) = true := by
      rw [← List.countP_eq_length_filter]
      exact List.countP_congr fun x _ => by simp
    have hover : overflowOf (xs.filter (edge < ·)) edges = overflowOf xs (edge :: edges) := by
      unfold overflowOf
      rw [List.countP_filter]
      refine List.countP_congr fun x _ => ?_
      rw [List.all_cons, Bool.and_comm]
    rw [bucketsOf, List.sum_cons, ← hover]
    omega

/-- The maximum only cuts. -/
theorem rankEdge_maximum (m : Nat) (rank : Int) (buckets : List (Nat × Nat)) :
    Histogram.rankEdge (some m) rank buckets = (Histogram.rankEdge none rank buckets).map (min · m) := by
  induction buckets generalizing rank with
  | nil => rfl
  | cons b buckets ih =>
    obtain ⟨edge, count⟩ := b
    unfold Histogram.rankEdge
    split
    · rfl
    · exact ih _

/-! ## The histogram -/

theorem equals_optional (lib : Reals) (o : Option Nat) : equals lib (optional o) (optional o) = true := by
  cases o with
  | none => rfl
  | some n => exact decide_eq_true rfl

theorem upper_min (lib : Reals) (edge m : Nat) : upper lib edge (nat m) = .ok (nat (min edge m)) := by
  change Except.ok (if (m : Int) < edge then Json.int m else nat edge) = .ok (nat (min edge m))
  congr 1
  split
  · rename_i hlt
    rw [Nat.min_eq_right (by omega)]
    rfl
  · rename_i hle
    rw [Nat.min_eq_left (by omega)]

/-- **The quantile is rebuilt** from the bins, the count and the maximum. -/
theorem rebuilt_p99 (lib : Reals) (ranks : Ranks) (xs : List Nat) :
    rebuiltP99 lib ranks (binFields ((Histogram.of xs).snapshot ranks).bins) xs.length (optional xs.max?) =
      .ok (optional ((Histogram.of xs).quantile ranks.p99)) := by
  have hbuckets : (List.range edges.length).map
      (fun i => (countOf (binFields ((Histogram.of xs).snapshot ranks).bins) (binKey i)).toNat) =
        bucketsOf xs edges := by
    have hrestored := congrArg Histogram.buckets (Histogram.restore_snapshot xs ranks)
    simp only [countOf_binFields, Int.toNat_natCast]
    dsimp only [Histogram.restore] at hrestored
    exact hrestored
  unfold rebuiltP99
  rw [hbuckets]
  unfold Histogram.quantile
  change (match if xs.length = 0 then none
      else Histogram.rankEdge none (ranks.p99 xs.length) (edges.zip (bucketsOf xs edges)) with
    | none => Except.ok Json.null
    | some edge => upper lib edge (optional xs.max?)) = .ok (optional (if xs.length = 0 then none
      else Histogram.rankEdge xs.max? (ranks.p99 xs.length) (edges.zip (bucketsOf xs edges))))
  by_cases hempty : xs.length = 0
  · rw [if_pos hempty, if_pos hempty]
    rfl
  · rw [if_neg hempty, if_neg hempty]
    obtain ⟨m, hm⟩ : ∃ m, xs.max? = some m := by
      cases hmax : xs.max? with
      | some m => exact ⟨m, rfl⟩
      | none => exact absurd (congrArg List.length (List.max?_eq_none_iff.1 hmax)) hempty
    rw [hm, rankEdge_maximum]
    cases Histogram.rankEdge none (ranks.p99 xs.length) (edges.zip (bucketsOf xs edges)) with
    | none => rfl
    | some edge => exact upper_min lib edge m

/-- **The histogram of some samples passes.** -/
theorem reconcile_histogram (lib : Reals) (ranks : Ranks) (xs : List Nat) :
    reconcileHistogram lib ranks ((Histogram.of xs).snapshot ranks).json xs.length (overflowOf xs edges) = .ok () := by
  generalize hs : (Histogram.of xs).snapshot ranks = s
  obtain ⟨hrange, hnodup, hsum⟩ := binsFrom_keys (bucketsOf xs edges) 0
  have hbins : s.bins = Histogram.binsFrom (bucketsOf xs edges) 0 := by rw [← hs]; rfl
  rw [← hbins] at hrange hnodup hsum
  have hget : item s.json "bins" = .ok (.obj (binFields s.bins)) ∧ item s.json "max_ns" = .ok (optional s.maxNs) ∧
      item s.json "p99_upper_ns" = .ok (optional s.p99UpperNs) := by
    unfold item Histogram.Snapshot.json object
    simp only [Json.get?, List.map_cons, List.map_nil]
    exact ⟨rfl, rfl, rfl⟩
  obtain ⟨h1, h2, h3⟩ := hget
  have hkeys : ((binFields s.bins).map Prod.fst).Nodup := by
    have hmap : (binFields s.bins).map Prod.fst = (s.bins.map Prod.fst).map binKey := by
      unfold binFields
      rw [List.map_map, List.map_map]
      rfl
    rw [hmap]
    exact hnodup.map fun _ _ he => binKey_inj.1 he
  have hvalid : (binFields s.bins).all validBin = true := by
    rw [List.all_eq_true]
    intro b hb
    obtain ⟨e, he, rfl⟩ := List.mem_map.1 hb
    have hlt := (hrange e he).2
    rw [Nat.zero_add, bucketsOf_length] at hlt
    rw [validBin, binIndex_binKey]
    simp [hlt, isCount, nat]
  have htotal : (((binFields s.bins).map fun b => intOf b.2).sum + (overflowOf xs edges : Nat) : Int) =
      (xs.length : Nat) := by
    rw [sum_binFields, hsum, ← buckets_overflow xs edges, Int.natCast_add]
  have hp99 : rebuiltP99 lib ranks (binFields s.bins) (xs.length : Int).toNat (optional s.maxNs) =
      .ok (optional s.p99UpperNs) := by
    rw [Int.toNat_natCast, ← hs]
    exact rebuilt_p99 lib ranks xs
  unfold reconcileHistogram
  rw [h1, except_ok_bind, dict_nodup hkeys, except_ok_bind, check_of hvalid, except_ok_bind,
    check_of (decide_eq_true htotal), except_ok_bind, h2, except_ok_bind, hp99, except_ok_bind, h3, except_ok_bind,
    check_of (equals_optional lib _)]

/-! ## The final record -/

theorem forM_ok {A : Type} {f : A → Except String Unit} {l : List A} (h : ∀ a ∈ l, f a = .ok ()) :
    l.forM f = .ok () := by
  induction l with
  | nil => rfl
  | cons a l ih =>
    change (f a >>= fun _ => l.forM f) = .ok ()
    rw [h a List.mem_cons_self, except_ok_bind]
    exact ih fun b hb => h b (List.mem_cons_of_mem _ hb)

theorem isCount_nat (n : Nat) : isCount (nat n) = true := decide_eq_true (Int.natCast_nonneg n)

theorem equals_count (lib : Reals) (n : Nat) : equalsInt lib n (nat n) = true := decide_eq_true rfl

/-- **The final record of a complete run passes every check.** -/
theorem reconcile_final (lib : Reals) (ranks : Ranks) (r : RunReport) (now : Nat) (reason : Str)
    {probes : ProbeTracker.Snapshot} (h : ProbeTracker.Closed ranks probes) (pacing : Pacer)
    {streams : List (Str × Json)}
    (hs : ∀ f ∈ streams, ∃ s : StreamTracker.Snapshot, f.2 = s.json ∧ StreamTracker.Closed s) :
    reconcile lib ranks true (RunReport.finalRecord r now reason true probes pacing streams) = .ok () := by
  generalize hfinal : RunReport.finalRecord r now reason true probes pacing streams = final
  have hget : item final "probes" = .ok probes.json ∧ item final "streams" = .ok (.obj streams) := by
    rw [← hfinal]
    unfold item RunReport.finalRecord object
    simp only [Json.get?, List.map_cons, List.map_nil]
    exact ⟨rfl, rfl⟩
  obtain ⟨hprobes, hstreams⟩ := hget
  have hget : item probes.json "counts" = .ok probes.counts.json ∧ item probes.json "rtt" = .ok probes.rtt.json ∧
      item probes.json "outstanding" = .ok (nat probes.outstanding) ∧
      item probes.json "closed" = .ok (.bool probes.closed) := by
    unfold item ProbeTracker.Snapshot.json object
    simp only [Json.get?, List.map_cons, List.map_nil]
    exact ⟨rfl, rfl, rfl, rfl⟩
  obtain ⟨hcounts, hrtt, houtstanding, hclosed⟩ := hget
  obtain ⟨xs, hxs, htimely⟩ := h.rtt
  have hget : item probes.rtt.json "count" = .ok (nat xs.length) ∧
      item probes.rtt.json "overflow" = .ok (nat (overflowOf xs edges)) := by
    rw [hxs]
    unfold item Histogram.Snapshot.json object
    simp only [Json.get?, List.map_cons, List.map_nil]
    exact ⟨rfl, rfl⟩
  obtain ⟨hcount, hoverflow⟩ := hget
  obtain ⟨d, hd, hsub⟩ := dict_sub streams
  have hall : d.forM (fun stream => reconcileStream lib stream.2) = .ok () := by
    refine forM_ok fun f hf => ?_
    obtain ⟨s, he, hclosed⟩ := hs f (hsub f hf)
    rw [he]
    exact reconcile_stream lib hclosed
  have hdrain : reconcileDrain lib probes.json = .ok () := by
    unfold reconcileDrain
    rw [houtstanding, except_ok_bind, h.outstanding, hclosed, h.closed]
    rfl
  unfold reconcile
  rw [hprobes, except_ok_bind, hcounts, except_ok_bind, dict_tally h.counts, except_ok_bind,
    check_of (tally_counts h.counts), except_ok_bind]
  simp only [countOf_tally]
  rw [check_of (by simpa using h.sent), except_ok_bind, hrtt, except_ok_bind, hcount, except_ok_bind, htimely,
    check_of (equals_count lib _), except_ok_bind, check_of (isCount_nat _), except_ok_bind, hoverflow, except_ok_bind,
    check_of (isCount_nat _), except_ok_bind]
  rw [if_pos trivial, hdrain, except_ok_bind, hstreams, except_ok_bind, hd, except_ok_bind, hall, except_ok_bind, hxs]
  exact reconcile_histogram lib ranks xs

/-! ## What the session reported -/

end Campaign

variable {I : Type}

/-- A call of the report that may write: whether it is an interval, and its time. -/
def Op.reported : Op I → Option (Bool × Int)
  | .interval now => some (true, now)
  | .diagnostic now _ => some (false, now)
  | _ => none

/-- One time after the other; an interval later than a diagnostic. -/
def After (a b : Bool × Int) : Prop := a.2 ≤ b.2 ∧ ¬ (a.1 = false ∧ b.1 = true ∧ a.2 = b.2)

theorem After.not_tied {a b : RunReport.Call I} (h : After (a.isInterval, a.now) (b.isInterval, b.now)) :
    ¬ RunReport.Tied a b := by
  rintro ⟨hdiagnostic, hinterval, hnow⟩
  refine h.2 ⟨?_, hinterval, hnow⟩
  cases a with
  | diagnostic _ _ | finish _ _ _ _ => rfl
  | interval _ _ => cases hdiagnostic

/-- The report is called at times the reader takes as well. -/
def Timely (ops : List (Op I)) (now : Int) : Prop := (ops.filterMap Op.reported ++ [(false, now)]).Pairwise After

namespace Session

variable [DecidableEq I] {lib : Floats} {ranks : Ranks} {s : Session I}

/-- One call leaves the report alone or is a call of the report that does not raise. -/
theorem act_report (op : Op I) : (s.act lib ranks op).report = s.report ∨
    ∃ c : RunReport.Call I, op.reported = some (c.isInterval, c.now) ∧
      RunReport.call lib ranks s.report c = .ok (s.act lib ranks op).report := by
  cases op with
  | sent _ _ _ | reply _ _ _ _ _ _ | reset | count _ | health _ | stream _ _ =>
    refine .inl ?_
    simp only [act, withProbes]
  | tick now =>
    refine .inl ?_
    simp only [act]
    split <;> rfl
  | due now windowAvailable =>
    refine .inl ?_
    simp only [act]
    split <;> rfl
  | diagnostic now values =>
    simp only [act]
    split
    · exact .inl rfl
    · rename_i report hr
      exact .inr ⟨.diagnostic now values, rfl, hr⟩
  | interval now =>
    cases hstep : s.report.interval lib ranks now s.trackers with
    | mk left result =>
      have hact : (s.act lib ranks (.interval now)).report = left.1 := by
        simp only [act, hstep]
      cases result with
      | ok u =>
        refine .inr ⟨.interval now s.trackers, rfl, ?_⟩
        rw [hact]
        simp only [RunReport.call, hstep]
        rfl
      | error e =>
        refine .inl ?_
        rw [hact]
        unfold RunReport.interval at hstep
        split at hstep
        · cases hstep
          rfl
        · split at hstep
          · cases hstep
            rfl
          · split at hstep
            · cases hstep
              rfl
            · split at hstep <;> cases hstep
              rfl

/-- **The report of a session** is that of the calls that did not raise. -/
theorem run_reported {metadata : Json} {startNs : Int} (h : RunReport.new metadata startNs = .ok s.report)
    (ops : List (Op I)) : ∃ calls : List (RunReport.Call I),
      RunReport.run lib ranks metadata startNs calls = .ok (s.run lib ranks ops).report ∧
        (calls.map fun c => (c.isInterval, c.now)).Sublist (ops.filterMap Op.reported) := by
  induction ops using List.reverseRecOn with
  | nil =>
    refine ⟨[], ?_, .slnil⟩
    rw [RunReport.run, h]
    rfl
  | append_singleton ops op ih =>
    obtain ⟨calls, hrun, hsub⟩ := ih
    have hact : s.run lib ranks (ops ++ [op]) = (s.run lib ranks ops).act lib ranks op := by
      rw [run, List.foldl_append]
      rfl
    rw [hact, List.filterMap_append]
    rcases @act_report I _ lib ranks (s.run lib ranks ops) op with hsame | ⟨c, hop, hcall⟩
    · rw [hsame]
      exact ⟨calls, hrun, hsub.trans (List.sublist_append_left _ _)⟩
    · refine ⟨calls ++ [c], ?_, ?_⟩
      · obtain ⟨r₀, hnew, hfold⟩ := except_bind_ok.1 hrun
        rw [RunReport.run, hnew, except_ok_bind, List.foldlM_append, hfold, except_ok_bind, List.foldlM_cons, hcall]
        rfl
      · rw [List.map_append]
        refine hsub.append ?_
        simp [hop]

end Session

/-- **A timely session is read back.** -/
theorem timely_reads [DecidableEq I] {lib : Floats} {ranks : Ranks} {s : Session I} (h : s.Opened) (ops : List (Op I))
    {now : Int} {reason : Str} {r' : RunReport} {t' : Trackers I}
    (hf : (s.run lib ranks ops).report.finish ranks now reason true (s.run lib ranks ops).trackers =
      ((r', t'), .ok ()))
    (ht : Timely ops now) : ∃ i, inspectReport lib r'.jsonl = .ok i := by
  obtain ⟨metadata, startNs, hnew⟩ := h.report
  obtain ⟨calls, hrun, hsub⟩ := @Session.run_reported I _ lib ranks s _ _ hnew ops
  generalize s.run lib ranks ops = s' at *
  have hcall : RunReport.call lib ranks s'.report (.finish now reason true s'.trackers) = .ok r' := by
    simp only [RunReport.call, hf]
    rfl
  have hall : RunReport.run lib ranks metadata startNs (calls ++ [.finish now reason true s'.trackers]) = .ok r' := by
    obtain ⟨r₀, hnew, hfold⟩ := except_bind_ok.1 hrun
    rw [RunReport.run, hnew, except_ok_bind, List.foldlM_append, hfold, except_ok_bind, List.foldlM_cons, hcall]
    rfl
  have hpairs : (calls ++ [RunReport.Call.finish now reason true s'.trackers]).Pairwise fun a b =>
      After (a.isInterval, a.now) (b.isInterval, b.now) := by
    rw [← List.pairwise_map (f := fun c : RunReport.Call I => (c.isInterval, c.now)), List.map_append]
    exact ht.sublist (hsub.append_right _)
  obtain ⟨i, hi⟩ := (RunReport.run_reads hall (hpairs.imp fun h => h.1).isChain).1
    (hpairs.imp fun h => h.not_tied).isChain
  exact ⟨i, hi.inspects⟩

namespace Campaign

/-! ## The file -/

/-- The last of the records read is the final one. -/
theorem inspect_final (lib : Floats) (records : List Json) {final : Json}
    (htype : final.get? (Str.lit "type") = some (text "final"))
    (hcomplete : final.get? (Str.lit "complete") = some (.bool true)) {i : Inspection}
    (h : inspectReport lib ((records ++ [final]).flatMap RunReport.line) = .ok i) :
    i.final = some final ∧ i.complete = true ∧ i.evidenceIssue = none := by
  rw [RunReport.inspect_records, List.foldlM_append] at h
  cases hs : records.foldlM (Reading.record lib) {} with
  | error e =>
    rw [hs] at h
    cases h
  | ok s =>
    have hone : [final].foldlM (Reading.record lib) s = Reading.record lib s final := by
      rw [List.foldlM_cons]
      cases Reading.record lib s final <;> rfl
    rw [hs, except_ok_bind, hone] at h
    have hkind := RunReport.kind_of htype
    unfold Reading.record at h
    split at h
    · -- a final record is no manifest
      unfold Reading.first at h
      rw [if_pos (.inl (by rw [hkind]; decide))] at h
      cases h
    · rename_i hmanifest
      unfold Reading.next at h
      split at h
      · cases h
      · cases helapsed : Reading.elapsed final with
        | error e =>
          rw [helapsed] at h
          cases h
        | ok elapsed =>
          rw [helapsed, except_ok_bind] at h
          split at h
          · cases h
          · rw [hkind, if_neg (by decide)] at h
            cases h
            refine ⟨rfl, ?_, rfl⟩
            have hsome : s.manifest.isSome = true := by simpa [Option.isSome_iff_ne_none] using hmanifest
            simp [Reading.result, Reading.isComplete, hcomplete, hsome]

/-- **Complete evidence reconciles.** Let trackers and a report be used in any way,
their calls raising or not, and let `finish` with `complete` succeed. Then the file ends
with a final record that is read back as it was written and passes every check of
the accounts; what `assess` finds invalid is the reading of the file, the timing
or the judgement. -/
theorem complete_evidence_reconciles {I : Type} [DecidableEq I] (lib : Reals) (ranks : Ranks) {s : Session I}
    (h : s.Opened) (ops : List (Op I)) {now : Int} {reason : Str} {r' : RunReport} {t' : Trackers I}
    (hf : (s.run lib.toFloats ranks ops).report.finish ranks now reason true (s.run lib.toFloats ranks ops).trackers =
      ((r', t'), .ok ())) :
    ∃ (records : List Json) (final : Json), r'.jsonl = (records ++ [final]).flatMap RunReport.line ∧
      Json.parse (RunReport.line final) = some final ∧ reconcile lib ranks true final = .ok () ∧
      (∀ i, inspectReport lib.toFloats r'.jsonl = .ok i →
        i.final = some final ∧ i.complete = true ∧ i.evidenceIssue = none) ∧
      (Timely ops now → ∃ i, inspectReport lib.toFloats r'.jsonl = .ok i) ∧
      ∀ (M O : Type) (timing : Inspection → Bytes → Except String (O ⊕ M)) (judge : M → Inspection → Except String O)
        (e : String), assess lib ranks timing judge r'.jsonl = .error e →
          inspectReport lib.toFloats r'.jsonl = .error e ∨ ∃ i, inspectReport lib.toFloats r'.jsonl = .ok i ∧
            (timing i r'.jsonl = .error e ∨
              ∃ measured, timing i r'.jsonl = .ok (.inr measured) ∧ judge measured i = .error e) := by
  have hsound := @Session.run_sound I _ lib.toFloats ranks s h ops
  obtain ⟨records, hrecords⟩ := hsound.report
  obtain ⟨k, probes, streams, hprobes, hstreams, hjsonl⟩ := finish_closed hsound hf
  have htimely := timely_reads h ops hf
  generalize (s.run lib.toFloats ranks ops).report = r at *
  generalize (s.run lib.toFloats ranks ops).trackers.pacing = pacing at *
  obtain ⟨htype, -, hcomplete⟩ := RunReport.finalRecord_get r k reason true probes pacing streams
  have hreconciled := reconcile_final lib ranks r k reason hprobes pacing hstreams
  generalize RunReport.finalRecord r k reason true probes pacing streams = final at *
  have hfile : r'.jsonl = (records ++ [final]).flatMap RunReport.line := by
    rw [hjsonl, hrecords, List.flatMap_append, List.flatMap_singleton]
  have hread : ∀ i, inspectReport lib.toFloats r'.jsonl = .ok i →
      i.final = some final ∧ i.complete = true ∧ i.evidenceIssue = none := by
    rw [hfile]
    exact fun i => inspect_final lib.toFloats records htype hcomplete
  refine ⟨records, final, hfile, RunReport.parse_line final, hreconciled, hread, htimely,
    fun M O timing judge e he => ?_⟩
  unfold assess at he
  cases hi : inspectReport lib.toFloats r'.jsonl with
  | error e' =>
    rw [hi, except_error_bind] at he
    cases he
    exact .inl rfl
  | ok i =>
    obtain ⟨hfinal, hcomplete, -⟩ := hread i hi
    rw [hi, except_ok_bind] at he
    refine .inr ⟨i, rfl, ?_⟩
    cases ht : timing i r'.jsonl with
    | error e' =>
      rw [ht, except_error_bind] at he
      cases he
      exact .inl rfl
    | ok result =>
      rw [ht, except_ok_bind] at he
      cases result with
      | inl outcome => cases he
      | inr measured =>
        simp only [hfinal, hcomplete, Option.getD_some, hreconciled] at he
        exact .inr ⟨measured, rfl, he⟩

/-! ## A session of one probe and one stream -/

namespace Sample

def reals : Reals := { RunReport.Sample.floats with same := fun x y => x = y }

def session : Session Unit where
  report := ({ start := 0, previous := 0 } : RunReport).write (RunReport.manifest (.obj []) 0)
  trackers := { RunReport.Sample.idle with
    streams := [{ identity := (), kind := 21, staleNs := 1000, window := 64, freshnessCursor := some 0 }] }

/-- A probe is answered, two samples come with a gap between them; an interval and
a diagnostic are reported. -/
def ops : List (Op Unit) := [.sent 1 5 64, .stream 0 (.observe () 21 1 6 96 true), .reply () 1 15 7 64 true,
  .stream 0 (.observe () 21 3 8 96 true), .interval 8, .diagnostic 9 []]

theorem opened : session.Opened where
  report := ⟨.obj [], 0, rfl⟩
  probes := ⟨(), 64, 1000000000, 4096, rfl⟩
  pacing := ⟨0, 10, rfl⟩
  streams t ht := ⟨(), 21, 1000, 64, some 0, by rw [List.mem_singleton.1 ht]; rfl⟩

end Sample

theorem complete_evidence_reconciles_one_probe : ∃ (r' : RunReport) (t' : Trackers Unit),
    let s := Sample.session.run Sample.reals.toFloats RunReport.Sample.ranks Sample.ops
    s.report.finish RunReport.Sample.ranks 10 (Str.lit "duration") true s.trackers = ((r', t'), .ok ()) ∧
      ∃ i final, inspectReport Sample.reals.toFloats r'.jsonl = .ok i ∧ i.final = some final ∧ i.complete = true ∧
        reconcile Sample.reals RunReport.Sample.ranks true final = .ok () := by
  obtain ⟨⟨r', t'⟩, hf⟩ : ∃ x, let s := Sample.session.run Sample.reals.toFloats RunReport.Sample.ranks Sample.ops
      s.report.finish RunReport.Sample.ranks 10 (Str.lit "duration") true s.trackers = (x, .ok ()) :=
    ⟨_, Prod.ext rfl (by rfl)⟩
  obtain ⟨records, final, -, -, hreconciled, hread, htimely, -⟩ :=
    complete_evidence_reconciles Sample.reals RunReport.Sample.ranks Sample.opened Sample.ops hf
  obtain ⟨i, hi⟩ := htimely (by unfold Timely After; decide)
  obtain ⟨hfinal, hcomplete, -⟩ := hread i hi
  exact ⟨r', t', hf, i, final, hi, hfinal, hcomplete, hreconciled⟩

end Campaign
end Nucleo.Metrics
