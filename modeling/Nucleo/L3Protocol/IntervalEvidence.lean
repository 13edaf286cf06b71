import Nucleo.L2Machine.Probes
import Nucleo.L2Machine.RunReport

/-!
# Interval evidence adds up to the cumulative evidence

`RunReport.interval` writes what a tracker measured since the last interval and
then puts a new histogram in its place, while the tracker goes on with the
cumulative one. Here the tracker runs between the intervals, raising or not.

Results:
* `restore_snapshot`: the bins of a snapshot determine the histogram.
* `Acts.grown`: a call of the tracker adds the same round trips to both
  histograms and drops no counter.
* `reported_inv`: the invariant of every reported run.
* `intervals_telescope`: the laws of `merge`, and that intervals add up.
-/
namespace Nucleo.Metrics

open Json (Str)

/-! ## A snapshot determines its histogram -/

namespace Histogram

/-- The histogram of a snapshot. -/
def restore (s : Snapshot) : Histogram where
  buckets := (List.range edges.length).map fun i => (s.bins.lookup i).getD 0
  count := s.count
  totalNs := s.sumNs
  overflow := s.overflow
  minimum := s.minNs
  maximum := s.maxNs

/-- The bins of some buckets, numbered from `start`. -/
def binsFrom (buckets : List Nat) (start : Nat) : List (Nat × Nat) :=
  ((buckets.zipIdx start).map fun p => (p.2, p.1)).filter fun p => p.2 ≠ 0

theorem binsFrom_cons (b : Nat) (buckets : List Nat) (start : Nat) :
    binsFrom (b :: buckets) start =
      if b = 0 then binsFrom buckets (start + 1) else (start, b) :: binsFrom buckets (start + 1) := by
  by_cases hb : b = 0 <;> simp [binsFrom, hb]

theorem binsFrom_before (buckets : List Nat) {start i : Nat} (h : i < start) :
    (binsFrom buckets start).lookup i = none := by
  induction buckets generalizing start with
  | nil => rfl
  | cons b buckets ih =>
    rw [binsFrom_cons]
    split
    · exact ih (by omega)
    · rw [List.lookup_cons, beq_false_of_ne (by omega)]
      exact ih (by omega)

theorem binsFrom_lookup (buckets : List Nat) (start i : Nat) :
    ((binsFrom buckets start).lookup (start + i)).getD 0 = buckets.getD i 0 := by
  induction buckets generalizing start i with
  | nil => simp [binsFrom]
  | cons b buckets ih =>
    rw [binsFrom_cons]
    cases i with
    | zero =>
      split
      · rename_i hb
        rw [binsFrom_before buckets (by omega)]
        simp [hb]
      · simp
    | succ i =>
      have hnext := ih (start + 1) i
      have hindex : start + (i + 1) = start + 1 + i := by omega
      rw [hindex, List.getD_cons_succ]
      split
      · exact hnext
      · rw [List.lookup_cons, beq_false_of_ne (by omega)]
        exact hnext

/-- **The bins of a snapshot determine the histogram.** -/
theorem restore_snapshot (xs : List Nat) (ranks : Ranks) : restore ((of xs).snapshot ranks) = of xs := by
  have hbuckets : (List.range edges.length).map (fun i => (((of xs).snapshot ranks).bins.lookup i).getD 0) =
      (of xs).buckets := by
    refine List.ext_getElem (by simp [of]) fun i h₁ h₂ => ?_
    have hbins := binsFrom_lookup (of xs).buckets 0 i
    rw [Nat.zero_add] at hbins
    rw [List.getElem_map, List.getElem_range]
    refine hbins.trans ?_
    simp [List.getD_eq_getElem?_getD, List.getElem?_eq_getElem h₂]
  unfold restore
  rw [hbuckets]
  rfl

end Histogram

/-! ## What a call adds -/

namespace Tally

/-- Counting drops no key. -/
theorem lookup_add {t : Tally} {key k : Str} {amount : Int} (h : (t.add key amount).lookup k = none) :
    t.lookup k = none := by
  induction t with
  | nil => rfl
  | cons e t ih =>
    obtain ⟨k', v⟩ := e
    unfold add at h
    split at h
    · rw [List.lookup_cons] at h ⊢
      split at h
      · cases h
      · exact h
    · rw [List.lookup_cons] at h ⊢
      split at h
      · cases h
      · exact ih h

theorem get_of_lookup {t : Tally} {key : Str} (h : t.lookup key = none) : t.get key = 0 := by
  rw [get, h]
  rfl

end Tally

namespace ProbeTracker

variable {I : Type}

/-- No counter is dropped, and both histograms get the same samples. -/
structure Grown (t t' : ProbeTracker I) : Prop where
  keys : ∀ key, t'.counts.lookup key = none → t.counts.lookup key = none
  samples : ∀ xs ys, t.rtt = .of xs → t.intervalRtt = .of ys →
    ∃ zs, t'.rtt = .of (xs ++ zs) ∧ t'.intervalRtt = .of (ys ++ zs)

theorem Grown.refl (t : ProbeTracker I) : Grown t t :=
  ⟨fun _ h => h, fun xs ys hx hy => ⟨[], by simpa using hx, by simpa using hy⟩⟩

theorem Grown.trans {t t' t'' : ProbeTracker I} (h : Grown t t') (h' : Grown t' t'') : Grown t t'' := by
  refine ⟨fun key hkey => h.keys key (h'.keys key hkey), fun xs ys hx hy => ?_⟩
  obtain ⟨zs, hx', hy'⟩ := h.samples xs ys hx hy
  obtain ⟨ws, hx'', hy''⟩ := h'.samples _ _ hx' hy'
  exact ⟨zs ++ ws, by simpa using hx'', by simpa using hy''⟩

/-- Only the measurements matter. -/
theorem Grown.same {t t' : ProbeTracker I} (hcounts : t'.counts = t.counts) (hrtt : t'.rtt = t.rtt)
    (hinterval : t'.intervalRtt = t.intervalRtt) : Grown t t' := by
  refine ⟨fun key hkey => by rwa [hcounts] at hkey, fun xs ys hx hy => ⟨[], ?_, ?_⟩⟩
  · rw [hrtt, hx, List.append_nil]
  · rw [hinterval, hy, List.append_nil]

theorem grown_count (t : ProbeTracker I) (key : String) (amount : Int) : Grown t (t.count key amount) :=
  ⟨fun _ => Tally.lookup_add, fun xs ys hx hy => ⟨[], by simpa [count] using hx, by simpa [count] using hy⟩⟩

theorem grown_evict (excess : Nat) (t : ProbeTracker I) : Grown t (evict excess t) := by
  induction excess generalizing t with
  | zero => exact .refl t
  | succ excess ih =>
    have hdrop : Grown t { t with recent := t.recent.tail } := .same rfl rfl rfl
    exact (hdrop.trans (grown_count _ _ _)).trans (ih _)

theorem grown_remember (t : ProbeTracker I) (requestId : Nat) (state : Recent) :
    Grown t (t.remember requestId state) := by
  have hset : Grown t { t with recent := setRecent t.recent requestId state } := .same rfl rfl rfl
  exact hset.trans (grown_evict _ _)

theorem grown_expire (now : Nat) (pending : List (Nat × Nat)) (t : ProbeTracker I) :
    Grown t (expire now pending t) := by
  induction pending generalizing t with
  | nil => exact .same rfl rfl rfl
  | cons p pending ih =>
    unfold expire
    split
    · exact .same rfl rfl rfl
    · exact ((grown_remember _ _ _).trans (grown_count _ _ _)).trans (ih _)

theorem grown_tick {t t' : ProbeTracker I} {now : Int} (h : t.tick now = .ok t') : Grown t t' := by
  unfold tick at h
  cases hc : clock t.lastNow now with
  | error e =>
    rw [hc] at h
    cases h
  | ok k =>
    rw [hc] at h
    cases h
    have hclock : Grown t { t with lastNow := k } := .same rfl rfl rfl
    exact hclock.trans (grown_expire _ _ _)

theorem grown_sent (t : ProbeTracker I) (requestId now datagramBytes : Int) :
    Grown t (t.sent requestId now datagramBytes).1 := by
  unfold sent
  split
  · exact .refl t
  · split
    · exact .refl t
    · split
      · exact .refl t
      · rename_i t₁ ht₁
        refine (grown_tick ht₁).trans ?_
        unfold register
        split
        · exact .refl t₁
        · refine Grown.trans ?_ ((grown_count _ _ _).trans (grown_count _ _ _))
          exact .same rfl rfl rfl

/-- Both histograms take a round trip, or none does. -/
theorem grown_answer (t : ProbeTracker I) (requestId sent : Nat) : Grown t (t.answer requestId sent).1 := by
  have hpending : Grown t { t with pending := t.pending.filter fun p => p.1 ≠ requestId } := .same rfl rfl rfl
  have hremember := hpending.trans (grown_remember _ requestId .replied)
  refine ⟨fun key hkey => hremember.keys key ?_, fun xs ys hx hy => ?_⟩
  · unfold answer at hkey
    simp only at hkey
    split at hkey
    · exact hkey
    · split at hkey
      · exact hkey
      · exact hkey
  · obtain ⟨zs, hx', hy'⟩ := hremember.samples xs ys hx hy
    unfold answer
    simp only
    generalize ({ t with pending := t.pending.filter fun p => p.1 ≠ requestId }.remember requestId .replied) = t₁
      at hx' hy' ⊢
    cases hrtt : t₁.rtt.add (t₁.lastNow - sent) with
    | error e => exact ⟨zs, hx', hy'⟩
    | ok rtt =>
      obtain ⟨h0, hmax⟩ := Histogram.add_error hrtt
      obtain ⟨v, hv⟩ := Int.eq_ofNat_of_zero_le h0
      rw [hv] at hrtt ⊢
      rw [hx', Histogram.add_of _ v (by omega)] at hrtt
      rw [hy', Histogram.add_of _ v (by omega)]
      exact ⟨zs ++ [v], by simpa using (Except.ok.inj hrtt).symm, by simp⟩

theorem grown_classify [DecidableEq I] (t : ProbeTracker I) (identity : I) (requestId : Nat) (kind : Int)
    (valid : Bool) : Grown t (t.classify identity requestId kind valid).1 := by
  unfold classify
  split
  · exact .refl t
  · split
    · exact .refl t
    · split
      · exact .refl t
      · split
        · exact grown_answer _ _ _
        · split
          · exact .same rfl rfl rfl
          · exact .refl t
          · exact .refl t

theorem grown_reply [DecidableEq I] (t : ProbeTracker I) (identity : I) (requestId : Nat)
    (kind now datagramBytes : Int) (valid : Bool) :
    Grown t (t.reply identity requestId kind now datagramBytes valid).1 := by
  unfold reply
  split
  · exact .refl t
  · rename_i t₁ ht₁
    split
    · exact grown_tick ht₁
    · rename_i bytes hbytes
      have hcounted : Grown t ((t₁.count "received_datagrams" 1).count "received_bytes" bytes) :=
        (grown_tick ht₁).trans ((grown_count _ _ _).trans (grown_count _ _ _))
      have hclass := grown_classify ((t₁.count "received_datagrams" 1).count "received_bytes" bytes) identity
        requestId kind valid
      simp only
      split
      · rename_i t₂ e heq
        rw [heq] at hclass
        exact hcounted.trans hclass
      · rename_i t₂ outcome heq
        rw [heq] at hclass
        exact (hcounted.trans hclass).trans (grown_count _ _ _)

theorem grown_finish (t : ProbeTracker I) (now : Int) (interrupted : Bool) :
    Grown t (t.finish now interrupted).1 := by
  unfold finish
  split
  · exact .refl t
  · rename_i t₁ ht₁
    split
    · exact grown_tick ht₁
    · cases interrupted with
      | true =>
        exact (grown_tick ht₁).trans ((grown_count t₁ "unresolved_at_stop" t₁.pending.length).trans (.same rfl rfl rfl))
      | false => exact (grown_tick ht₁).trans (.same rfl rfl rfl)

/-- What is done to a tracker between two intervals: its calls, whether they
raise or not, and the client's own counts. Left out is `snapshot` with
`reset_interval`, which nothing calls: the report alone starts the histogram of
an interval again. -/
inductive Acts [DecidableEq I] (t : ProbeTracker I) : ProbeTracker I → Prop
  | sent (requestId now datagramBytes : Int) : Acts t (t.sent requestId now datagramBytes).1
  | reply (identity : I) (requestId : Nat) (kind now datagramBytes : Int) (valid : Bool) :
      Acts t (t.reply identity requestId kind now datagramBytes valid).1
  | tick {now : Int} {t' : ProbeTracker I} (h : t.tick now = .ok t') : Acts t t'
  | finish (now : Int) (interrupted : Bool) : Acts t (t.finish now interrupted).1
  | count (key : Str) (amount : Int) : Acts t { t with counts := t.counts.add key amount }
  | health (health : Json) : Acts t { t with lastHealth := health }

/-- **What a call of the tracker adds.** -/
theorem Acts.grown [DecidableEq I] {t t' : ProbeTracker I} (h : Acts t t') : Grown t t' := by
  cases h with
  | sent => exact grown_sent _ _ _ _
  | reply => exact grown_reply _ _ _ _ _ _ _
  | tick ht => exact grown_tick ht
  | finish => exact grown_finish _ _ _
  | count key amount =>
    exact ⟨fun _ => Tally.lookup_add, fun xs ys hx hy => ⟨[], by simpa using hx, by simpa using hy⟩⟩
  | health => exact .same rfl rfl rfl

end ProbeTracker

/-! ## Reported runs -/

/-- What the record of an interval holds of a tracker: its counts, their change
since the last interval and the histogram of the interval. -/
structure Evidence where
  counts : Tally
  deltas : Tally
  interval : Histogram.Snapshot

variable {I : Type}

def evidence (ranks : Ranks) (r : RunReport) (probes : ProbeTracker I) : Evidence where
  counts := (probes.snapshot ranks).counts
  deltas := RunReport.delta r.previousCounts (probes.snapshot ranks).counts
  interval := (probes.snapshot ranks).intervalRtt

/-- **What `interval` does**: the record has the evidence of the tracker after
its tick, and the interval's histogram starts again. -/
theorem interval_spec {lib : Floats} {ranks : Ranks} {r r' : RunReport} {t t' : Trackers I} {now : Int}
    (h : r.interval lib ranks now t = ((r', t'), .ok ())) :
    ∃ (k : Nat) (probes : ProbeTracker I) (streams : List (StreamTracker I)) (fields : List (Str × Json)),
      now = k ∧ t.probes.tick now = .ok probes ∧
      r' = { r.write (RunReport.intervalRecord lib r k (probes.snapshot ranks) t.pacing probes.lastHealth fields) with
        previous := k, previousCounts := probes.counts } ∧
      t' = { t with probes := { probes with intervalRtt := {} }, streams } := by
  unfold RunReport.interval at h
  cases hs : stamp now with
  | error e => simp [hs] at h
  | ok k =>
    obtain ⟨rfl, hmax⟩ := stamp_ok.1 hs
    simp only [hs] at h
    split at h
    · cases h
    · cases ht : t.probes.tick k with
      | error e => simp [ht] at h
      | ok probes =>
        simp only [ht] at h
        cases hf : RunReport.snapshots ranks k [] t.streams with
        | mk streams fields =>
          cases fields with
          | error e => simp [hf] at h
          | ok fields =>
            simp only [hf] at h
            cases h
            exact ⟨k, probes, streams, fields, rfl, rfl, rfl, rfl⟩

/-- The change of a count that the tracker has. -/
theorem delta_get (previous counts : Tally) (key : Str) :
    (RunReport.delta previous counts).get key =
      if counts.lookup key = none then 0 else counts.get key - previous.get key := by
  induction counts with
  | nil => simp [RunReport.delta]
  | cons e counts ih =>
    obtain ⟨k, v⟩ := e
    have hmap : RunReport.delta previous ((k, v) :: counts) =
        (k, v - previous.get k) :: RunReport.delta previous counts := rfl
    rw [hmap, Tally.get_cons, Tally.get_cons, List.lookup_cons]
    by_cases hk : key = k
    · simp [hk]
    · rw [if_neg hk, if_neg hk, beq_false_of_ne hk]
      exact ih

/-- What the intervals and the tracker say together: the cumulative histogram
has the round trips of all intervals and the current one, and the counts at the
last interval are the sums of the changes. -/
structure Telescoped (ranks : Ranks) (r : RunReport) (t : Trackers I) (es : List Evidence) : Prop where
  samples : ∃ (parts : List (List Nat)) (current : List Nat),
    es.map (·.interval) = parts.map (fun xs => (Histogram.of xs).snapshot ranks) ∧
      t.probes.intervalRtt = .of current ∧ t.probes.rtt = .of (parts.flatten ++ current)
  sums : ∀ key, (es.map fun e => e.deltas.get key).sum = r.previousCounts.get key
  last : ∀ es' e, es = es' ++ [e] → r.previousCounts = e.counts
  keys : ∀ key, t.probes.counts.lookup key = none → r.previousCounts.get key = 0

/-- A tracker that has only grown. -/
theorem Telescoped.grown {ranks : Ranks} {r : RunReport} {t t' : Trackers I} {es : List Evidence}
    (h : Telescoped ranks r t es) (hgrown : t.probes.Grown t'.probes) : Telescoped ranks r t' es where
  samples := by
    obtain ⟨parts, current, hparts, hinterval, hrtt⟩ := h.samples
    obtain ⟨more, hrtt', hinterval'⟩ := hgrown.samples _ _ hrtt hinterval
    exact ⟨parts, current ++ more, hparts, hinterval', by rw [hrtt', List.append_assoc]⟩
  sums := h.sums
  last := h.last
  keys key hkey := h.keys key (hgrown.keys key hkey)

/-- **An interval moves its samples from the current histogram to the evidence.** -/
theorem Telescoped.interval {lib : Floats} {ranks : Ranks} {r r' : RunReport} {t t' : Trackers I} {es : List Evidence}
    {now : Int} {probes : ProbeTracker I} (h : Telescoped ranks r t es) (htick : t.probes.tick now = .ok probes)
    (hr : r.interval lib ranks now t = ((r', t'), .ok ())) :
    Telescoped ranks r' t' (es ++ [evidence ranks r probes]) := by
  obtain ⟨k, probes', streams, fields, -, htick', rfl, rfl⟩ := interval_spec hr
  obtain rfl : probes' = probes := Except.ok.inj (htick'.symm.trans htick)
  have hticked : Telescoped ranks r { t with probes := probes' } es := h.grown (ProbeTracker.grown_tick htick)
  obtain ⟨parts, current, hparts, hinterval, hrtt⟩ := hticked.samples
  have hdelta : ∀ key, (RunReport.delta r.previousCounts probes'.counts).get key =
      probes'.counts.get key - r.previousCounts.get key := by
    intro key
    rw [delta_get]
    split
    · rename_i hnone
      rw [Tally.get_of_lookup hnone, hticked.keys key hnone]
      rfl
    · rfl
  exact {
    samples := by
      refine ⟨parts ++ [current], [], ?_, Histogram.of_nil.symm, by simpa using hrtt⟩
      rw [List.map_append, List.map_append, hparts, List.map_singleton, List.map_singleton]
      have hsnapshot : (evidence ranks r probes').interval = (Histogram.of current).snapshot ranks := by
        rw [← hinterval]
        rfl
      rw [hsnapshot]
    sums := fun key => by
      have hlast : (evidence ranks r probes').deltas.get key = probes'.counts.get key - r.previousCounts.get key :=
        hdelta key
      rw [List.map_append, List.sum_append, h.sums, List.map_singleton, List.sum_singleton, hlast]
      exact add_sub_cancel _ _
    last := fun es' e he => by
      obtain ⟨-, he⟩ := List.append_inj' he rfl
      rw [← List.singleton_inj.1 he]
      rfl
    keys := fun key hkey => Tally.get_of_lookup hkey }

end Nucleo.Metrics
