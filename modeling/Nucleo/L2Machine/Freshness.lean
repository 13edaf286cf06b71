import Nucleo.L2Machine.StreamTracker

/-!
# The freshness clock of a stream

`freshness_ns` splits the time since `start_ns` into not seen, fresh and stale,
piece by piece: every call adds the time since the one before. Here an instant
is a nanosecond, and what it is depends on the times of forward progress alone.

Results:
* `run_counted`: the totals count the instants of each kind.
* `freshness_partitions`: the totals, what idle calls cannot change and what
  follows the first `finish`.
-/
namespace Nucleo.Metrics

/-! ## Instants -/

/-- The last of the times up to an instant. -/
def latest (times : List Nat) (instant : Nat) : Option Nat := (times.filter (· ≤ instant)).getLast?

/-- What an instant is, from the times of forward progress. -/
def freshnessAt (staleNs : Nat) (times : List Nat) (instant : Nat) : Freshness :=
  match latest times instant with
  | none => .notSeen
  | some progress => if instant < progress + staleNs then .fresh else .stale

/-- The instants of one kind in a span of time. -/
def measure (staleNs : Nat) (times : List Nat) (start stop : Nat) (kind : Freshness) : Nat :=
  ((Finset.Ico start stop).filter fun instant => freshnessAt staleNs times instant = kind).card

section Instants

variable {staleNs : Nat} {times : List Nat} {start mid stop : Nat} {kind : Freshness}

theorem measure_self : measure staleNs times start start kind = 0 := by
  simp [measure]

theorem measure_append (h1 : start ≤ mid) (h2 : mid ≤ stop) :
    measure staleNs times start stop kind =
      measure staleNs times start mid kind + measure staleNs times mid stop kind := by
  unfold measure
  rw [← Finset.Ico_union_Ico_eq_Ico h1 h2, Finset.filter_union, Finset.card_union_of_disjoint]
  exact Finset.disjoint_filter_filter (Finset.Ico_disjoint_Ico_consecutive start mid stop)

theorem measure_congr {times' : List Nat}
    (h : ∀ instant, start ≤ instant → instant < stop →
      freshnessAt staleNs times instant = freshnessAt staleNs times' instant) :
    measure staleNs times start stop kind = measure staleNs times' start stop kind := by
  unfold measure
  refine congrArg Finset.card (Finset.filter_congr fun instant hi => ?_)
  rw [Finset.mem_Ico] at hi
  rw [h instant hi.1 hi.2]

/-- Every instant is of one kind. -/
theorem measure_total :
    measure staleNs times start stop .notSeen + measure staleNs times start stop .fresh +
      measure staleNs times start stop .stale = stop - start := by
  simp only [measure, Finset.card_filter, ← Finset.sum_add_distrib]
  rw [Finset.sum_congr rfl fun instant _ => show _ = 1 by cases freshnessAt staleNs times instant <;> rfl]
  simp

/-- A later time says nothing of an earlier instant. -/
theorem latest_snoc {instant now : Nat} (h : instant < now) :
    latest (times ++ [now]) instant = latest times instant := by
  unfold latest
  rw [List.filter_append]
  have hnone : [now].filter (· ≤ instant) = [] := by
    simp [h]
  rw [hnone, List.append_nil]

/-- Past the last time, it is the latest. -/
theorem latest_last {instant : Nat} (h : ∀ time ∈ times, time ≤ instant) : latest times instant = times.getLast? := by
  unfold latest
  rw [List.filter_eq_self.2]
  intro time ht
  simpa using h time ht

theorem freshnessAt_last {instant : Nat} (h : ∀ time ∈ times, time ≤ instant) :
    freshnessAt staleNs times instant = match times.getLast? with
      | none => .notSeen
      | some progress => if instant < progress + staleNs then .fresh else .stale := by
  rw [freshnessAt, latest_last h]

/-- Before any progress. -/
theorem measure_notSeen : measure staleNs [] start stop kind = if kind = .notSeen then stop - start else 0 := by
  unfold measure
  simp only [show ∀ instant, freshnessAt staleNs [] instant = .notSeen from fun _ => rfl, Finset.filter_const,
    eq_comm]
  split
  · rw [Nat.card_Ico]
  · rfl

/-- After the last progress: fresh up to the boundary. -/
theorem measure_seen {progress : Nat} (h : times.getLast? = some progress) (hle : ∀ time ∈ times, time ≤ start) :
    measure staleNs times start stop kind = match kind with
      | .notSeen => 0
      | .fresh => min stop (progress + staleNs) - start
      | .stale => stop - max start (progress + staleNs) := by
  have hat : ∀ instant ∈ Finset.Ico start stop, freshnessAt staleNs times instant =
      if instant < progress + staleNs then .fresh else .stale := by
    intro instant hi
    rw [Finset.mem_Ico] at hi
    rw [freshnessAt_last fun time ht => Nat.le_trans (hle time ht) hi.1, h]
  unfold measure
  rw [Finset.filter_congr fun instant hi => by rw [hat instant hi]]
  cases kind with
  | notSeen =>
    refine Finset.card_eq_zero.2 (Finset.filter_eq_empty_iff.2 fun instant _ => ?_)
    split <;> exact Freshness.noConfusion
  | fresh =>
    have hlt : ∀ instant, ((if instant < progress + staleNs then Freshness.fresh else .stale) = .fresh) ↔
        instant < progress + staleNs := by
      intro instant
      split <;> simp_all
    simp only [hlt, Finset.Ico_filter_lt, Nat.card_Ico]
  | stale =>
    have hge : ∀ instant, ((if instant < progress + staleNs then Freshness.fresh else .stale) = .stale) ↔
        progress + staleNs ≤ instant := by
      intro instant
      split <;> simp_all
    simp only [hge, Finset.Ico_filter_le, Nat.card_Ico]

/-- Not seen is before the first of the times. -/
theorem measure_baseline (hs : times.Pairwise (· ≤ ·)) (hle : ∀ time ∈ times, time ≤ stop) :
    measure staleNs times start stop .notSeen = times.head?.getD stop - start := by
  cases times with
  | nil =>
    rw [measure_notSeen]
    rfl
  | cons baseline times =>
    have hat : ∀ instant, freshnessAt staleNs (baseline :: times) instant = .notSeen ↔ instant < baseline := by
      intro instant
      unfold freshnessAt latest
      rw [List.pairwise_cons] at hs
      constructor
      · intro hnone
        by_contra hge
        rw [List.filter_cons_of_pos (by simpa using hge)] at hnone
        rw [List.getLast?_cons] at hnone
        simp only at hnone
        split at hnone <;> cases hnone
      · intro hlt
        have hfilter : (baseline :: times).filter (· ≤ instant) = [] := by
          refine List.filter_eq_nil_iff.2 fun time ht => ?_
          have hbase : baseline ≤ time := by
            rcases List.mem_cons.1 ht with rfl | ht
            · exact Nat.le_refl _
            · exact hs.1 time ht
          simp only [decide_eq_true_eq]
          omega
        rw [hfilter]
        rfl
    unfold measure
    rw [Finset.filter_congr fun instant _ => hat instant, Finset.Ico_filter_lt, Nat.card_Ico,
      Nat.min_eq_right (hle baseline List.mem_cons_self)]
    rfl

end Instants

/-! ## What moves the clock -/

namespace StreamTracker

variable {I : Type} [DecidableEq I]

/-- The time of a baseline or a progress. -/
def progressAt : Call I → Except String Answer → Option Nat
  | .observe _ _ _ now _ _, .ok (.outcome .baseline) => some now.toNat
  | .observe _ _ _ now _ _, .ok (.outcome .progress) => some now.toNat
  | _, _ => none

/-- The times of forward progress in a run. -/
def progressTimes (t : StreamTracker I) (calls : List (Call I)) : List Nat :=
  (machine.trace t calls).filterMap fun e => progressAt e.2.1 e.2.2

theorem progressTimes_cons (t : StreamTracker I) (c : Call I) (calls : List (Call I)) :
    progressTimes t (c :: calls) =
      (progressAt c (machine.out t c)).toList ++ progressTimes (machine.next t c) calls := by
  unfold progressTimes
  rw [Machine.trace_cons]
  cases hpa : progressAt c (machine.out t c) <;> simp [hpa]

/-- The times of the calls do not go back and are clock readings. -/
def Paced (now : Int) : List (Call I) → Prop
  | [] => True
  | c :: calls => now ≤ c.now ∧ c.now ≤ 2 ^ 63 - 1 ∧ Paced c.now calls

instance Paced.decidable : (now : Int) → (calls : List (Call I)) → Decidable (Paced now calls)
  | _, [] => isTrue trivial
  | now, c :: calls =>
    have := Paced.decidable c.now calls
    inferInstanceAs (Decidable (now ≤ c.now ∧ c.now ≤ 2 ^ 63 - 1 ∧ Paced c.now calls))

/-- The time of the first `finish`, or else of the last call. -/
def horizon (now : Int) : List (Call I) → Int
  | [] => now
  | .finish now :: _ => now
  | c :: calls => horizon c.now calls

def Call.isFinish : Call I → Bool
  | .finish _ => true
  | _ => false

/-- A move, told by what the freshness clock reads of it. -/
structure Clocked (t : StreamTracker I) (c : Call I) (answer : Except String Answer) (t' : StreamTracker I) : Prop where
  lastNow : t'.lastNow = t.lastNow
  staleNs : t'.staleNs = t.staleNs
  freshnessNs : t'.freshnessNs = t.freshnessNs
  freshnessCursor : t'.freshnessCursor = t.freshnessCursor
  identity : t'.identity = t.identity
  kind : t'.kind = t.kind
  closed : t'.closed = (t.closed || c.isFinish)
  finishedAt : t'.finishedAt = if t.closed = false ∧ c.isFinish = true then some t.lastNow else t.finishedAt
  highest : t'.highest = (t.forwards c).elim t.highest some
  progress : progressAt c answer = (t.forwards c).map fun _ => c.now.toNat
  lastProgress : t'.lastProgress = (t.forwards c).elim t.lastProgress fun _ => some t.lastNow

omit [DecidableEq I] in
theorem progressAt_idle (c : Call I) {outcome : Outcome} (ho : outcome.accepts = false) :
    progressAt c (.ok (.outcome outcome)) = none := by
  cases outcome with
  | baseline | progress | reorderedPublication => cases ho
  | _ => cases c <;> rfl

theorem Move.clocked {t t' : StreamTracker I} {c : Call I} {answer : Except String Answer} (hm : Move t c answer t') :
    Clocked t c answer t' := by
  have packet : ∀ {identity kind sequence now bytes valid},
      (t.closed || (Call.observe identity kind sequence now bytes valid : Call I).isFinish) = t.closed ∧
      (if t.closed = false ∧ (Call.observe identity kind sequence now bytes valid : Call I).isFinish = true
        then some t.lastNow else t.finishedAt) = t.finishedAt := by
    intros
    exact ⟨Bool.or_false _, if_neg fun h => Bool.noConfusion h.2⟩
  cases hm with
  | raised e hf =>
    exact ⟨rfl, rfl, rfl, rfl, rfl, rfl, packet.1.symm, packet.2.symm, by rw [hf]; rfl, by rw [hf]; rfl,
      by rw [hf]; rfl⟩
  | idle ho hf =>
    exact ⟨rfl, rfl, rfl, rfl, rfl, rfl, packet.1.symm, packet.2.symm, by rw [hf]; rfl,
      by rw [hf, progressAt_idle _ ho]; rfl, by rw [hf]; rfl⟩
  | reordered hc hh hs hb hw hclear hf =>
    exact ⟨rfl, rfl, rfl, rfl, rfl, rfl, packet.1.symm, packet.2.symm, by rw [hf]; rfl, by rw [hf]; rfl,
      by rw [hf]; rfl⟩
  | baseline hc hh hs hf | progress hc hh hs ha h0 hf =>
    exact ⟨rfl, rfl, rfl, rfl, rfl, rfl, packet.1.symm, packet.2.symm, by rw [hf]; rfl, by rw [hf]; rfl,
      by rw [hf]; rfl⟩
  | snapshot ranks now s =>
    exact ⟨rfl, rfl, rfl, rfl, rfl, rfl, by simp [Call.isFinish], by simp [Call.isFinish], rfl, rfl, rfl⟩
  | again now hc => exact ⟨rfl, rfl, rfl, rfl, rfl, rfl, by simp [hc], by simp [hc], rfl, rfl, rfl⟩
  | finish now hc =>
    exact ⟨rfl, rfl, rfl, rfl, rfl, rfl, by simp [Call.isFinish], by simp [hc, Call.isFinish], rfl, rfl, rfl⟩

/-! ## The totals -/

/-- Where the counted time ends. -/
def stop (t : StreamTracker I) : Nat := t.finishedAt.getD t.lastNow

/-- The totals count the instants from `start` on. -/
structure Counted (t : StreamTracker I) (times : List Nat) (start : Nat) : Prop where
  timed : t.Timed
  started : start ≤ t.stop
  reached : t.stop ≤ t.lastNow
  cursor : t.freshnessCursor = some t.lastNow
  closed : t.closed = t.finishedAt.isSome
  last : t.lastProgress = times.getLast?
  past : ∀ time ∈ times, start ≤ time ∧ time ≤ t.stop
  sorted : times.Pairwise (· ≤ ·)
  totals : ∀ kind, t.freshnessNs kind = measure t.staleNs times start t.stop kind

omit [DecidableEq I] in
/-- One piece of time. -/
theorem Counted.elapsed {t : StreamTracker I} {times : List Nat} {start now : Nat} (h : Counted t times start)
    (hc : t.closed = false) (hle : t.lastNow ≤ now) (kind : Freshness) :
    t.elapsed now kind = measure t.staleNs times start now kind := by
  have hstop : t.stop = t.lastNow := by
    have hnone : t.finishedAt = none := by simpa [hc] using h.closed
    rw [stop, hnone]
    rfl
  have htotal := h.totals kind
  have hpast := h.past
  have hstarted := h.started
  rw [hstop] at htotal hpast hstarted
  rw [measure_append hstarted hle]
  push_cast
  rw [← htotal]
  unfold StreamTracker.elapsed
  simp only [h.cursor, hc, Bool.false_eq_true, if_false]
  have hlast := h.last
  cases hp : times.getLast? with
  | none =>
    obtain rfl := List.getLast?_eq_none_iff.1 hp
    rw [hlast, hp, measure_notSeen]
    simp only [Counter.add]
    split
    · omega
    · omega
  | some progress =>
    rw [hlast, hp, measure_seen hp fun time ht => (hpast time ht).2]
    have hprogress := hpast progress (List.mem_of_getLast? hp)
    cases kind with
    | notSeen => simp [Counter.add]
    | fresh =>
      simp only [Counter.add, if_true, reduceCtorEq, if_false]
      omega
    | stale =>
      simp only [Counter.add, if_true, reduceCtorEq, if_false]
      omega

theorem forwards_open {t : StreamTracker I} {c : Call I} {sequence : Nat} (h : t.forwards c = some sequence) :
    t.closed = false := by
  cases c with
  | observe =>
    simp only [forwards] at h
    by_contra hc
    rw [if_neg fun hf => hc hf.2.2.2.2.2.1] at h
    cases h
  | _ => cases h

/-- A call that the clock accepts. -/
theorem clocked_call {t : StreamTracker I} (ht : t.Timed) {c : Call I} (hle : t.lastNow ≤ c.now)
    (hmax : c.now ≤ 2 ^ 63 - 1) :
    ∃ now : Nat, c.now = now ∧ t.lastNow ≤ now ∧ now ≤ 2 ^ 63 - 1 ∧ (machine.next t c).Timed ∧
      Clocked (t.tick now) c (machine.out t c) (machine.next t c) := by
  rcases next_cases ht c with ⟨hbad, -⟩ | ⟨now, hn, hle, hmax, hm⟩
  · exact absurd ⟨hle, hmax⟩ hbad
  · exact ⟨now, hn, hle, hmax, hm.timed (ht.tick hle hmax), hm.clocked⟩

theorem Counted.next {t : StreamTracker I} {times : List Nat} {start : Nat} (h : Counted t times start) {c : Call I}
    (hle : t.lastNow ≤ c.now) (hmax : c.now ≤ 2 ^ 63 - 1) :
    Counted (machine.next t c) (times ++ (progressAt c (machine.out t c)).toList) start ∧
      (machine.next t c).lastNow = c.now ∧ (machine.next t c).closed = (t.closed || c.isFinish) ∧
      ((machine.next t c).stop : Int) = if t.closed then (t.stop : Int) else c.now := by
  obtain ⟨now, hn, hle, hmax, ht, hk⟩ := clocked_call h.timed hle hmax
  have hlast : (machine.next t c).lastNow = now := hk.lastNow
  have hclosed : (machine.next t c).closed = (t.closed || c.isFinish) := hk.closed
  have hstop : (machine.next t c).stop = if t.closed then t.stop else now := by
    rw [stop, hk.finishedAt, hlast]
    cases hc : t.closed with
    | true =>
      have hsome := h.closed
      rw [hc] at hsome
      obtain ⟨e, he⟩ := Option.isSome_iff_exists.1 hsome.symm
      simp [tick, hc, stop, he]
    | false =>
      have hnone : t.finishedAt = none := by simpa [hc] using h.closed
      cases hf : c.isFinish <;> simp [tick, hc, hnone]
  have hgrows : t.stop ≤ (machine.next t c).stop ∧ (machine.next t c).stop ≤ now := by
    have hreached := h.reached
    rw [hstop]
    split <;> omega
  have hpast : ∀ time ∈ times, start ≤ time ∧ time ≤ (machine.next t c).stop := fun time ht =>
    ⟨(h.past time ht).1, Nat.le_trans (h.past time ht).2 hgrows.1⟩
  have htotals : ∀ kind, t.elapsed now kind = measure t.staleNs times start (machine.next t c).stop kind := by
    intro kind
    rw [hstop]
    cases hc : t.closed with
    | true =>
      rw [if_pos rfl, ← h.totals kind]
      simp [StreamTracker.elapsed, h.cursor, hc]
    | false => exact h.elapsed hc hle kind
  refine ⟨?_, by rw [hlast, hn], hclosed, by rw [hstop, hn]; split <;> rfl⟩
  have hprogress : progressAt c (machine.out t c) = ((t.tick now).forwards c).map fun _ => now := by
    rw [hk.progress, hn]
    rfl
  have hsome : (machine.next t c).closed = (machine.next t c).finishedAt.isSome := by
    rw [hclosed, hk.finishedAt]
    cases hc : t.closed with
    | true => simp [tick, hc, ← h.closed]
    | false =>
      have hnone : t.finishedAt = none := by simpa [hc] using h.closed
      cases hf : c.isFinish <;> simp [tick, hc, hnone]
  have hcursor : (machine.next t c).freshnessCursor = some (machine.next t c).lastNow := by
    rw [hlast]
    exact hk.freshnessCursor
  have hstarted : start ≤ (machine.next t c).stop := Nat.le_trans h.started hgrows.1
  have hreached : (machine.next t c).stop ≤ (machine.next t c).lastNow := hlast ▸ hgrows.2
  rw [hprogress]
  cases hf : (t.tick now).forwards c with
  | none =>
    rw [Option.map_none, Option.toList_none, List.append_nil]
    refine ⟨ht, hstarted, hreached, hcursor, hsome, ?_, hpast, h.sorted, fun kind => ?_⟩
    · rw [hk.lastProgress, hf]
      exact h.last
    · rw [hk.freshnessNs, hk.staleNs]
      exact htotals kind
  | some sequence =>
    have hopen : t.closed = false := forwards_open hf
    rw [Option.map_some, Option.toList_some]
    have hend : (machine.next t c).stop = now := by rw [hstop, hopen, if_neg (by decide)]
    refine ⟨ht, hstarted, hreached, hcursor, hsome, ?_, ?_, ?_, fun kind => ?_⟩
    · rw [hk.lastProgress, hf, List.getLast?_append]
      rfl
    · intro time ht
      rcases List.mem_append.1 ht with ht | ht
      · exact hpast time ht
      · obtain rfl := List.mem_singleton.1 ht
        exact ⟨Nat.le_trans hstarted (Nat.le_of_eq hend), Nat.le_of_eq hend.symm⟩
    · rw [List.pairwise_append]
      refine ⟨h.sorted, List.pairwise_singleton _ _, fun a ha b hb => ?_⟩
      obtain rfl := List.mem_singleton.1 hb
      exact hend ▸ (hpast a ha).2
    · rw [hk.freshnessNs, hk.staleNs]
      refine (htotals kind).trans (congrArg Nat.cast ?_)
      -- the new time is the end of the span
      rw [hend]
      exact measure_congr fun instant _ hlt => by rw [freshnessAt, freshnessAt, latest_snoc hlt]

/-- **The totals of a run count the instants up to its horizon.** -/
theorem run_counted {t : StreamTracker I} {times : List Nat} {start : Nat} (h : Counted t times start)
    {calls : List (Call I)} (hp : Paced t.lastNow calls) :
    Counted (machine.run t calls) (times ++ progressTimes t calls) start ∧
      ((machine.run t calls).stop : Int) = if t.closed then (t.stop : Int) else horizon t.lastNow calls := by
  induction calls generalizing t times with
  | nil =>
    simp only [Machine.run_nil, progressTimes, Machine.trace_nil, List.filterMap_nil, List.append_nil]
    refine ⟨h, ?_⟩
    cases hc : t.closed with
    | true => rfl
    | false =>
      have hnone : t.finishedAt = none := by simpa [hc] using h.closed
      simp [stop, hnone, horizon]
  | cons c calls ih =>
    obtain ⟨hle, hmax, hp⟩ := hp
    obtain ⟨hnext, hlast, hclosed, hstop⟩ := h.next hle hmax
    rw [← hlast] at hp
    obtain ⟨ih1, ih2⟩ := ih hnext hp
    rw [Machine.run_cons, progressTimes_cons, ← List.append_assoc]
    refine ⟨ih1, ih2.trans ?_⟩
    rw [hclosed, hlast, hstop]
    cases hc : t.closed with
    | true => rfl
    | false => cases c <;> rfl

/-! ## Idle calls -/

/-- A snapshot, or an observation that is no forward progress. -/
def Idle (t : StreamTracker I) (c : Call I) : Prop :=
  c.isFinish = false ∧ progressAt c (machine.out t c) = none

/-- The second run leaves out some idle calls of the first. -/
inductive Thins : StreamTracker I → List (Call I) → List (Call I) → Prop
  | nil (t : StreamTracker I) : Thins t [] []
  | keep {t : StreamTracker I} {calls calls' : List (Call I)} (c : Call I)
      (h : Thins (machine.next t c) calls calls') : Thins t (c :: calls) (c :: calls')
  | drop {t : StreamTracker I} {calls calls' : List (Call I)} {c : Call I} (hi : Idle t c)
      (h : Thins (machine.next t c) calls calls') : Thins t (c :: calls) calls'

theorem Thins.snoc {t : StreamTracker I} {calls calls' : List (Call I)} (h : Thins t calls calls') (c : Call I) :
    Thins t (calls ++ [c]) (calls' ++ [c]) := by
  induction h with
  | nil => exact .keep c (.nil _)
  | keep d _ ih => exact .keep d ih
  | drop hi _ ih => exact .drop hi ih

/-- What decides whether a packet is forward. -/
structure Alike (t t' : StreamTracker I) : Prop where
  timed : t.Timed
  timed' : t'.Timed
  identity : t'.identity = t.identity
  kind : t'.kind = t.kind
  highest : t'.highest = t.highest
  closed : t'.closed = t.closed
  behind : t'.lastNow ≤ t.lastNow

theorem Alike.forwards {t t' : StreamTracker I} (h : Alike t t') (c : Call I) : t'.forwards c = t.forwards c := by
  cases c with
  | observe => simp only [StreamTracker.forwards, h.identity, h.kind, h.highest, h.closed]
  | _ => rfl

/-- A kept call is the same in both runs. -/
theorem Alike.keep {t t' : StreamTracker I} (h : Alike t t') {c : Call I} (hle : t.lastNow ≤ c.now)
    (hmax : c.now ≤ 2 ^ 63 - 1) :
    Alike (machine.next t c) (machine.next t' c) ∧
      progressAt c (machine.out t' c) = progressAt c (machine.out t c) ∧ (machine.next t c).lastNow = c.now ∧
      (machine.next t' c).lastNow = c.now := by
  have hbehind := h.behind
  obtain ⟨now, hn, -, -, ht, hk⟩ := clocked_call h.timed hle hmax
  obtain ⟨now', hn', -, -, ht', hk'⟩ := clocked_call h.timed' (by omega) hmax
  obtain rfl : now = now' := by omega
  have hf : (t'.tick now).forwards c = (t.tick now).forwards c := h.forwards c
  have hlast : (machine.next t c).lastNow = now := hk.lastNow
  have hlast' : (machine.next t' c).lastNow = now := hk'.lastNow
  refine ⟨⟨ht, ht', ?_, ?_, ?_, ?_, Nat.le_of_eq (hlast'.trans hlast.symm)⟩, ?_, by rw [hlast, hn], by rw [hlast', hn]⟩
  · rw [hk.identity, hk'.identity]
    exact h.identity
  · rw [hk.kind, hk'.kind]
    exact h.kind
  · rw [hk.highest, hk'.highest, hf]
    exact congrArg (fun x => ((t.tick now).forwards c).elim x some) h.highest
  · rw [hk.closed, hk'.closed]
    exact congrArg (· || c.isFinish) h.closed
  · rw [hk.progress, hk'.progress, hf]

/-- A dropped call leaves the first run alike. -/
theorem Alike.drop {t t' : StreamTracker I} (h : Alike t t') {c : Call I} (hi : Idle t c) (hle : t.lastNow ≤ c.now)
    (hmax : c.now ≤ 2 ^ 63 - 1) : Alike (machine.next t c) t' ∧ (machine.next t c).lastNow = c.now := by
  have hbehind := h.behind
  obtain ⟨now, hn, hle, -, ht, hk⟩ := clocked_call h.timed hle hmax
  have hlast : (machine.next t c).lastNow = now := hk.lastNow
  have hf : (t.tick now).forwards c = none := by
    simpa [hk.progress] using hi.2
  refine ⟨⟨ht, h.timed', ?_, ?_, ?_, ?_, by omega⟩, by rw [hlast, hn]⟩
  · rw [hk.identity]
    exact h.identity
  · rw [hk.kind]
    exact h.kind
  · rw [hk.highest, hf]
    exact h.highest
  · rw [hk.closed, hi.1, Bool.or_false]
    exact h.closed

/-- Leaving out idle calls leaves the times of progress. -/
theorem Thins.progressTimes {t t' : StreamTracker I} {calls calls' : List (Call I)} (h : Thins t calls calls')
    (ha : Alike t t') (hp : Paced t.lastNow calls) :
    progressTimes t' calls' = progressTimes t calls ∧ Paced t'.lastNow calls' := by
  induction h generalizing t' with
  | nil => exact ⟨rfl, trivial⟩
  | keep c h ih =>
    obtain ⟨hle, hmax, hp⟩ := hp
    obtain ⟨ha', hout, hlast, hlast'⟩ := ha.keep hle hmax
    have hbehind := ha.behind
    obtain ⟨htimes, hp'⟩ := ih ha' (hlast ▸ hp)
    rw [hlast'] at hp'
    rw [progressTimes_cons, progressTimes_cons, htimes, hout]
    exact ⟨rfl, by omega, hmax, hp'⟩
  | drop hi h ih =>
    obtain ⟨hle, hmax, hp⟩ := hp
    obtain ⟨ha', hlast⟩ := ha.drop hi hle hmax
    obtain ⟨htimes, hp'⟩ := ih ha' (hlast ▸ hp)
    rw [progressTimes_cons, htimes, hi.2]
    exact ⟨rfl, hp'⟩

/-- A common last call ends both runs at the same time. -/
theorem Thins.horizon {t : StreamTracker I} {calls calls' : List (Call I)} (h : Thins t calls calls') (c : Call I)
    (now now' : Int) : horizon now' (calls' ++ [c]) = horizon now (calls ++ [c]) := by
  induction h generalizing now now' with
  | nil => cases c <;> rfl
  | keep d _ ih =>
    cases d with
    | finish => rfl
    | _ => exact ih _ _
  | @drop _ _ _ d hi _ ih =>
    cases d with
    | finish => exact Bool.noConfusion hi.1
    | _ => exact ih _ _

/-! ## After the first `finish` -/

omit [DecidableEq I] in
theorem elapsed_closed {t : StreamTracker I} (hc : t.closed = true) (now : Nat) : t.elapsed now = t.freshnessNs := by
  unfold StreamTracker.elapsed
  rw [hc]
  cases t.freshnessCursor <;> rfl

theorem run_frozen {t : StreamTracker I} (ht : t.Timed) (hc : t.closed = true) (calls : List (Call I)) :
    (machine.run t calls).freshnessNs = t.freshnessNs := by
  induction calls generalizing t with
  | nil => rfl
  | cons c calls ih =>
    rw [Machine.run_cons]
    rcases next_cases ht c with ⟨-, hsame, -⟩ | ⟨now, -, hle, hmax, hm⟩
    · rw [hsame]
      exact ih ht hc
    · have hk := hm.clocked
      have hc' : (machine.next t c).closed = true := by
        rw [hk.closed]
        exact (congrArg (· || c.isFinish) hc).trans (Bool.true_or _)
      rw [ih (hm.timed (ht.tick hle hmax)) hc', hk.freshnessNs]
      exact elapsed_closed hc now

omit [DecidableEq I] in
theorem new_counted {identity : I} {kind staleNs window : Int} {start : Nat} {t : StreamTracker I}
    (h : new identity kind staleNs window (some (start : Int)) = .ok t) :
    t.lastNow = start ∧ t.closed = false ∧ (t.staleNs : Int) = staleNs ∧ Counted t [] start := by
  have ht := (new_sound h).1
  obtain ⟨s, w, hs, -, -, -, -, ⟨hnone, -⟩ | ⟨start', heq, -, rfl⟩⟩ := new_ok h
  · cases hnone
  · obtain rfl : start = start' := by
      have := Option.some.inj heq
      omega
    refine ⟨rfl, rfl, hs.symm, ht, Nat.le_refl _, Nat.le_refl _, rfl, rfl, rfl, nofun, .nil, fun kind => ?_⟩
    exact congrArg Nat.cast measure_self.symm

/-- **The freshness clock partitions time.** In a run at nondecreasing times
the totals add up to the time from the start to the first `finish` or the last
call; not seen is the time before the baseline; every total counts the instants
of its kind, told by the times of forward progress; leaving out idle calls
changes nothing, and neither does what follows `finish`. -/
theorem freshness_partitions {identity : I} {kind staleNs window : Int} {start : Nat} {t₀ : StreamTracker I}
    (hnew : new identity kind staleNs window (some (start : Int)) = .ok t₀) {calls : List (Call I)}
    (hp : Paced start calls) :
    let t := machine.run t₀ calls
    let times := progressTimes t₀ calls
    let reached := (horizon start calls).toNat
    t.freshnessNs .notSeen + t.freshnessNs .fresh + t.freshnessNs .stale = horizon start calls - start ∧
    t.freshnessNs .notSeen = (times.head?.getD reached : Int) - start ∧
    (∀ kind, t.freshnessNs kind = measure staleNs.toNat times start reached kind) ∧
    (∀ calls' c, Thins t₀ calls calls' → Paced start (calls ++ [c]) →
      (machine.run t₀ (calls' ++ [c])).freshnessNs = (machine.run t₀ (calls ++ [c])).freshnessNs) ∧
    (∀ now later, (∃ a, machine.out t (.finish now) = .ok a) →
      (machine.run t (.finish now :: later)).freshnessNs = (machine.next t (.finish now)).freshnessNs) := by
  intro t times reached
  obtain ⟨hlast, hopen, hstale, hstart⟩ := new_counted hnew
  have counted : ∀ {ls : List (Call I)}, Paced start ls →
      Counted (machine.run t₀ ls) (progressTimes t₀ ls) start ∧
        ((machine.run t₀ ls).stop : Int) = horizon start ls ∧ (machine.run t₀ ls).staleNs = staleNs.toNat := by
    intro ls hls
    obtain ⟨hcount, hstop⟩ := run_counted hstart (hlast ▸ hls)
    rw [hopen, hlast] at hstop
    exact ⟨hcount, hstop, by rw [(run_fixed hstart.timed ls).1]; omega⟩
  obtain ⟨hcount, hstop, hs⟩ := counted hp
  have hreached : reached = t.stop := by
    change (horizon start calls).toNat = _
    rw [← hstop]
    rfl
  have htotals : ∀ kind, t.freshnessNs kind = measure staleNs.toNat times start reached kind := by
    intro kind
    rw [hreached, ← hs]
    exact hcount.totals kind
  refine ⟨?_, ?_, htotals, fun calls' c hthin hpc => ?_, fun now later hok => ?_⟩
  · have htotal := @measure_total staleNs.toNat times start reached
    have hstarted := hcount.started
    rw [htotals, htotals, htotals, ← hstop]
    omega
  · rw [htotals, measure_baseline hcount.sorted fun time ht => hreached ▸ (hcount.past time ht).2]
    have hle : start ≤ times.head?.getD reached := by
      cases hhead : times.head? with
      | none => exact hreached ▸ hcount.started
      | some baseline => exact (hcount.past baseline (List.mem_of_mem_head? hhead)).1
    exact Nat.cast_sub hle
  · obtain ⟨htimes, hp'⟩ := (hthin.snoc c).progressTimes
      ⟨hstart.timed, hstart.timed, rfl, rfl, rfl, rfl, Nat.le_refl _⟩ (hlast ▸ hpc)
    rw [hlast] at hp'
    obtain ⟨hcount', hstop', hs'⟩ := counted hp'
    obtain ⟨hcount, hstop, hs⟩ := counted hpc
    have hsame : (machine.run t₀ (calls' ++ [c])).stop = (machine.run t₀ (calls ++ [c])).stop := by
      have := hthin.horizon c start start
      omega
    funext kind
    rw [hcount'.totals, hcount.totals, hsame, hs', hs, htimes]
  · obtain ⟨ht, h⟩ := run_matches hstart.timed (new_sound hnew).2 calls
    obtain ⟨ht', hc', -⟩ := finish_gaps ht h hok
    exact run_frozen ht' hc' later

/-- A duplicate polled in between changes nothing. -/
theorem freshness_partitions_sample :
    let t₀ : StreamTracker Unit :=
      { identity := (), kind := 21, staleNs := 10, window := 4, lastNow := 5, freshnessCursor := some 5 }
    let calls : List (Call Unit) := [.observe () 21 7 10 100 true, .observe () 21 7 12 100 true,
      .observe () 21 8 30 100 true]
    let polled := (machine.run t₀ (calls ++ [.finish 50])).freshnessNs
    (machine.run t₀ calls).freshnessNs .notSeen = (10 : Nat) - (5 : Nat) ∧
      (machine.run t₀ ([.observe () 21 7 10 100 true, .observe () 21 8 30 100 true] ++ [.finish 50])).freshnessNs =
        polled ∧ polled .fresh = 20 ∧ polled .stale = 20 := by
  intro t₀ calls polled
  have hnew : new () 21 10 4 (some ((5 : Nat) : Int)) = .ok t₀ := rfl
  obtain ⟨-, hseen, -, hthin, -⟩ := freshness_partitions hnew (show Paced ((5 : Nat) : Int) calls by decide +kernel)
  have hthins : Thins t₀ calls [.observe () 21 7 10 100 true, .observe () 21 8 30 100 true] :=
    .keep _ (.drop ⟨rfl, by decide +kernel⟩ (.keep _ (.nil _)))
  exact ⟨hseen, hthin _ (.finish 50) hthins (by decide +kernel), by decide +kernel, by decide +kernel⟩

end StreamTracker

end Nucleo.Metrics
