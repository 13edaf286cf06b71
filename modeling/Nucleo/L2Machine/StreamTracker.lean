import Nucleo.Core.Lts
import Nucleo.Core.Bits
import Nucleo.L2Machine.Metrics

/-!
# Publications of one stream, seen by the receiver

`StreamTracker` of `load_metrics.py`: the first accepted sequence is the
baseline, later ones move a bitmap of the last `window` positions, and a clock
splits time into not seen, fresh and stale. A method that raises leaves what it
had already written, so it returns the tracker next to its answer.

Results:
* `run_matches`: the bitmap is the window of a set of positions, told from the
  calls and their outcomes alone.
* `bitmap_is_window`: the set model, the balance of the gaps and `finish`.
-/
namespace Nucleo.Metrics

inductive Outcome
  | invalidPublication
  | foreignPublication
  | afterClose
  | baseline
  | ambiguousSequence
  | progress
  | outsideHistory
  | duplicatePublication
  | reorderedPublication
  deriving DecidableEq, Repr

/-- The outcomes that enter the bitmap. -/
def Outcome.accepts : Outcome → Bool
  | .baseline | .progress | .reorderedPublication => true
  | _ => false

/-- The keys of `counts`. -/
inductive StreamCount
  | receivedDatagrams
  | receivedBytes
  | finalGaps
  | outcome (outcome : Outcome)
  deriving DecidableEq, Repr

inductive Freshness
  | notSeen
  | fresh
  | stale
  deriving DecidableEq, Repr

/-- mirrors Rust/tools/message-demo/python/load_metrics.py:259-284 -/
structure StreamTracker (I : Type) where
  identity : I
  kind : Int
  staleNs : Nat
  window : Nat
  lastNow : Nat := 0
  highest : Option Nat := none
  bits : Nat := 0
  width : Nat := 0
  lastProgress : Option Nat := none
  counts : Counter StreamCount := fun _ => 0
  closed : Bool := false
  freshnessCursor : Option Nat := none
  finishedAt : Option Nat := none
  freshnessNs : Counter Freshness := fun _ => 0
  interarrival : Histogram := {}

structure StreamTracker.Snapshot where
  counts : Counter StreamCount
  pendingGaps : Int
  highestSequence : Option Nat
  ageNs : Option Int
  freshness : Freshness
  closed : Bool
  freshnessNs : Counter Freshness
  forwardInterarrival : Histogram.Snapshot

namespace StreamTracker

variable {I : Type}

/-- mirrors Rust/tools/message-demo/python/load_metrics.py:266-284 -/
def new (identity : I) (kind staleNs window : Int) (startNs : Option Int) :
    Except String (StreamTracker I) :=
  if kind ≠ 21 ∧ kind ≠ 22 then .error "stream kind must be 21 or 22"
  else do
    let staleNs ← integer staleNs 1 (2 ^ 63 - 1) "stale_ns"
    let window ← integer window 1 maxTracked "reorder window"
    match startNs with
    | none => .ok { identity, kind, staleNs, window }
    | some startNs => do
      let startNs ← clock 0 startNs
      .ok { identity, kind, staleNs, window, lastNow := startNs, freshnessCursor := some startNs }

/-- `freshness_ns` once the clock reads `now`. -/
def elapsed (t : StreamTracker I) (now : Nat) : Counter Freshness :=
  match t.freshnessCursor with
  | none => t.freshnessNs
  | some cursor =>
    if t.closed then t.freshnessNs
    else match t.lastProgress with
      | none => t.freshnessNs.add .notSeen (now - cursor)
      | some lastProgress =>
        let boundary := lastProgress + t.staleNs
        let fresh : Int := max 0 (min now boundary - cursor)
        (t.freshnessNs.add .fresh fresh).add .stale (now - cursor - fresh)

/-- mirrors Rust/tools/message-demo/python/load_metrics.py:286-296 -/
def advanceFreshness (t : StreamTracker I) (now : Int) : Except String (StreamTracker I) := do
  let now ← clock t.lastNow now
  .ok { t with lastNow := now, freshnessNs := t.elapsed now, freshnessCursor := some now }

/-- `width - bits.bit_count()`. -/
def pendingGaps (t : StreamTracker I) : Int := t.width - Bits.bitCount t.bits

/-- An advance below half the range.
mirrors Rust/tools/message-demo/python/load_metrics.py:317-332 -/
def forward (t : StreamTracker I) (sequence advance now : Nat) : StreamTracker I × Except String Outcome :=
  let evicted : Int := max 0 (t.width + advance - t.window)
  let retainedOld := t.window - advance
  let seenEvicted := Bits.bitCount (t.bits >>> retainedOld)
  let t := { t with
    counts := t.counts.add .finalGaps (evicted - seenEvicted)
    bits := Bits.slide t.window t.bits advance
    width := min t.window (t.width + advance) }
  match t.lastProgress with
  -- `now - None`
  | none => (t, .error "TypeError")
  | some lastProgress =>
    match t.interarrival.add (now - lastProgress) with
    | .error e => (t, .error e)
    | .ok interarrival =>
      ({ t with interarrival, highest := some sequence, lastProgress := some now }, .ok .progress)

/-- The packet counted, its outcome.
mirrors Rust/tools/message-demo/python/load_metrics.py:303-341 -/
def classify [DecidableEq I] (t : StreamTracker I) (identity : I) (kind : Int) (sequence now : Nat) (valid : Bool) :
    StreamTracker I × Except String Outcome :=
  if !valid then (t, .ok .invalidPublication)
  else if identity ≠ t.identity ∨ kind ≠ t.kind then (t, .ok .foreignPublication)
  else if t.closed then (t, .ok .afterClose)
  else match t.highest with
    | none =>
      ({ t with highest := some sequence, bits := 1, width := 1, lastProgress := some now }, .ok .baseline)
    | some highest =>
      let advance := wrap (sequence - highest)
      if advance = halfRange then (t, .ok .ambiguousSequence)
      else if 0 < advance ∧ advance < halfRange then t.forward sequence advance now
      else
        let behind := wrap (highest - sequence)
        if t.width ≤ behind then (t, .ok .outsideHistory)
        else if t.bits &&& (1 <<< behind) ≠ 0 then (t, .ok .duplicatePublication)
        else ({ t with bits := t.bits ||| (1 <<< behind) }, .ok .reorderedPublication)

/-- A checked packet is counted.
mirrors Rust/tools/message-demo/python/load_metrics.py:302-343 -/
def record [DecidableEq I] (t : StreamTracker I) (identity : I) (kind : Int) (sequence datagramBytes : Nat)
    (valid : Bool) : StreamTracker I × Except String Outcome :=
  let t := { t with counts := (t.counts.add .receivedDatagrams 1).add .receivedBytes datagramBytes }
  match t.classify identity kind sequence t.lastNow valid with
  | (t, .error e) => (t, .error e)
  | (t, .ok outcome) => ({ t with counts := t.counts.add (.outcome outcome) 1 }, .ok outcome)

/-- mirrors Rust/tools/message-demo/python/load_metrics.py:298-343 -/
def observe [DecidableEq I] (t : StreamTracker I) (identity : I) (kind sequence now datagramBytes : Int)
    (valid : Bool) : StreamTracker I × Except String Outcome :=
  match t.advanceFreshness now with
  | .error e => (t, .error e)
  | .ok t =>
    match integer sequence 0 u32Max "sequence" with
    | .error e => (t, .error e)
    | .ok sequence =>
      match integer datagramBytes 0 65535 "datagram_bytes" with
      | .error e => (t, .error e)
      | .ok datagramBytes => t.record identity kind sequence datagramBytes valid

/-- mirrors Rust/tools/message-demo/python/load_metrics.py:345-365 -/
def snapshot (t : StreamTracker I) (ranks : Ranks) (now : Int) : StreamTracker I × Except String Snapshot :=
  match t.advanceFreshness now with
  | .error e => (t, .error e)
  | .ok t =>
    let age : Option Int := do
      let lastProgress ← t.lastProgress
      let reached ← if t.closed then t.finishedAt else some t.lastNow
      some (reached - lastProgress)
    (t, .ok {
      counts := t.counts
      pendingGaps := t.pendingGaps
      highestSequence := t.highest
      ageNs := age
      freshness := match age with
        | none => .notSeen
        | some age => if t.staleNs ≤ age then .stale else .fresh
      closed := t.closed
      freshnessNs := t.freshnessNs
      forwardInterarrival := t.interarrival.snapshot ranks })

/-- mirrors Rust/tools/message-demo/python/load_metrics.py:367-373 -/
def finish (t : StreamTracker I) (now : Int) : StreamTracker I × Except String Unit :=
  match t.advanceFreshness now with
  | .error e => (t, .error e)
  | .ok t =>
    if t.closed then (t, .ok ())
    else
      ({ t with
        counts := t.counts.add .finalGaps t.pendingGaps
        bits := 0
        width := 0
        closed := true
        finishedAt := some t.lastNow }, .ok ())

/-! ## Calls -/

inductive Call (I : Type)
  | observe (identity : I) (kind sequence now datagramBytes : Int) (valid : Bool)
  | snapshot (ranks : Ranks) (now : Int)
  | finish (now : Int)

def Call.now : Call I → Int
  | .observe _ _ _ now _ _ => now
  | .snapshot _ now => now
  | .finish now => now

inductive Answer
  | outcome (outcome : Outcome)
  | snapshot (snapshot : Snapshot)
  | finished

/-- One call, its answer or the text of its `ValueError`. -/
def machine [DecidableEq I] : Machine (StreamTracker I) (Call I) (Except String Answer) where
  step t
    | .observe identity kind sequence now datagramBytes valid =>
      let (t, answer) := t.observe identity kind sequence now datagramBytes valid
      (t, answer.map .outcome)
    | .snapshot ranks now =>
      let (t, answer) := t.snapshot ranks now
      (t, answer.map .snapshot)
    | .finish now =>
      let (t, answer) := t.finish now
      (t, answer.map fun _ => .finished)

/-! ## What a call does -/

/-- The clock reads `now`. -/
def tick (t : StreamTracker I) (now : Nat) : StreamTracker I :=
  { t with lastNow := now, freshnessNs := t.elapsed now, freshnessCursor := some now }

/-- `counts` when a packet has been checked. -/
def received (t : StreamTracker I) (datagramBytes : Nat) : Counter StreamCount :=
  (t.counts.add .receivedDatagrams 1).add .receivedBytes datagramBytes

/-- The gaps that leave the window on an advance. -/
def evictedGaps (t : StreamTracker I) (advance : Nat) : Int :=
  max (0 : Int) (t.width + advance - t.window) - Bits.bitCount (t.bits >>> (t.window - advance))

/-- The call is a forward packet: its sequence. -/
def forwards [DecidableEq I] (t : StreamTracker I) : Call I → Option Nat
  | .observe identity kind sequence _ datagramBytes valid =>
    if (0 ≤ sequence ∧ sequence ≤ u32Max) ∧ (0 ≤ datagramBytes ∧ datagramBytes ≤ 65535) ∧ valid = true ∧
        identity = t.identity ∧ kind = t.kind ∧ t.closed = false ∧
        ∀ highest ∈ t.highest, 0 < wrap (sequence - highest) ∧ wrap (sequence - highest) < halfRange
    then some sequence.toNat
    else none
  | _ => none

/-- What a call does to a tracker whose clock has been moved. -/
inductive Move [DecidableEq I] (t : StreamTracker I) : Call I → Except String Answer → StreamTracker I → Prop
  | raised {identity : I} {kind sequence now datagramBytes : Int} {valid : Bool} (e : String)
      (hf : t.forwards (.observe identity kind sequence now datagramBytes valid) = none) :
      Move t (.observe identity kind sequence now datagramBytes valid) (.error e) t
  | idle {identity : I} {kind now : Int} {sequence bytes : Nat} {valid : Bool} {outcome : Outcome}
      (ho : outcome.accepts = false)
      (hf : t.forwards (.observe identity kind sequence now bytes valid) = none) :
      Move t (.observe identity kind sequence now bytes valid) (.ok (.outcome outcome))
        { t with counts := (t.received bytes).add (.outcome outcome) 1 }
  | baseline {now : Int} {sequence bytes : Nat} (hc : t.closed = false) (hh : t.highest = none)
      (hs : sequence < 2 ^ 32)
      (hf : t.forwards (.observe t.identity t.kind sequence now bytes true) = some sequence) :
      Move t (.observe t.identity t.kind sequence now bytes true) (.ok (.outcome .baseline))
        { t with
          highest := some sequence
          bits := 1
          width := 1
          lastProgress := some t.lastNow
          counts := (t.received bytes).add (.outcome .baseline) 1 }
  | progress {now : Int} {sequence bytes highest advance : Nat} {interarrival : Histogram}
      (hc : t.closed = false) (hh : t.highest = some highest) (hs : sequence < 2 ^ 32)
      (ha : advance = wrap (sequence - highest)) (h0 : 0 < advance)
      (hf : t.forwards (.observe t.identity t.kind sequence now bytes true) = some sequence) :
      Move t (.observe t.identity t.kind sequence now bytes true) (.ok (.outcome .progress))
        { t with
          highest := some sequence
          bits := Bits.slide t.window t.bits advance
          width := min t.window (t.width + advance)
          lastProgress := some t.lastNow
          interarrival
          counts := ((t.received bytes).add .finalGaps (t.evictedGaps advance)).add (.outcome .progress) 1 }
  | reordered {now : Int} {sequence bytes highest behind : Nat} (hc : t.closed = false)
      (hh : t.highest = some highest) (hs : sequence < 2 ^ 32) (hb : behind = wrap (highest - sequence))
      (hw : behind < t.width) (hclear : t.bits.testBit behind = false)
      (hf : t.forwards (.observe t.identity t.kind sequence now bytes true) = none) :
      Move t (.observe t.identity t.kind sequence now bytes true) (.ok (.outcome .reorderedPublication))
        { t with
          bits := t.bits ||| (1 <<< behind)
          counts := (t.received bytes).add (.outcome .reorderedPublication) 1 }
  | snapshot (ranks : Ranks) (now : Int) (s : Snapshot) :
      Move t (.snapshot ranks now) (.ok (.snapshot s)) t
  | again (now : Int) (hc : t.closed = true) : Move t (.finish now) (.ok .finished) t
  | finish (now : Int) (hc : t.closed = false) :
      Move t (.finish now) (.ok .finished)
        { t with
          counts := t.counts.add .finalGaps t.pendingGaps
          bits := 0
          width := 0
          closed := true
          finishedAt := some t.lastNow }

/-- The last progress is set with the baseline and not in the future. -/
structure Timed (t : StreamTracker I) : Prop where
  seen : t.highest.isSome = t.lastProgress.isSome
  past : ∀ p, t.lastProgress = some p → p ≤ t.lastNow
  bounded : t.lastNow ≤ 2 ^ 63 - 1

theorem advanceFreshness_eq (t : StreamTracker I) (now : Int) :
    (∃ n : Nat, now = n ∧ t.lastNow ≤ n ∧ n ≤ 2 ^ 63 - 1 ∧ t.advanceFreshness now = .ok (t.tick n)) ∨
    (¬ (t.lastNow ≤ now ∧ now ≤ 2 ^ 63 - 1) ∧ ∃ e, t.advanceFreshness now = .error e) := by
  unfold advanceFreshness
  cases hc : clock t.lastNow now with
  | ok n =>
    obtain ⟨hn, hmax, hle⟩ := clock_ok.1 hc
    exact .inl ⟨n, hn, hle, by omega, rfl⟩
  | error e =>
    refine .inr ⟨?_, e, rfl⟩
    rintro ⟨hle, hmax⟩
    obtain ⟨n, rfl⟩ := Int.eq_ofNat_of_zero_le (show 0 ≤ now by omega)
    rw [clock_ok.2 ⟨rfl, hmax, by omega⟩] at hc
    cases hc

theorem and_bit_eq_zero (n b : Nat) : n &&& (1 <<< b) = 0 ↔ n.testBit b = false := by
  rw [Nat.one_shiftLeft, Nat.and_two_pow]
  have hpos : 0 < 2 ^ b := Nat.two_pow_pos b
  cases n.testBit b with
  | false => simp
  | true => simp

theorem forward_eq {t : StreamTracker I} (ht : t.Timed) (hseen : t.highest.isSome = true) (sequence advance : Nat) :
    ∃ interarrival, t.forward sequence advance t.lastNow =
      ({ t with
          highest := some sequence
          bits := Bits.slide t.window t.bits advance
          width := min t.window (t.width + advance)
          lastProgress := some t.lastNow
          interarrival
          counts := t.counts.add .finalGaps (t.evictedGaps advance) },
        .ok .progress) := by
  obtain ⟨p, hp⟩ := Option.isSome_iff_exists.1 (ht.seen ▸ hseen)
  have hpast := ht.past p hp
  have hbound := ht.bounded
  obtain ⟨h, hadd⟩ := @Histogram.add_ok t.interarrival (t.lastNow - p : Int) (by omega) (by omega)
  refine ⟨h, ?_⟩
  unfold forward
  simp only [hp, hadd]
  rfl

theorem record_move [DecidableEq I] {t : StreamTracker I} (ht : t.Timed) (identity : I) (kind now : Int)
    {sequence bytes : Nat} (hs : sequence < 2 ^ 32) (hb : bytes ≤ 65535) (valid : Bool) :
    ∃ outcome t', t.record identity kind sequence bytes valid = (t', .ok outcome) ∧
      Move t (.observe identity kind sequence now bytes valid) (.ok (.outcome outcome)) t' := by
  have idle : ∀ outcome, outcome.accepts = false →
      ({ t with counts := t.received bytes } : StreamTracker I).classify identity kind sequence t.lastNow valid =
        ({ t with counts := t.received bytes }, .ok outcome) →
      t.forwards (.observe identity kind sequence now bytes valid) = none →
      ∃ outcome t', t.record identity kind sequence bytes valid = (t', .ok outcome) ∧
        Move t (.observe identity kind sequence now bytes valid) (.ok (.outcome outcome)) t' := by
    intro outcome ho hc hf
    refine ⟨outcome, _, ?_, .idle ho hf⟩
    unfold record
    unfold received at hc
    simp only [hc]
    rfl
  have hrange : (0 ≤ (sequence : Int) ∧ (sequence : Int) ≤ u32Max) ∧ (0 ≤ (bytes : Int) ∧ (bytes : Int) ≤ 65535) := by
    unfold u32Max
    omega
  by_cases hv : valid = true
  swap
  · exact idle .invalidPublication rfl (if_pos (by simpa using hv)) (by simp [forwards, hv])
  subst hv
  by_cases hown : identity ≠ t.identity ∨ kind ≠ t.kind
  · refine idle .foreignPublication rfl (if_pos hown) (if_neg ?_)
    rintro ⟨-, -, -, hi, hk, -⟩
    exact hown.elim (fun h => h hi) (fun h => h hk)
  obtain ⟨rfl, rfl⟩ : identity = t.identity ∧ kind = t.kind := by
    simpa [not_or] using hown
  cases hc : t.closed with
  | true => exact idle .afterClose rfl (by simp [classify, hc]) (by simp [forwards, hc])
  | false =>
    cases hh : t.highest with
    | none =>
      refine ⟨.baseline, _, ?_, .baseline hc hh hs (by simp [forwards, hc, hh, hrange])⟩
      simp [record, classify, hc, hh, received]
    | some highest =>
      by_cases hamb : wrap (sequence - highest) = halfRange
      · exact idle .ambiguousSequence rfl (by simp [classify, hc, hh, hamb]) (by simp [forwards, hh, hamb])
      by_cases hfwd : 0 < wrap (sequence - highest) ∧ wrap (sequence - highest) < halfRange
      · have ht' : ({ t with counts := t.received bytes } : StreamTracker I).Timed := ⟨ht.seen, ht.past, ht.bounded⟩
        obtain ⟨interarrival, hf⟩ := forward_eq ht' (by simp [hh]) sequence (wrap (sequence - highest))
        refine ⟨.progress, _, ?_, @Move.progress I _ t now sequence bytes highest _ interarrival hc hh hs rfl hfwd.1
          (by simp [forwards, hc, hh, hrange, hfwd])⟩
        simp only [received, hc, hh] at hf
        simp only [record, classify, hc, hh, hamb, hfwd, Bool.not_true, Bool.false_eq_true, ne_eq, not_true_eq_false,
          or_self, if_false, and_self, if_true, hf, received]
        rfl
      have hnone : t.forwards (.observe t.identity t.kind sequence now bytes true) = none :=
        if_neg fun h => hfwd (h.2.2.2.2.2.2 highest hh)
      by_cases hold : t.width ≤ wrap (highest - sequence)
      · exact idle .outsideHistory rfl (by simp [classify, hc, hh, hamb, hfwd, hold]) hnone
      cases hbit : t.bits.testBit (wrap (highest - sequence)) with
      | true =>
        have hdup : ¬ t.bits &&& (1 <<< wrap (highest - sequence)) = 0 := by
          rw [and_bit_eq_zero, hbit]
          exact Bool.noConfusion
        exact idle .duplicatePublication rfl (by simp [classify, hc, hh, hamb, hfwd, hold, hdup]) hnone
      | false =>
        refine ⟨.reorderedPublication, _, ?_, .reordered hc hh hs rfl (by omega) hbit hnone⟩
        have hclear := (and_bit_eq_zero _ _).2 hbit
        simp [record, classify, hc, hh, hamb, hfwd, hold, hclear, received]

theorem Timed.tick {t : StreamTracker I} (ht : t.Timed) {now : Nat} (hle : t.lastNow ≤ now)
    (hmax : now ≤ 2 ^ 63 - 1) : (t.tick now).Timed :=
  ⟨ht.seen, fun p hp => Nat.le_trans (ht.past p hp) hle, hmax⟩

/-- **A call at a time the clock refuses changes nothing; any other is one
move from the tracker with its clock moved.** -/
theorem next_cases [DecidableEq I] {t : StreamTracker I} (ht : t.Timed) (c : Call I) :
    (¬ (t.lastNow ≤ c.now ∧ c.now ≤ 2 ^ 63 - 1) ∧ machine.next t c = t ∧ ∃ e, machine.out t c = .error e) ∨
    ∃ now : Nat, c.now = now ∧ t.lastNow ≤ now ∧ now ≤ 2 ^ 63 - 1 ∧
      Move (t.tick now) c (machine.out t c) (machine.next t c) := by
  rcases advanceFreshness_eq t c.now with ⟨now, hn, hle, hmax, hadv⟩ | ⟨hbad, e, hadv⟩
  · refine .inr ⟨now, hn, hle, hmax, ?_⟩
    have htick := ht.tick hle hmax
    unfold Machine.out Machine.next
    cases c with
    | observe identity kind sequence instant datagramBytes valid =>
      simp only [machine, observe, show instant = now from hn, show t.advanceFreshness now = _ from hn ▸ hadv]
      cases hs : integer sequence 0 u32Max "sequence" with
      | error e => exact .raised e (if_neg fun h => integer_error hs h.1)
      | ok s =>
        cases hb : integer datagramBytes 0 65535 "datagram_bytes" with
        | error e => exact .raised e (if_neg fun h => integer_error hb h.2.1)
        | ok bytes =>
          dsimp only
          obtain ⟨rfl, -, hmaxs⟩ := (integer_ok (Int.le_refl 0)).1 hs
          obtain ⟨rfl, -, hmaxb⟩ := (integer_ok (Int.le_refl 0)).1 hb
          have hlt : s < 2 ^ 32 := by
            unfold u32Max at hmaxs
            omega
          have hbytes : bytes ≤ 65535 := by omega
          obtain ⟨outcome, t', hrec, hmove⟩ := record_move htick identity kind now hlt hbytes valid
          rw [hrec]
          exact hmove
    | snapshot ranks instant =>
      simp only [machine, snapshot, show t.advanceFreshness instant = _ from hadv]
      exact .snapshot _ _ _
    | finish instant =>
      simp only [machine, finish, show t.advanceFreshness instant = _ from hadv]
      cases hc : (t.tick now).closed with
      | true => exact .again _ hc
      | false => exact .finish _ hc
  · refine .inl ⟨hbad, ?_⟩
    unfold Machine.out Machine.next
    cases c with
    | observe identity kind sequence instant datagramBytes valid =>
      simp only [machine, observe, show t.advanceFreshness instant = _ from hadv]
      exact ⟨trivial, e, rfl⟩
    | snapshot ranks instant =>
      simp only [machine, snapshot, show t.advanceFreshness instant = _ from hadv]
      exact ⟨trivial, e, rfl⟩
    | finish instant =>
      simp only [machine, finish, show t.advanceFreshness instant = _ from hadv]
      exact ⟨trivial, e, rfl⟩

theorem Move.timed [DecidableEq I] {t t' : StreamTracker I} {c : Call I} {answer : Except String Answer} (ht : t.Timed)
    (h : Move t c answer t') : t'.Timed := by
  cases h with
  | raised | idle | snapshot | again => exact ⟨ht.seen, ht.past, ht.bounded⟩
  | finish => exact ⟨ht.seen, ht.past, ht.bounded⟩
  | reordered => exact ⟨ht.seen, ht.past, ht.bounded⟩
  | baseline | progress =>
    refine ⟨rfl, fun p hp => ?_, ht.bounded⟩
    cases hp
    exact Nat.le_refl _

/-! ## The set of positions -/

/-- The evidence in the calls and their outcomes: the last forward sequence,
how far it is from the baseline, and every accepted sequence with its position
from there. -/
structure Log where
  highest : Nat := 0
  total : Nat := 0
  accepted : List (Nat × Nat) := []

def Log.next (log : Log) : Call I → Except String Answer → Log
  | .observe _ _ sequence _ _ _, .ok (.outcome .baseline) =>
    { highest := sequence.toNat, total := 0, accepted := [(0, sequence.toNat)] }
  | .observe _ _ sequence _ _ _, .ok (.outcome .progress) =>
    let total := log.total + wrap (sequence - log.highest)
    { highest := sequence.toNat, total, accepted := (total, sequence.toNat) :: log.accepted }
  | .observe _ _ sequence _ _ _, .ok (.outcome .reorderedPublication) =>
    { log with accepted := (log.total - wrap (log.highest - sequence), sequence.toNat) :: log.accepted }
  | _, _ => log

/-- The evidence of a run. -/
def logOf [DecidableEq I] (t : StreamTracker I) (calls : List (Call I)) : Log :=
  (machine.trace t calls).foldl (fun log e => log.next e.2.1 e.2.2) {}

/-- Accepted positions and those given up. -/
def tally (c : Counter StreamCount) : Int :=
  c (.outcome .baseline) + c (.outcome .progress) + c (.outcome .reorderedPublication) + c .finalGaps

structure Matches (t : StreamTracker I) (log : Log) : Prop where
  window_pos : 1 ≤ t.window
  window_le : t.window ≤ 4096
  highest : ∀ h, t.highest = some h → h = log.highest ∧ h < 2 ^ 32
  closed : t.closed = true → t.bits = 0 ∧ t.width = 0
  unseen : t.highest = none → t.bits = 0 ∧ t.width = 0 ∧ log.accepted = [] ∧ tally t.counts = 0
  width : t.closed = false → t.highest.isSome = true → t.width = min t.window (1 + log.total)
  bits : t.closed = false → ∀ i, t.bits.testBit i = true ↔ i < t.width ∧ ∃ e ∈ log.accepted, e.1 + i = log.total
  entries : ∀ e ∈ log.accepted, e.1 ≤ log.total ∧ e.2 = wrap (log.highest - (log.total - e.1 : Nat))
  balance : t.highest.isSome = true → tally t.counts + t.pendingGaps = 1 + log.total

theorem tally_add (c : Counter StreamCount) (key : StreamCount) (n : Int) :
    tally (c.add key n) = tally c + match key with
      | .finalGaps => n
      | .outcome o => if o.accepts then n else 0
      | _ => 0 := by
  unfold tally Counter.add
  cases key with
  | outcome o =>
    cases o with
    | baseline | progress | reorderedPublication =>
      simp [Outcome.accepts]
      try omega
    | _ => simp [Outcome.accepts]
  | finalGaps =>
    simp
    omega
  | _ => simp

/-- No bit beyond the width. -/
theorem Matches.bits_lt {t : StreamTracker I} {log : Log} (h : Matches t log) : t.bits < 2 ^ t.width := by
  rw [Bits.lt_two_pow_iff]
  intro i hi
  cases hc : t.closed with
  | true =>
    rw [(h.closed hc).1]
    exact Nat.zero_testBit i
  | false =>
    rw [Bool.eq_false_iff]
    intro hbit
    have := ((h.bits hc i).1 hbit).1
    omega

theorem Matches.width_le {t : StreamTracker I} {log : Log} (h : Matches t log) : t.width ≤ t.window := by
  cases hc : t.closed with
  | true =>
    have := (h.closed hc).2
    omega
  | false =>
    cases hh : t.highest with
    | none =>
      have := (h.unseen hh).2.1
      omega
    | some highest =>
      have := h.width hc (by simp [hh])
      omega

/-- A move of the clock alone. -/
theorem Matches.tick {t : StreamTracker I} {log : Log} (h : Matches t log) (now : Nat) : Matches (t.tick now) log :=
  ⟨h.window_pos, h.window_le, h.highest, h.closed, h.unseen, h.width, h.bits, h.entries, h.balance⟩

/-- Other counters do not matter. -/
theorem Matches.recount {t : StreamTracker I} {log : Log} (h : Matches t log) {counts : Counter StreamCount}
    (hc : tally counts = tally t.counts) : Matches { t with counts } log :=
  ⟨h.window_pos, h.window_le, h.highest, h.closed, fun hh => hc ▸ h.unseen hh, h.width, h.bits, h.entries,
    fun hh => hc ▸ h.balance hh⟩

theorem tally_received (t : StreamTracker I) (bytes : Nat) : tally (t.received bytes) = tally t.counts := by
  simp [received, tally_add]

theorem Matches.progress {t : StreamTracker I} {log : Log} (h : Matches t log) {sequence highest advance : Nat}
    (hc : t.closed = false) (hh : t.highest = some highest) (hs : sequence < 2 ^ 32)
    (ha : advance = wrap (sequence - highest)) (h0 : 0 < advance) (bytes : Nat) (lastProgress : Option Nat)
    (interarrival : Histogram) :
    Matches { t with
      highest := some sequence
      bits := Bits.slide t.window t.bits advance
      width := min t.window (t.width + advance)
      lastProgress
      interarrival
      counts := ((t.received bytes).add .finalGaps (t.evictedGaps advance)).add (.outcome .progress) 1 }
      { highest := sequence, total := log.total + advance,
        accepted := (log.total + advance, sequence) :: log.accepted } := by
  obtain ⟨hlog, hlt⟩ := h.highest highest hh
  have hseen : t.highest.isSome = true := by simp [hh]
  have hwidth := h.width hc hseen
  have hpos := h.window_pos
  refine ⟨h.window_pos, h.window_le, ?_, ?_, ?_, ?_, ?_, ?_, ?_⟩
  · intro s he
    cases he
    exact ⟨rfl, hs⟩
  · intro he
    exact absurd (hc.symm.trans he) (by decide)
  · intro he
    cases he
  · intro _ _
    change min t.window (t.width + advance) = min t.window (1 + (log.total + advance))
    omega
  · -- the new bit is position `total + advance`, the others moved up by `advance`
    intro _ i
    change (Bits.slide t.window t.bits advance).testBit i = true ↔
      i < min t.window (t.width + advance) ∧
        ∃ e ∈ (log.total + advance, sequence) :: log.accepted, e.1 + i = log.total + advance
    rw [Bits.testBit_slide h0, h.bits hc]
    constructor
    · rintro (hi | ⟨hi, hai, hlt, e, he, heq⟩)
      · exact ⟨by omega, _, List.mem_cons_self, by simp [hi]⟩
      · exact ⟨by omega, e, List.mem_cons_of_mem _ he, by omega⟩
    · rintro ⟨hi, e, he, heq⟩
      rcases List.mem_cons.1 he with rfl | he
      · exact .inl (by simpa using heq)
      · have hle := (h.entries e he).1
        exact .inr ⟨by omega, by omega, by omega, e, he, by omega⟩
  · intro e he
    rcases List.mem_cons.1 he with rfl | he
    · refine ⟨Nat.le_refl _, ?_⟩
      simp only [wrap, Nat.sub_self]
      omega
    · obtain ⟨hle, heq⟩ := h.entries e he
      refine ⟨Nat.le_trans hle (Nat.le_add_right _ _), ?_⟩
      simp only [wrap] at heq ha ⊢
      omega
  · intro _
    have hbal := h.balance hseen
    have hslide := Bits.bitCount_slide hpos h0
      (Nat.lt_of_lt_of_le h.bits_lt (Nat.pow_le_pow_right (by omega) h.width_le))
    simp only [tally_add, tally_received, Outcome.accepts, pendingGaps, evictedGaps, if_true] at hbal ⊢
    push_cast
    omega

theorem Matches.reordered {t : StreamTracker I} {log : Log} (h : Matches t log) {sequence highest behind : Nat}
    (hc : t.closed = false) (hh : t.highest = some highest) (hs : sequence < 2 ^ 32)
    (hb : behind = wrap (highest - sequence)) (hw : behind < t.width) (hclear : t.bits.testBit behind = false)
    (bytes : Nat) :
    Matches { t with
      bits := t.bits ||| (1 <<< behind)
      counts := (t.received bytes).add (.outcome .reorderedPublication) 1 }
      { log with accepted := (log.total - behind, sequence) :: log.accepted } := by
  obtain ⟨hlog, hlt⟩ := h.highest highest hh
  have hseen : t.highest.isSome = true := by simp [hh]
  have hwidth := h.width hc hseen
  have hset := Bits.bitCount_set h.bits_lt hw hclear
  refine ⟨h.window_pos, h.window_le, h.highest, ?_, ?_, h.width, ?_, ?_, ?_⟩
  · intro he
    exact absurd (hc.symm.trans he) (by decide)
  · intro he
    exact absurd (hh.symm.trans he) (by simp)
  · intro _ i
    change (t.bits ||| (1 <<< behind)).testBit i = true ↔
      i < t.width ∧ ∃ e ∈ (log.total - behind, sequence) :: log.accepted, e.1 + i = log.total
    rw [Bits.testBit_set, Bool.or_eq_true, h.bits hc, decide_eq_true_eq]
    constructor
    · rintro (⟨hi, e, he, heq⟩ | rfl)
      · exact ⟨hi, e, List.mem_cons_of_mem _ he, heq⟩
      · exact ⟨hw, _, List.mem_cons_self, by simp; omega⟩
    · rintro ⟨hi, e, he, heq⟩
      rcases List.mem_cons.1 he with rfl | he
      · simp only at heq
        exact .inr (by omega)
      · exact .inl ⟨hi, e, he, heq⟩
  · intro e he
    rcases List.mem_cons.1 he with rfl | he
    · refine ⟨Nat.sub_le _ _, ?_⟩
      simp only [wrap] at hb ⊢
      omega
    · exact h.entries e he
  · intro _
    have hbal := h.balance hseen
    simp only [tally_add, tally_received, Outcome.accepts, pendingGaps, hset.2, if_true] at hbal ⊢
    push_cast
    omega

/-! ## Runs -/

theorem Log.next_idle (log : Log) (c : Call I) {outcome : Outcome} (ho : outcome.accepts = false) :
    log.next c (.ok (.outcome outcome)) = log := by
  cases outcome with
  | baseline | progress | reorderedPublication => cases ho
  | _ => cases c <;> rfl

theorem Move.matches [DecidableEq I] {t t' : StreamTracker I} {log : Log} {c : Call I} {answer : Except String Answer}
    (h : Matches t log) (hm : Move t c answer t') : Matches t' (log.next c answer) := by
  cases hm with
  | raised => exact h
  | @idle _ _ _ _ bytes _ outcome ho =>
    rw [log.next_idle _ ho]
    exact h.recount (by simp [tally_add, tally_received, ho])
  | @baseline _ sequence bytes hc hh hs =>
    have hcount := (h.unseen hh).2.2.2
    have hpos := h.window_pos
    refine ⟨h.window_pos, h.window_le, ?_, ?_, ?_, ?_, ?_, ?_, ?_⟩
    · intro s he
      cases he
      exact ⟨rfl, hs⟩
    · intro he
      exact absurd (hc.symm.trans he) (by decide)
    · intro he
      cases he
    · intro _ _
      change 1 = min t.window (1 + 0)
      omega
    · intro _ i
      change (1 : Nat).testBit i = true ↔ i < 1 ∧ ∃ e ∈ [((0 : Nat), sequence)], e.1 + i = 0
      rw [Nat.testBit_one_eq_true_iff_self_eq_zero]
      simp
    · intro e he
      obtain rfl := List.mem_singleton.1 he
      refine ⟨Nat.le_refl _, ?_⟩
      change sequence = wrap (sequence - (0 : Nat))
      unfold wrap
      omega
    · intro _
      have hone : Bits.bitCount 1 = 1 := rfl
      simp only [tally_add, tally_received, Outcome.accepts, pendingGaps, hcount, hone, if_true, Log.next]
      norm_num
  | @progress _ sequence bytes highest advance interarrival hc hh hs ha h0 =>
    have hprogress := h.progress hc hh hs ha h0 bytes (some t.lastNow) interarrival
    obtain ⟨rfl, -⟩ := h.highest highest hh
    rw [ha] at hprogress ⊢
    exact hprogress
  | @reordered _ sequence bytes highest behind hc hh hs hb hw hclear =>
    have hreordered := h.reordered hc hh hs hb hw hclear bytes
    obtain ⟨rfl, -⟩ := h.highest highest hh
    rw [hb] at hreordered ⊢
    exact hreordered
  | snapshot | again => exact h
  | finish now hc =>
    refine ⟨h.window_pos, h.window_le, h.highest, fun _ => ⟨rfl, rfl⟩, ?_, fun he => ?_, fun he => ?_, h.entries, ?_⟩
    · intro hh
      obtain ⟨hbits, hwidth, hnone, hcount⟩ := h.unseen hh
      refine ⟨rfl, rfl, hnone, ?_⟩
      simp [tally_add, hcount, pendingGaps, hbits, hwidth]
    · cases he
    · cases he
    · intro hh
      have hbal := h.balance hh
      simpa [tally_add, pendingGaps, Log.next] using hbal

theorem new_ok {identity : I} {kind staleNs window : Int} {startNs : Option Int} {t : StreamTracker I}
    (h : new identity kind staleNs window startNs = .ok t) :
    ∃ s w : Nat, staleNs = s ∧ window = w ∧ 1 ≤ s ∧ 1 ≤ w ∧ w ≤ 4096 ∧
      (startNs = none ∧ t = { identity, kind, staleNs := s, window := w } ∨
        ∃ start : Nat, startNs = some (start : Int) ∧ start ≤ 2 ^ 63 - 1 ∧
          t = { identity, kind, staleNs := s, window := w, lastNow := start, freshnessCursor := some start }) := by
  unfold new at h
  split at h
  · cases h
  obtain ⟨s, hs, hrest⟩ := except_bind_ok.1 h
  obtain ⟨w, hw, hmade⟩ := except_bind_ok.1 hrest
  clear h hrest
  obtain ⟨rfl, hs1, -⟩ := (integer_ok (by decide)).1 hs
  obtain ⟨rfl, hw1, hw2⟩ := (integer_ok (by decide)).1 hw
  unfold maxTracked at hw2
  refine ⟨s, w, rfl, rfl, by omega, by omega, by omega, ?_⟩
  cases startNs with
  | none => exact .inl ⟨rfl, (Except.ok.inj hmade).symm⟩
  | some startNs =>
    obtain ⟨start, hc, hlast⟩ := except_bind_ok.1 hmade
    obtain ⟨rfl, hmax, -⟩ := clock_ok.1 hc
    exact .inr ⟨start, rfl, by omega, (Except.ok.inj hlast).symm⟩

theorem sound_start {identity : I} {kind : Int} {staleNs window start : Nat} {freshnessCursor : Option Nat}
    (hw1 : 1 ≤ window) (hw2 : window ≤ 4096) (hmax : start ≤ 2 ^ 63 - 1) :
    Timed { identity, kind, staleNs, window, lastNow := start, freshnessCursor } ∧
      Matches { identity, kind, staleNs, window, lastNow := start, freshnessCursor } {} := by
  refine ⟨⟨rfl, nofun, hmax⟩, hw1, hw2, nofun, nofun, fun _ => ⟨rfl, rfl, rfl, rfl⟩, nofun, ?_, nofun, nofun⟩
  intro _ i
  change (0 : Nat).testBit i = true ↔ i < 0 ∧ _
  simp

theorem new_sound {identity : I} {kind staleNs window : Int} {startNs : Option Int} {t : StreamTracker I}
    (h : new identity kind staleNs window startNs = .ok t) : t.Timed ∧ Matches t {} := by
  obtain ⟨s, w, -, -, -, hw1, hw2, ⟨-, rfl⟩ | ⟨start, -, hmax, rfl⟩⟩ := new_ok h
  · exact sound_start hw1 hw2 (Nat.zero_le _)
  · exact sound_start hw1 hw2 hmax

theorem logOf_snoc [DecidableEq I] (t : StreamTracker I) (calls : List (Call I)) (c : Call I) :
    logOf t (calls ++ [c]) = (logOf t calls).next c (machine.out (machine.run t calls) c) := by
  unfold logOf
  rw [Machine.trace_snoc, List.foldl_append]
  rfl

/-- **The bitmap is the window of the set of accepted positions.** -/
theorem run_matches [DecidableEq I] {t₀ : StreamTracker I} (ht : t₀.Timed) (h : Matches t₀ {})
    (calls : List (Call I)) :
    (machine.run t₀ calls).Timed ∧ Matches (machine.run t₀ calls) (logOf t₀ calls) := by
  induction calls using List.reverseRecOn with
  | nil => exact ⟨ht, h⟩
  | append_singleton calls c ih =>
    obtain ⟨ht, h⟩ := ih
    rw [Machine.run_snoc, logOf_snoc]
    rcases next_cases ht c with ⟨-, hsame, e, herr⟩ | ⟨now, -, hle, hmax, hm⟩
    · rw [hsame, herr]
      refine ⟨ht, ?_⟩
      cases c with
      | _ => exact h
    · exact ⟨hm.timed (ht.tick hle hmax), hm.matches (h.tick now)⟩

/-- A closed tracker stays closed and gives up nothing more. -/
theorem Move.closed [DecidableEq I] {t t' : StreamTracker I} {c : Call I} {answer : Except String Answer}
    (hm : Move t c answer t') (hc : t.closed = true) : t'.closed = true ∧ t'.counts .finalGaps = t.counts .finalGaps := by
  cases hm with
  | raised | snapshot | again => exact ⟨hc, rfl⟩
  | idle ho => exact ⟨hc, by simp [received, Counter.add]⟩
  | baseline hopen | progress hopen | reordered hopen | finish _ hopen =>
    rw [hopen] at hc
    cases hc

theorem run_closed [DecidableEq I] {t : StreamTracker I} (ht : t.Timed) (hc : t.closed = true) (calls : List (Call I)) :
    (machine.run t calls).closed = true ∧ (machine.run t calls).counts .finalGaps = t.counts .finalGaps := by
  induction calls generalizing t with
  | nil => exact ⟨hc, rfl⟩
  | cons c calls ih =>
    rw [Machine.run_cons]
    rcases next_cases ht c with ⟨-, hsame, -⟩ | ⟨now, -, hle, hmax, hm⟩
    · rw [hsame]
      exact ih ht hc
    · obtain ⟨hc', hgaps⟩ := hm.closed hc
      obtain ⟨h1, h2⟩ := ih (hm.timed (ht.tick hle hmax)) hc'
      exact ⟨h1, h2.trans hgaps⟩

theorem finish_gaps [DecidableEq I] {t : StreamTracker I} {log : Log} (ht : t.Timed) (h : Matches t log) {now : Int}
    (hok : ∃ a, machine.out t (.finish now) = .ok a) :
    (machine.next t (.finish now)).Timed ∧ (machine.next t (.finish now)).closed = true ∧
      (machine.next t (.finish now)).counts .finalGaps = t.counts .finalGaps + t.pendingGaps := by
  rcases next_cases ht (.finish now) with ⟨-, -, e, he⟩ | ⟨n, -, hle, hmax, hm⟩
  · obtain ⟨a, ha⟩ := hok
    rw [he] at ha
    cases ha
  · refine ⟨hm.timed (ht.tick hle hmax), ?_⟩
    generalize hnext : machine.next t (.finish now) = t' at hm ⊢
    generalize machine.out t (.finish now) = answer at hm hok
    cases hm with
    | again _ hc =>
      obtain ⟨hbits, hwidth⟩ := h.closed hc
      refine ⟨hc, ?_⟩
      have hpending : t.pendingGaps = 0 := by simp [pendingGaps, hbits, hwidth]
      rw [hpending, Int.add_zero]
      rfl
    | finish _ hc =>
      refine ⟨rfl, ?_⟩
      change (t.counts.add .finalGaps t.pendingGaps) .finalGaps = _
      exact Counter.add_self _ _ _

theorem Move.fixed [DecidableEq I] {t t' : StreamTracker I} {c : Call I} {answer : Except String Answer}
    (hm : Move t c answer t') : t'.staleNs = t.staleNs ∧ t'.window = t.window := by
  cases hm with
  | _ => exact ⟨rfl, rfl⟩

theorem run_fixed [DecidableEq I] {t : StreamTracker I} (ht : t.Timed) (calls : List (Call I)) :
    (machine.run t calls).staleNs = t.staleNs ∧ (machine.run t calls).window = t.window := by
  induction calls generalizing t with
  | nil => exact ⟨rfl, rfl⟩
  | cons c calls ih =>
    rw [Machine.run_cons]
    rcases next_cases ht c with ⟨-, hsame, -⟩ | ⟨now, -, hle, hmax, hm⟩
    · rw [hsame]
      exact ih ht
    · obtain ⟨h1, h2⟩ := ih (hm.timed (ht.tick hle hmax))
      exact ⟨h1.trans hm.fixed.1, h2.trans hm.fixed.2⟩

/-- `finish` raises only on the clock. -/
theorem finish_answers [DecidableEq I] {t : StreamTracker I} {now : Int} (hle : t.lastNow ≤ now)
    (hmax : now ≤ 2 ^ 63 - 1) : machine.out t (.finish now) = .ok .finished := by
  rcases advanceFreshness_eq t now with ⟨n, -, -, -, hadv⟩ | ⟨hbad, -⟩
  · simp only [Machine.out, machine, finish, hadv]
    split <;> rfl
  · exact absurd ⟨hle, hmax⟩ hbad

/-- What is accepted and still in the window. -/
def InWindow (log : Log) (width : Nat) (sequence : Nat) : Prop :=
  ∃ e ∈ log.accepted, e.2 = sequence ∧ log.total < e.1 + width

/-- A set bit is an accepted sequence in the window. -/
theorem Matches.bit_iff {t : StreamTracker I} {log : Log} (h : Matches t log) (hc : t.closed = false) {highest : Nat}
    (hh : t.highest = some highest) {i : Nat} (hi : i < t.width) :
    t.bits.testBit i = true ↔ InWindow log t.width (wrap (highest - i)) := by
  obtain ⟨rfl, -⟩ := h.highest highest hh
  have hwidth := h.width_le
  have hwindow := h.window_le
  rw [h.bits hc]
  constructor
  · rintro ⟨-, e, he, heq⟩
    refine ⟨e, he, ?_, by omega⟩
    rw [(h.entries e he).2, ← heq, Nat.add_sub_cancel_left]
  · rintro ⟨e, he, heq, hin⟩
    obtain ⟨hle, hseq⟩ := h.entries e he
    refine ⟨hi, e, he, ?_⟩
    -- two offsets below the width are equal if their sequences are
    rw [hseq] at heq
    unfold wrap at heq
    omega

/-- A sequence is reordered only if it is not in the window. -/
theorem reordered_new [DecidableEq I] {t : StreamTracker I} {log : Log} (ht : t.Timed) (h : Matches t log)
    {identity : I} {kind sequence now datagramBytes : Int} {valid : Bool}
    (hout : machine.out t (.observe identity kind sequence now datagramBytes valid) =
      .ok (.outcome .reorderedPublication)) :
    t.closed = false ∧ ¬ InWindow log t.width sequence.toNat := by
  rcases next_cases ht (.observe identity kind sequence now datagramBytes valid) with
    ⟨-, -, e, he⟩ | ⟨n, -, hle, hmax, hm⟩
  · rw [he] at hout
    cases hout
  · rw [hout] at hm
    generalize machine.next t _ = t' at hm
    cases hm with
    | idle ho => cases ho
    | @reordered _ s _ highest behind hc hh hs hb hw hclear =>
      refine ⟨hc, fun hin => ?_⟩
      have hbit : t.bits.testBit behind = false := hclear
      obtain ⟨e, he, heq, hlt⟩ := hin
      have hseq : (s : Int).toNat = wrap (highest - behind) := by
        unfold wrap at hb ⊢
        omega
      rw [(h.bit_iff hc hh hw).2 ⟨e, he, heq.trans hseq, hlt⟩] at hbit
      cases hbit

/-- **The bitmap equals the set model.** In every run of a new tracker: while
it is open, bit `i` is set exactly when the sequence `i` below the highest was
accepted and is in the window, the width is that of the window, and no bit is
set beyond it; every position up to the highest is accepted, given up or
pending; a reordered sequence was not in the window; and `finish` gives up what
is pending, once. -/
theorem bitmap_is_window [DecidableEq I] {identity : I} {kind staleNs window : Int} {startNs : Option Int}
    {t₀ : StreamTracker I} (hnew : new identity kind staleNs window startNs = .ok t₀) (calls : List (Call I)) :
    let t := machine.run t₀ calls
    let log := logOf t₀ calls
    (∀ highest, t.closed = false → t.highest = some highest →
      (∀ i < t.width, t.bits.testBit i = true ↔ InWindow log t.width (wrap (highest - i))) ∧
      (t.width : Int) = min window (1 + log.total)) ∧
    (∀ i, t.width ≤ i → t.bits.testBit i = false) ∧
    (t.highest.isSome = true →
      t.counts (.outcome .baseline) + t.counts (.outcome .progress) + t.counts (.outcome .reorderedPublication) +
        t.counts .finalGaps + t.pendingGaps = 1 + log.total) ∧
    (∀ identity kind sequence now datagramBytes valid,
      machine.out t (.observe identity kind sequence now datagramBytes valid) =
        .ok (.outcome .reorderedPublication) → ¬ InWindow log t.width sequence.toNat) ∧
    (∀ now later, (∃ a, machine.out t (.finish now) = .ok a) →
      (machine.run t (.finish now :: later)).counts .finalGaps = t.counts .finalGaps + t.pendingGaps ∧
      (machine.run t (.finish now :: later)).pendingGaps = 0) := by
  intro t log
  obtain ⟨hsound, hstart⟩ := new_sound hnew
  obtain ⟨ht, h⟩ := run_matches hsound hstart calls
  refine ⟨fun highest hc hh => ⟨fun i hi => h.bit_iff hc hh hi, ?_⟩, Bits.lt_two_pow_iff.1 h.bits_lt,
    h.balance, fun _ _ _ _ _ _ hout => (reordered_new ht h hout).2, fun now later hok => ?_⟩
  · obtain ⟨_, w, -, hw, -, -, -, hform⟩ := new_ok hnew
    have hwindow : t.window = w := by
      rw [(run_fixed hsound calls).2]
      rcases hform with ⟨-, rfl⟩ | ⟨_, -, -, rfl⟩ <;> rfl
    have hwidth := h.width hc (Option.isSome_iff_exists.2 ⟨_, hh⟩)
    rw [hw, ← hwindow]
    exact_mod_cast hwidth
  · obtain ⟨ht', hc', hgaps⟩ := finish_gaps ht h hok
    obtain ⟨hclosed, hsame⟩ := run_closed ht' hc' later
    have hrun : machine.run t₀ (calls ++ .finish now :: later) = machine.run t (.finish now :: later) :=
      Machine.run_append _ _ _ _
    obtain ⟨-, hend⟩ := run_matches hsound hstart (calls ++ .finish now :: later)
    rw [hrun] at hend
    obtain ⟨hbits, hwidth⟩ := hend.closed hclosed
    refine ⟨hsame.trans hgaps, ?_⟩
    unfold pendingGaps
    rw [hbits, hwidth]
    rfl

/-- A jump across the wrap leaves two gaps, the sequence between fills one. -/
theorem bitmap_is_window_wrap :
    let t₀ : StreamTracker Unit := { identity := (), kind := 21, staleNs := 10, window := 4 }
    let calls : List (Call Unit) := [.observe () 21 (2 ^ 32 - 2) 0 100 true, .observe () 21 1 5 100 true,
      .observe () 21 (2 ^ 32 - 1) 6 100 true]
    (machine.run t₀ calls).bits = 0b1101 ∧
      ((machine.run t₀ calls).bits.testBit 2 = true ↔ InWindow (logOf t₀ calls) 4 (2 ^ 32 - 1)) ∧
      (machine.run t₀ (calls ++ [.finish 7, .finish 8])).counts .finalGaps = 0 + 1 := by
  intro t₀ calls
  have hnew : new () 21 10 4 none = .ok t₀ := rfl
  obtain ⟨hbits, -, -, -, hfinish⟩ := bitmap_is_window hnew calls
  have hwidth : (machine.run t₀ calls).width = 4 := by decide +kernel
  have hbit := (hbits 1 (by decide +kernel) (by decide +kernel)).1 2 (by decide +kernel)
  rw [hwidth] at hbit
  refine ⟨by decide +kernel, hbit, ?_⟩
  rw [Machine.run_append, (hfinish 7 [.finish 8] ⟨_, finish_answers (by decide +kernel) (by decide)⟩).1]
  decide +kernel

end StreamTracker

end Nucleo.Metrics
