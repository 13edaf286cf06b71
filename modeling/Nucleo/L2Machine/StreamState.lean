import Nucleo.Core.Serial
import Nucleo.Core.Lts

/-!
# The listener's history of one stream

Model of `StreamState`: the highest sequence, the sequences seen and missing
less than 64 behind it, and when it last went forward. A packet leaves by one
of four early exits (half range, duplicate, behind and missing, behind and not
missing) or goes forward, inside the window or beyond it.

The sets are finite sets of `u32` values; where the source writes them into an
event they are sorted, and `count` is the size of the set.

Results:
* `observe_cases`: what a packet can do, exit by exit.
* `run_kept`: the history stays within the window.
* `run_balanced`: every announced sequence is resolved once.
* `stream_state_bookkeeping`: the bookkeeping over any run.
-/
namespace Nucleo.Listener
open Serial

/-! ## `stream_state.py` -/

/-- `HALF`. -/
def half : Nat := 2 ^ 31

/-- `WINDOW`. -/
def window : Nat := 64

/-- `outcome`, with what comes with it. -/
inductive Outcome
  | notSeen
  | baseline
  | duplicatePublication
  | reorderedPublication
  | latePublication
  | acceptedPublication
  | recovered
  | stale (age_ms : ℚ)
  | discontinuity (reason : String) (advance : Nat)
  | gapPending (sequences : Finset UInt32)
  | gapFinal (sequences : Finset UInt32) (reason : String)
  | retiredSession
  | sessionChange (previous_boot_id : Option String)

/-- mirrors Rust/tools/message-demo/python/stream_state.py:10-17 -/
structure StreamState where
  stale_seconds : ℚ
  highest : Option UInt32
  seen : Finset UInt32
  missing : Finset UInt32
  last_progress : Option ℚ
  stale : Bool
  deriving DecidableEq

namespace StreamState

/-- `StreamState(stale_seconds)`. -/
def new (stale_seconds : ℚ) : StreamState where
  stale_seconds := stale_seconds
  highest := none
  seen := ∅
  missing := ∅
  last_progress := none
  stale := false

/-- mirrors Rust/tools/message-demo/python/stream_state.py:19-31 -/
def finish (s : StreamState) (reason : String) : StreamState × List Outcome :=
  if s.missing.Nonempty then ({ s with missing := ∅ }, [.gapFinal s.missing reason])
  else (s, [])

/-- mirrors Rust/tools/message-demo/python/stream_state.py:33-41 -/
def tick (s : StreamState) (now : ℚ) : StreamState × List Outcome :=
  match s.last_progress with
  | none => (s, [])
  | some last_progress =>
    if s.stale = false ∧ s.stale_seconds ≤ now - last_progress then
      ({ s with stale := true }, [.stale ((now - last_progress) * 1000)])
    else (s, [])

/-- What a baseline and every step forward end with.
mirrors Rust/tools/message-demo/python/stream_state.py:109-114 -/
def accept (s : StreamState) (now : ℚ) (events : List Outcome) : StreamState × List Outcome :=
  ({ s with last_progress := some now, stale := false },
    events ++ (if s.stale then [.recovered] else []) ++ [.acceptedPublication])

/-- The missing sequences a step forward to `sequence` gives up. -/
def expired (sequence : UInt32) (missing : Finset UInt32) : Finset UInt32 :=
  missing.filter fun value => window ≤ lag sequence value

/-- `if sequences: events.append(..)`. -/
def unlessEmpty (sequences : Finset UInt32) (event : Outcome) : List Outcome :=
  if sequences.Nonempty then [event] else []

/-- A step forward inside the window.
mirrors Rust/tools/message-demo/python/stream_state.py:77-107 -/
def forward (s : StreamState) (highest sequence : UInt32) : StreamState × List Outcome :=
  let new_missing := ahead highest (lag sequence highest)
  let missing := s.missing ∪ new_missing
  let finalized := expired sequence missing
  ({ s with
      highest := some sequence
      missing := missing \ finalized
      seen := insert sequence (s.seen.filter fun value => lag sequence value < window) },
    unlessEmpty new_missing (.gapPending new_missing) ++
      unlessEmpty finalized (.gapFinal finalized "window_expired"))

/-- mirrors Rust/tools/message-demo/python/stream_state.py:43-115 -/
def observe (s : StreamState) (sequence : UInt32) (now : ℚ) : StreamState × List Outcome :=
  match s.highest with
  | none => accept { s with highest := some sequence, seen := {sequence} } now [.baseline]
  | some highest =>
    let advance := lag sequence highest
    if advance = half then (s, [.discontinuity "ambiguous_half_range" advance])
    else if advance = 0 ∨ sequence ∈ s.seen then (s, [.duplicatePublication])
    else if half < advance then
      if sequence ∈ s.missing then
        ({ s with missing := s.missing.erase sequence, seen := insert sequence s.seen },
          [.reorderedPublication])
      else (s, [.latePublication])
    else if window < advance then
      let finished := s.finish "discontinuity"
      accept { finished.1 with highest := some sequence, seen := {sequence} } now
        (finished.2 ++ [.discontinuity "beyond_reorder_window" advance])
    else accept (s.forward highest sequence).1 now (s.forward highest sequence).2

/-- A call of the tracker. -/
inductive Call
  | observe (sequence : UInt32) (now : ℚ)
  | tick (now : ℚ)
  | finish (reason : String)

def step (s : StreamState) : Call → StreamState × List Outcome
  | .observe sequence now => s.observe sequence now
  | .tick now => s.tick now
  | .finish reason => s.finish reason

def machine : Machine StreamState Call (List Outcome) := ⟨step⟩

/-! ## What one call does -/

section
variable {s : StreamState} {sequence highest : UInt32} {now : ℚ}

/-- The exits of `observe`. -/
inductive Observed (s : StreamState) (sequence : UInt32) (now : ℚ) :
    StreamState × List Outcome → Prop
  | baseline (hh : s.highest = none) :
    Observed s sequence now
      (accept { s with highest := some sequence, seen := {sequence} } now [.baseline])
  | ambiguous {highest : UInt32} (hh : s.highest = some highest)
      (ha : lag sequence highest = half) :
    Observed s sequence now (s, [.discontinuity "ambiguous_half_range" half])
  | duplicate {highest : UInt32} (hh : s.highest = some highest)
      (ha : lag sequence highest ≠ half) (hd : lag sequence highest = 0 ∨ sequence ∈ s.seen) :
    Observed s sequence now (s, [.duplicatePublication])
  | reordered {highest : UInt32} (hh : s.highest = some highest)
      (ha : half < lag sequence highest) (hs : sequence ∉ s.seen) (hm : sequence ∈ s.missing) :
    Observed s sequence now
      ({ s with missing := s.missing.erase sequence, seen := insert sequence s.seen },
        [.reorderedPublication])
  | late {highest : UInt32} (hh : s.highest = some highest)
      (ha : half < lag sequence highest) (hs : sequence ∉ s.seen) (hm : sequence ∉ s.missing) :
    Observed s sequence now (s, [.latePublication])
  | beyond {highest : UInt32} (hh : s.highest = some highest)
      (hw : window < lag sequence highest) (ha : lag sequence highest < half)
      (hs : sequence ∉ s.seen) :
    Observed s sequence now
      (accept { s with highest := some sequence, seen := {sequence}, missing := ∅ } now
        ((s.finish "discontinuity").2 ++
          [.discontinuity "beyond_reorder_window" (lag sequence highest)]))
  | forward {highest : UInt32} (hh : s.highest = some highest)
      (h0 : 0 < lag sequence highest) (hw : lag sequence highest ≤ window)
      (hs : sequence ∉ s.seen) :
    Observed s sequence now
      (accept (s.forward highest sequence).1 now (s.forward highest sequence).2)

theorem finish_state (s : StreamState) (reason : String) :
    (s.finish reason).1 = { s with missing := ∅ } := by
  unfold finish
  split
  · rfl
  · rename_i h
    rw [Finset.not_nonempty_iff_eq_empty] at h
    rw [← h]

/-- **What a packet can do.** -/
theorem observe_cases (s : StreamState) (sequence : UInt32) (now : ℚ) :
    Observed s sequence now (s.observe sequence now) := by
  unfold observe
  split
  · rename_i hh
    exact .baseline hh
  · rename_i highest hh
    by_cases ha : lag sequence highest = half
    · rw [if_pos ha, ha]
      exact .ambiguous hh ha
    · rw [if_neg ha]
      split
      · rename_i hd
        exact .duplicate hh ha hd
      · rename_i hd
        rw [not_or] at hd
        split
        · rename_i hlt
          split
          · rename_i hm
            exact .reordered hh hlt hd.2 hm
          · rename_i hm
            exact .late hh hlt hd.2 hm
        · rename_i hlt
          split
          · rename_i hw
            simp only [finish_state]
            exact .beyond hh hw (by omega) hd.2
          · rename_i hw
            exact .forward hh (Nat.pos_of_ne_zero hd.1) (by omega) hd.2

/-! ## The window -/

/-- With a highest sequence: it is seen, nothing is both seen and missing, and
everything is less than a window behind. -/
structure Tracked (s : StreamState) (highest : UInt32) : Prop where
  seen_highest : highest ∈ s.seen
  disjoint : Disjoint s.seen s.missing
  behind : ∀ value ∈ s.seen ∪ s.missing, lag highest value < window
  progress : s.last_progress ≠ none

/-- Before the first packet there is no history. -/
def Kept (s : StreamState) : Prop :=
  match s.highest with
  | none => s.seen = ∅ ∧ s.missing = ∅ ∧ s.last_progress = none ∧ s.stale = false
  | some highest => Tracked s highest

theorem kept_none (h : s.highest = none) :
    Kept s ↔ s.seen = ∅ ∧ s.missing = ∅ ∧ s.last_progress = none ∧ s.stale = false := by
  unfold Kept
  rw [h]

theorem kept_some (h : s.highest = some highest) : Kept s ↔ Tracked s highest := by
  unfold Kept
  rw [h]

theorem Tracked.kept (h : Tracked s highest) (hh : s.highest = some highest) : Kept s :=
  (kept_some hh).2 h

theorem new_kept (stale_seconds : ℚ) : Kept (new stale_seconds) := ⟨rfl, rfl, rfl, rfl⟩

theorem Tracked.highest_not_missing (h : Tracked s highest) : highest ∉ s.missing :=
  Finset.disjoint_left.1 h.disjoint h.seen_highest

theorem Tracked.seen_card (h : Tracked s highest) : s.seen.card ≤ window :=
  card_le_of_lag_lt fun value hv => h.behind value (Finset.mem_union_left _ hv)

/-- The highest sequence is never missing, so one place less. -/
theorem Tracked.missing_card (h : Tracked s highest) : s.missing.card + 1 ≤ window := by
  rw [← Finset.card_insert_of_notMem h.highest_not_missing]
  refine card_le_of_lag_lt fun value hv => show lag highest value < window from ?_
  rcases Finset.mem_insert.1 hv with rfl | hm
  · simp [window]
  · exact h.behind value (Finset.mem_union_right _ hm)

/-- A sequence ahead of the highest is not in the history. -/
theorem Tracked.not_ahead (h : Tracked s highest) (h0 : 0 < lag sequence highest)
    (hlt : lag sequence highest < half) : sequence ∉ s.seen ∪ s.missing := by
  intro hm
  have hb := h.behind sequence hm
  have hne : sequence ≠ highest := fun e => by rw [e, lag_self] at h0; omega
  have hflip := lag_flip hne
  unfold half at hlt
  unfold window at hb
  omega

/-- The new missing sequences lie between the two highest, and are news. -/
theorem Tracked.mem_new (h : Tracked s highest) (hw : lag sequence highest ≤ window)
    {value : UInt32} (hv : value ∈ ahead highest (lag sequence highest)) :
    0 < lag sequence value ∧ lag sequence value < window ∧ value ∉ s.seen ∪ s.missing := by
  obtain ⟨hv0, hvlt⟩ := (mem_ahead (Nat.le_of_lt (lag_lt sequence highest))).1 hv
  have hsplit := lag_split (Nat.le_of_lt hvlt)
  refine ⟨by omega, by omega, h.not_ahead hv0 ?_⟩
  unfold half
  unfold window at hw
  omega

/-- What is left of the missing sequences after a step forward. -/
theorem mem_forward_missing {value : UInt32} :
    value ∈ (s.forward highest sequence).1.missing ↔
      (value ∈ s.missing ∨ value ∈ ahead highest (lag sequence highest)) ∧
        lag sequence value < window := by
  simp only [forward, expired, Finset.mem_sdiff, Finset.mem_union, Finset.mem_filter, not_and,
    Nat.not_le]
  exact ⟨fun h => ⟨h.1, h.2 h.1⟩, fun h => ⟨h.1, fun _ => h.2⟩⟩

theorem mem_forward_seen (highest : UInt32) {value : UInt32} :
    value ∈ (s.forward highest sequence).1.seen ↔
      value = sequence ∨ (value ∈ s.seen ∧ lag sequence value < window) := by
  simp only [forward, Finset.mem_insert, Finset.mem_filter]

theorem Tracked.forward (h : Tracked s highest) (h0 : 0 < lag sequence highest)
    (hw : lag sequence highest ≤ window) :
    Tracked (accept (s.forward highest sequence).1 now (s.forward highest sequence).2).1 sequence := by
  have hlt : lag sequence highest < half := by unfold half; unfold window at hw; omega
  have hnews := h.not_ahead h0 hlt
  rw [Finset.mem_union, not_or] at hnews
  refine ⟨Finset.mem_insert_self _ _, ?_, ?_, Option.some_ne_none now⟩
  · refine Finset.disjoint_left.2 fun value hs hm => ?_
    have hs' := (mem_forward_seen highest).1 hs
    have hm' := mem_forward_missing.1 hm
    rcases hs' with rfl | ⟨hs', -⟩
    · rcases hm'.1 with hold | hnew
      · exact hnews.2 hold
      · have := (h.mem_new hw hnew).1
        rw [lag_self] at this
        omega
    · rcases hm'.1 with hold | hnew
      · exact Finset.disjoint_left.1 h.disjoint hs' hold
      · exact (h.mem_new hw hnew).2.2 (Finset.mem_union_left _ hs')
  · intro value hv
    rcases Finset.mem_union.1 hv with hs | hm
    · rcases (mem_forward_seen highest).1 hs with rfl | ⟨-, hlag⟩
      · simp [window]
      · exact hlag
    · exact (mem_forward_missing.1 hm).2

/-- **Every packet keeps the window.** -/
theorem observe_kept (h : Kept s) (sequence : UInt32) (now : ℚ) :
    Kept (s.observe sequence now).1 := by
  have hc := observe_cases s sequence now
  generalize s.observe sequence now = r at hc ⊢
  cases hc with
  | baseline hh =>
    refine Tracked.kept ⟨Finset.mem_singleton_self sequence, ?_, ?_, Option.some_ne_none now⟩ rfl
    · simp [accept, ((kept_none hh).1 h).2.1]
    · simp [accept, ((kept_none hh).1 h).2.1, window]
  | ambiguous hh ha => exact h
  | duplicate hh ha hd => exact h
  | late hh ha hs hm => exact h
  | reordered hh ha hs hm =>
    have ht := (kept_some hh).1 h
    refine Tracked.kept ⟨Finset.mem_insert_of_mem ht.seen_highest, ?_, ?_, ht.progress⟩ hh
    · refine Finset.disjoint_left.2 fun value hv hv' => ?_
      rw [Finset.mem_erase] at hv'
      rcases Finset.mem_insert.1 hv with rfl | hv
      · exact hv'.1 rfl
      · exact Finset.disjoint_left.1 ht.disjoint hv hv'.2
    · intro value hv
      simp only [Finset.mem_union, Finset.mem_insert, Finset.mem_erase] at hv
      rcases hv with (rfl | hv) | ⟨-, hv⟩
      · exact ht.behind _ (Finset.mem_union_right _ hm)
      · exact ht.behind _ (Finset.mem_union_left _ hv)
      · exact ht.behind _ (Finset.mem_union_right _ hv)
  | beyond hh hw ha hs =>
    refine Tracked.kept ⟨Finset.mem_singleton_self sequence, ?_, ?_, Option.some_ne_none now⟩ rfl
    · simp [accept]
    · simp [accept, window]
  | forward hh h0 hw hs => exact (((kept_some hh).1 h).forward h0 hw).kept rfl

theorem finish_kept (h : Kept s) (reason : String) : Kept (s.finish reason).1 := by
  rw [finish_state]
  cases hh : s.highest with
  | none =>
    have hn := (kept_none hh).1 h
    exact ⟨hn.1, rfl, hn.2.2⟩
  | some highest =>
    have ht := (kept_some hh).1 h
    refine Tracked.kept ⟨ht.seen_highest, Finset.disjoint_empty_right _, ?_, ht.progress⟩ rfl
    intro value hv
    refine ht.behind value (Finset.mem_union_left _ ?_)
    simpa using hv

/-- A tick only makes a stream that had progress stale. -/
theorem tick_cases (s : StreamState) (now : ℚ) :
    s.tick now = (s, []) ∨ ∃ last_progress, s.last_progress = some last_progress ∧
      s.stale = false ∧ s.stale_seconds ≤ now - last_progress ∧
      s.tick now = ({ s with stale := true }, [.stale ((now - last_progress) * 1000)]) := by
  unfold tick
  split
  · exact .inl rfl
  · rename_i last_progress hl
    split
    · rename_i hc
      exact .inr ⟨last_progress, hl, hc.1, hc.2, rfl⟩
    · exact .inl rfl

theorem tick_kept (h : Kept s) (now : ℚ) : Kept (s.tick now).1 := by
  rcases tick_cases s now with ht | ⟨last_progress, hl, -, -, ht⟩
  · rwa [ht]
  · rw [ht]
    cases hh : s.highest with
    | none =>
      rw [((kept_none hh).1 h).2.2.1] at hl
      cases hl
    | some highest =>
      have hk := (kept_some hh).1 h
      exact Tracked.kept ⟨hk.seen_highest, hk.disjoint, hk.behind, hk.progress⟩ rfl

theorem next_kept (s : StreamState) (call : Call) (h : Kept s) : Kept (machine.next s call) := by
  cases call with
  | observe sequence now => exact observe_kept h sequence now
  | tick now => exact tick_kept h now
  | finish reason => exact finish_kept h reason

theorem run_kept (h : Kept s) (calls : List Call) : Kept (machine.run s calls) :=
  machine.run_inv next_kept s h calls

end

/-! ## Announced and resolved -/

/-- How many sequences an outcome announces, gives up or takes in late. -/
def announced : Outcome → Nat
  | .gapPending sequences => sequences.card
  | _ => 0

def finalised : Outcome → Nat
  | .gapFinal sequences _ => sequences.card
  | _ => 0

def reordered : Outcome → Nat
  | .reorderedPublication => 1
  | _ => 0

def Call.sequence? : Call → Option UInt32
  | .observe sequence _ => some sequence
  | _ => none

/-- What an outcome of a call says of one sequence: announced (`true`) or
resolved (`false`). A reordered packet carries the sequence of the call. -/
def mark (call : Call) (value : UInt32) : Outcome → Option Bool
  | .gapPending sequences => if value ∈ sequences then some true else none
  | .gapFinal sequences _ => if value ∈ sequences then some false else none
  | .reorderedPublication => if call.sequence? = some value then some false else none
  | _ => none

/-- An entry of the log: the state before the call, the call, its events. -/
abbrev Entry := StreamState × Call × List Outcome

def total (count : Outcome → Nat) (log : List Entry) : Nat :=
  (log.map fun e => (e.2.2.map count).sum).sum

/-- Everything the log says of one sequence, in order. -/
def marks (value : UInt32) (log : List Entry) : List Bool :=
  log.flatMap fun e => e.2.2.filterMap (mark e.2.1 value)

/-- An announcement opens a gap that is closed, a resolution closes one that is
open; anything else has no result. -/
def follow : Bool → List Bool → Option Bool
  | pending, [] => some pending
  | false, true :: rest => follow true rest
  | true, false :: rest => follow false rest
  | _, _ => none

theorem follow_append (pending : Bool) (first rest : List Bool) :
    follow pending (first ++ rest) = (follow pending first).bind fun pending => follow pending rest := by
  induction first generalizing pending with
  | nil => simp [follow]
  | cons m first ih => cases pending <;> cases m <;> simp [follow, ih]

section
variable {s : StreamState} {sequence highest : UInt32} {now : ℚ} {value : UInt32} {call : Call}

theorem filterMap_accept (s : StreamState) (events : List Outcome) :
    (accept s now events).2.filterMap (mark call value) = events.filterMap (mark call value) := by
  have hr : mark call value .recovered = none := rfl
  have ha : mark call value .acceptedPublication = none := rfl
  unfold accept
  cases s.stale <;> simp [hr, ha]

theorem sum_accept (count : Outcome → Nat) (hr : count .recovered = 0)
    (ha : count .acceptedPublication = 0) (s : StreamState) (events : List Outcome) :
    ((accept s now events).2.map count).sum = (events.map count).sum := by
  unfold accept
  cases s.stale <;> simp [hr, ha]

theorem filterMap_unlessEmpty {sequences : Finset UInt32} {event : Outcome} {b : Bool}
    (h : mark call value event = if value ∈ sequences then some b else none) :
    (unlessEmpty sequences event).filterMap (mark call value) =
      if value ∈ sequences then [b] else [] := by
  unfold unlessEmpty
  split
  · by_cases hv : value ∈ sequences <;> simp [h, hv]
  · rename_i hne
    rw [Finset.not_nonempty_iff_eq_empty] at hne
    simp [hne]

theorem sum_unlessEmpty (count : Outcome → Nat) {sequences : Finset UInt32} {event : Outcome}
    (h : sequences = ∅ → count event = 0) :
    ((unlessEmpty sequences event).map count).sum = count event := by
  unfold unlessEmpty
  split
  · simp
  · rename_i hne
    rw [h (Finset.not_nonempty_iff_eq_empty.1 hne)]
    rfl

theorem finish_events (s : StreamState) (reason : String) :
    (s.finish reason).2 = unlessEmpty s.missing (.gapFinal s.missing reason) := by
  unfold finish unlessEmpty
  split <;> rfl

/-- What the three counts make of a call, before and after. -/
def Counted (s s' : StreamState) (events : List Outcome) : Prop :=
  s.missing.card + (events.map announced).sum =
    (events.map reordered).sum + (events.map finalised).sum + s'.missing.card

theorem finish_counted (s : StreamState) (reason : String) :
    Counted s (s.finish reason).1 (s.finish reason).2 := by
  unfold Counted
  rw [finish_events, finish_state, sum_unlessEmpty announced fun _ => rfl,
    sum_unlessEmpty reordered fun _ => rfl,
    sum_unlessEmpty finalised Finset.card_eq_zero.2]
  simp [announced, reordered, finalised]

theorem Tracked.forward_counted (h : Tracked s highest) (hw : lag sequence highest ≤ window) :
    Counted s (accept (s.forward highest sequence).1 now (s.forward highest sequence).2).1
      (accept (s.forward highest sequence).1 now (s.forward highest sequence).2).2 := by
  have hdisj : Disjoint s.missing (ahead highest (lag sequence highest)) :=
    Finset.disjoint_left.2 fun value hm hn =>
      (h.mem_new hw hn).2.2 (Finset.mem_union_right _ hm)
  have hsub : expired sequence (s.missing ∪ ahead highest (lag sequence highest)) ⊆
      s.missing ∪ ahead highest (lag sequence highest) := Finset.filter_subset _ _
  have hcard := Finset.card_sdiff_add_card_eq_card hsub
  rw [Finset.card_union_of_disjoint hdisj] at hcard
  unfold Counted
  rw [sum_accept announced rfl rfl, sum_accept reordered rfl rfl, sum_accept finalised rfl rfl]
  simp only [StreamState.forward, List.map_append, List.sum_append]
  rw [sum_unlessEmpty announced Finset.card_eq_zero.2,
    sum_unlessEmpty announced fun _ => rfl, sum_unlessEmpty reordered fun _ => rfl,
    sum_unlessEmpty reordered fun _ => rfl, sum_unlessEmpty finalised fun _ => rfl,
    sum_unlessEmpty finalised Finset.card_eq_zero.2]
  simp only [announced, reordered, finalised, accept]
  omega

theorem observe_counted (h : Kept s) (sequence : UInt32) (now : ℚ) :
    Counted s (s.observe sequence now).1 (s.observe sequence now).2 := by
  have hc := observe_cases s sequence now
  generalize s.observe sequence now = r at hc ⊢
  cases hc with
  | baseline hh =>
    unfold Counted
    rw [sum_accept announced rfl rfl, sum_accept reordered rfl rfl, sum_accept finalised rfl rfl]
    simp [announced, reordered, finalised, accept]
  | ambiguous hh ha => simp [Counted, announced, reordered, finalised]
  | duplicate hh ha hd => simp [Counted, announced, reordered, finalised]
  | late hh ha hs hm => simp [Counted, announced, reordered, finalised]
  | reordered hh ha hs hm =>
    have := Finset.card_erase_add_one hm
    simp [Counted, announced, reordered, finalised]
    omega
  | beyond hh hw ha hs =>
    have hf := finish_counted s "discontinuity"
    unfold Counted at hf ⊢
    rw [finish_state] at hf
    rw [sum_accept announced rfl rfl, sum_accept reordered rfl rfl, sum_accept finalised rfl rfl]
    simpa [announced, reordered, finalised, accept] using hf
  | forward hh h0 hw hs => exact ((kept_some hh).1 h).forward_counted hw

theorem next_counted (h : Kept s) (call : Call) :
    Counted s (machine.next s call) (machine.out s call) := by
  cases call with
  | observe sequence now => exact observe_counted h sequence now
  | finish reason => exact finish_counted s reason
  | tick now =>
    show Counted s (s.tick now).1 (s.tick now).2
    rcases tick_cases s now with ht | ⟨last_progress, -, -, -, ht⟩
    · simp [ht, Counted]
    · simp [ht, Counted, announced, reordered, finalised]

/-! One sequence at a time: the events of a call take the gap from what it was
to what it is. -/

/-- The events of a call, followed for one sequence. -/
def Followed (value : UInt32) (s s' : StreamState) (marks : List Bool) : Prop :=
  follow (decide (value ∈ s.missing)) marks = some (decide (value ∈ s'.missing))

theorem finish_followed (s : StreamState) (call : Call) (reason : String) :
    Followed value s { s with missing := ∅ } ((s.finish reason).2.filterMap (mark call value)) := by
  unfold Followed
  rw [finish_events, filterMap_unlessEmpty (b := false) rfl]
  by_cases hv : value ∈ s.missing <;> simp [hv, follow]

theorem Tracked.forward_followed (h : Tracked s highest) (hw : lag sequence highest ≤ window) :
    Followed value s (s.forward highest sequence).1
      ((s.forward highest sequence).2.filterMap (mark call value)) := by
  have hexpired : value ∈ expired sequence (s.missing ∪ ahead highest (lag sequence highest)) ↔
      value ∈ s.missing ∧ window ≤ lag sequence value := by
    simp only [expired, Finset.mem_filter, Finset.mem_union]
    refine ⟨fun hv => ⟨hv.1.resolve_right fun hn => ?_, hv.2⟩, fun hv => ⟨.inl hv.1, hv.2⟩⟩
    have := (h.mem_new hw hn).2.1
    omega
  unfold Followed
  simp only [StreamState.forward, List.filterMap_append]
  rw [filterMap_unlessEmpty (b := true) rfl, filterMap_unlessEmpty (b := false) rfl]
  simp only [hexpired, Finset.mem_sdiff, Finset.mem_union]
  by_cases hn : value ∈ ahead highest (lag sequence highest)
  · have hnew := h.mem_new hw hn
    rw [Finset.mem_union, not_or] at hnew
    simp [hn, hnew.2.2.2, follow]
  · by_cases hm : value ∈ s.missing
    · by_cases hlag : window ≤ lag sequence value <;> simp [hn, hm, hlag, follow]
    · simp [hn, hm, follow]

theorem observe_followed (h : Kept s) (value sequence : UInt32) (now : ℚ) :
    Followed value s (s.observe sequence now).1
      ((s.observe sequence now).2.filterMap (mark (.observe sequence now) value)) := by
  have hc := observe_cases s sequence now
  generalize s.observe sequence now = r at hc ⊢
  cases hc with
  | baseline hh =>
    rw [filterMap_accept]
    rfl
  | ambiguous hh ha => rfl
  | duplicate hh ha hd => rfl
  | late hh ha hs hm => rfl
  | reordered hh ha hs hm =>
    have hmark : mark (.observe sequence now) value .reorderedPublication =
        if sequence = value then some false else none := by
      by_cases hv : sequence = value
      · rw [if_pos hv]
        exact if_pos (congrArg some hv)
      · rw [if_neg hv]
        exact if_neg fun he => hv (Option.some.inj he)
    by_cases hv : sequence = value
    · subst hv
      simp [Followed, hmark, hm, follow]
    · have hv' : value ≠ sequence := fun e => hv e.symm
      simp [Followed, hmark, hv, hv', follow]
  | beyond hh hw ha hs =>
    rw [filterMap_accept, List.filterMap_append]
    have hnone : ∀ advance, [Outcome.discontinuity "beyond_reorder_window" advance].filterMap
        (mark (.observe sequence now) value) = [] := fun _ => rfl
    rw [hnone, List.append_nil]
    exact finish_followed s _ "discontinuity"
  | forward hh h0 hw hs =>
    rw [filterMap_accept]
    exact ((kept_some hh).1 h).forward_followed hw

theorem next_followed (h : Kept s) (value : UInt32) (call : Call) :
    Followed value s (machine.next s call) ((machine.out s call).filterMap (mark call value)) := by
  cases call with
  | observe sequence now => exact observe_followed h value sequence now
  | finish reason =>
    show Followed value s (s.finish reason).1 _
    rw [finish_state]
    exact finish_followed s _ reason
  | tick now =>
    show Followed value s (s.tick now).1 ((s.tick now).2.filterMap _)
    rcases tick_cases s now with ht | ⟨last_progress, -, -, -, ht⟩ <;> rw [ht] <;> rfl

/-- **Every announced sequence is resolved once**, over any run. -/
theorem run_balanced (h : Kept s) (calls : List Call) :
    s.missing.card + total announced (machine.trace s calls) =
        total reordered (machine.trace s calls) + total finalised (machine.trace s calls) +
          (machine.run s calls).missing.card ∧
      ∀ value, Followed value s (machine.run s calls) (marks value (machine.trace s calls)) := by
  induction calls generalizing s with
  | nil => exact ⟨by simp [total], fun value => rfl⟩
  | cons call calls ih =>
    obtain ⟨ihc, ihf⟩ := ih (next_kept s call h)
    refine ⟨?_, fun value => ?_⟩
    · have hstep := next_counted h call
      unfold Counted at hstep
      simp only [Machine.trace_cons, Machine.run_cons, total, List.map_cons, List.sum_cons] at ihc ⊢
      omega
    · have hstep := next_followed h value call
      have hrest := ihf value
      unfold Followed at hstep hrest ⊢
      rw [Machine.trace_cons, Machine.run_cons, marks, List.flatMap_cons, follow_append, hstep]
      exact hrest

end

/-! ## Progress and jumps -/

/-- A baseline, or a step forward of less than half the range. -/
def Ahead (s : StreamState) (sequence : UInt32) : Prop :=
  ∀ highest, s.highest = some highest → 0 < lag sequence highest ∧ lag sequence highest < half

/-- The outcomes of a packet that is not a baseline or a step forward. -/
def Outcome.Unmoving (o : Outcome) : Prop :=
  o = .duplicatePublication ∨ o = .reorderedPublication ∨ o = .latePublication ∨
    ∃ advance, o = .discontinuity "ambiguous_half_range" advance

/-- What a call does to `last_progress`. -/
structure Progress (s : StreamState) (call : Call) : Prop where
  forward : ∀ sequence now, call = .observe sequence now → Ahead s sequence →
    (machine.next s call).last_progress = some now
  otherwise : (∀ sequence now, call = .observe sequence now → ¬ Ahead s sequence) →
    (machine.next s call).last_progress = s.last_progress
  unmoved : ∀ o ∈ machine.out s call, Outcome.Unmoving o →
    (machine.next s call).last_progress = s.last_progress

/-- A step forward brings at most 64 sequences into the history, lets go of at
most 64, and announces fewer than 64. -/
def Jump (s : StreamState) (call : Call) : Prop :=
  ∀ sequence now, call = .observe sequence now → Ahead s sequence →
    (((machine.next s call).seen ∪ (machine.next s call).missing) \ (s.seen ∪ s.missing)).card ≤
        window ∧
      ((s.seen ∪ s.missing) \ ((machine.next s call).seen ∪ (machine.next s call).missing)).card ≤
        window ∧
      ∀ sequences, .gapPending sequences ∈ machine.out s call → sequences.card < window

section
variable {s : StreamState} {sequence highest : UInt32} {now : ℚ} {o : Outcome}

theorem mem_unlessEmpty {sequences : Finset UInt32} {event : Outcome}
    (h : o ∈ unlessEmpty sequences event) : o = event := by
  unfold unlessEmpty at h
  split at h
  · exact List.mem_singleton.1 h
  · cases h

theorem mem_accept {events : List Outcome} (h : o ∈ (accept s now events).2) :
    o ∈ events ∨ o = .recovered ∨ o = .acceptedPublication := by
  unfold accept at h
  simp only [List.mem_append, List.mem_singleton] at h
  rcases h with (he | hr) | ha
  · exact .inl he
  · split at hr
    · exact .inr (.inl (List.mem_singleton.1 hr))
    · cases hr
  · exact .inr (.inr ha)

/-- A baseline, a jump and a step inside the window announce themselves. -/
theorem accept_not_unmoving {events : List Outcome} (h : o ∈ (accept s now events).2)
    (hevents : ∀ o ∈ events, ¬ Outcome.Unmoving o) : ¬ Outcome.Unmoving o := by
  rcases mem_accept h with he | rfl | rfl
  · exact hevents o he
  · simp [Outcome.Unmoving]
  · simp [Outcome.Unmoving]

theorem not_ahead_of_same (hh : s.highest = some highest)
    (hd : lag sequence highest = 0 ∨ half ≤ lag sequence highest) : ¬ Ahead s sequence := by
  intro h
  have := h highest hh
  omega

theorem observe_progress (h : Kept s) (sequence : UInt32) (now : ℚ) :
    (Ahead s sequence → (s.observe sequence now).1.last_progress = some now) ∧
      (¬ Ahead s sequence → (s.observe sequence now).1.last_progress = s.last_progress) ∧
      ∀ o ∈ (s.observe sequence now).2, Outcome.Unmoving o → ¬ Ahead s sequence := by
  have hc := observe_cases s sequence now
  generalize s.observe sequence now = r at hc ⊢
  cases hc with
  | baseline hh =>
    have hahead : Ahead s sequence := fun highest hs => by rw [hh] at hs; cases hs
    refine ⟨fun _ => rfl, fun hn => absurd hahead hn, fun o ho hu => absurd hu ?_⟩
    exact accept_not_unmoving ho (by simp [Outcome.Unmoving])
  | ambiguous hh ha =>
    have hnot := not_ahead_of_same hh (.inr (Nat.le_of_eq ha.symm))
    exact ⟨fun hp => absurd hp hnot, fun _ => rfl, fun _ _ _ => hnot⟩
  | duplicate hh ha hd =>
    have hnot : ¬ Ahead s sequence := by
      rcases hd with h0 | hs
      · exact not_ahead_of_same hh (.inl h0)
      · intro hp
        obtain ⟨h0, hlt⟩ := hp _ hh
        exact ((kept_some hh).1 h).not_ahead h0 hlt (Finset.mem_union_left _ hs)
    exact ⟨fun hp => absurd hp hnot, fun _ => rfl, fun _ _ _ => hnot⟩
  | reordered hh ha hs hm =>
    have hnot := not_ahead_of_same hh (.inr (Nat.le_of_lt ha))
    exact ⟨fun hp => absurd hp hnot, fun _ => rfl, fun _ _ _ => hnot⟩
  | late hh ha hs hm =>
    have hnot := not_ahead_of_same hh (.inr (Nat.le_of_lt ha))
    exact ⟨fun hp => absurd hp hnot, fun _ => rfl, fun _ _ _ => hnot⟩
  | @beyond highest hh hw ha hs =>
    have hahead : Ahead s sequence := fun highest' hs' => by
      rw [hh] at hs'
      obtain rfl := Option.some.inj hs'
      exact ⟨by omega, ha⟩
    refine ⟨fun _ => rfl, fun hn => absurd hahead hn, fun o ho hu => absurd hu ?_⟩
    refine accept_not_unmoving ho fun o ho => ?_
    rcases List.mem_append.1 ho with hf | hd
    · rw [finish_events] at hf
      rw [mem_unlessEmpty hf]
      simp [Outcome.Unmoving]
    · rw [List.mem_singleton.1 hd]
      simp [Outcome.Unmoving]
  | @forward highest hh h0 hw hs =>
    have hahead : Ahead s sequence := fun highest' hs' => by
      rw [hh] at hs'
      obtain rfl := Option.some.inj hs'
      exact ⟨h0, by unfold half; unfold window at hw; omega⟩
    refine ⟨fun _ => rfl, fun hn => absurd hahead hn, fun o ho hu => absurd hu ?_⟩
    refine accept_not_unmoving ho fun o ho => ?_
    rcases List.mem_append.1 ho with hf | hf
    · rw [mem_unlessEmpty hf]
      simp [Outcome.Unmoving]
    · rw [mem_unlessEmpty hf]
      simp [Outcome.Unmoving]

theorem next_progress (h : Kept s) (call : Call) : Progress s call := by
  cases call with
  | observe sequence now =>
    obtain ⟨hahead, hnot, hunmoving⟩ := observe_progress h sequence now
    refine ⟨fun sequence' now' he hp => ?_, fun hp => hnot (hp sequence now rfl), fun o ho hu => ?_⟩
    · cases he
      exact hahead hp
    · exact hnot (hunmoving o ho hu)
  | finish reason =>
    have hsame : (s.finish reason).1.last_progress = s.last_progress := by rw [finish_state]
    exact ⟨fun _ _ he => (by cases he), fun _ => hsame, fun _ _ _ => hsame⟩
  | tick now =>
    have hsame : (s.tick now).1.last_progress = s.last_progress := by
      rcases tick_cases s now with ht | ⟨last_progress, -, -, -, ht⟩ <;> rw [ht]
    exact ⟨fun _ _ he => (by cases he), fun _ => hsame, fun _ _ _ => hsame⟩

theorem kept_card (h : Kept s) : (s.seen ∪ s.missing).card ≤ window := by
  cases hh : s.highest with
  | none =>
    obtain ⟨hs, hm, -⟩ := (kept_none hh).1 h
    simp [hs, hm]
  | some highest => exact card_le_of_lag_lt ((kept_some hh).1 h).behind

theorem observe_pending (s : StreamState) (sequence : UInt32) (now : ℚ)
    {sequences : Finset UInt32} (h : .gapPending sequences ∈ (s.observe sequence now).2) :
    sequences.card < window := by
  have hc := observe_cases s sequence now
  generalize s.observe sequence now = r at hc h
  cases hc with
  | baseline hh => simpa using mem_accept h
  | ambiguous hh ha => simp at h
  | duplicate hh ha hd => simp at h
  | reordered hh ha hs hm => simp at h
  | late hh ha hs hm => simp at h
  | beyond hh hw ha hs =>
    rcases mem_accept h with he | he | he
    · rcases List.mem_append.1 he with hf | hd
      · rw [finish_events] at hf
        cases mem_unlessEmpty hf
      · simp at hd
    · cases he
    · cases he
  | @forward highest hh h0 hw hs =>
    rcases mem_accept h with he | he | he
    · rcases List.mem_append.1 he with hf | hf
      · cases mem_unlessEmpty hf
        have := card_ahead_le highest (lag sequence highest)
        omega
      · cases mem_unlessEmpty hf
    · cases he
    · cases he

theorem next_jump (h : Kept s) (call : Call) : Jump s call := by
  intro sequence now hcall _
  subst hcall
  refine ⟨?_, ?_, fun sequences hs => observe_pending s sequence now hs⟩
  · exact Nat.le_trans (Finset.card_le_card Finset.sdiff_subset)
      (kept_card (next_kept s (.observe sequence now) h))
  · exact Nat.le_trans (Finset.card_le_card Finset.sdiff_subset) (kept_card h)

end

/-! ## Over a run -/

/-- The two sets: apart, both within the window behind the highest sequence. -/
structure Bounded (s : StreamState) : Prop where
  disjoint : Disjoint s.seen s.missing
  behind : ∀ value ∈ s.seen ∪ s.missing, ∃ highest, s.highest = some highest ∧
    lag highest value < 64
  missing_card : s.missing.card ≤ 63
  seen_card : s.seen.card ≤ 64

theorem Kept.bounded {s : StreamState} (h : Kept s) : Bounded s := by
  cases hh : s.highest with
  | none =>
    obtain ⟨hs, hm, -⟩ := (kept_none hh).1 h
    exact ⟨by simp [hs], by simp [hs, hm], by simp [hm], by simp [hs]⟩
  | some highest =>
    have ht := (kept_some hh).1 h
    have hm := ht.missing_card
    have hs := ht.seen_card
    unfold window at hm hs
    exact ⟨ht.disjoint, fun value hv => ⟨highest, hh, ht.behind value hv⟩, by omega, hs⟩

/-- **The bookkeeping of a stream**, after every sequence of packets, ticks and
ends: the sets stay within the window; what was announced is what came late,
what was given up and what is still missing, each sequence announced and
resolved in turn; time moves with progress alone, and no jump costs more than
the window. -/
theorem stream_state_bookkeeping (stale_seconds : ℚ) (calls : List Call) :
    let s := machine.run (new stale_seconds) calls
    let log := machine.trace (new stale_seconds) calls
    Bounded s ∧
      total announced log = total reordered log + total finalised log + s.missing.card ∧
      (∀ value, follow false (marks value log) = some (decide (value ∈ s.missing))) ∧
      ∀ e ∈ log, Progress e.1 e.2.1 ∧ Jump e.1 e.2.1 := by
  have hnew := new_kept stale_seconds
  obtain ⟨hcount, hfollow⟩ := run_balanced hnew calls
  refine ⟨(run_kept hnew calls).bounded, ?_, fun value => hfollow value, fun e he => ?_⟩
  · simpa [new] using hcount
  · have hk := (machine.trace_inv next_kept _ hnew calls e he).1
    exact ⟨next_progress hk e.2.1, next_jump hk e.2.1⟩

end StreamState

end Nucleo.Listener
