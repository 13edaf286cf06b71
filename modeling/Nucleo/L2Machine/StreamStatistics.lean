import Nucleo.L2Machine.DeviceStreams

/-!
# Windowed statistics from the listener's log

Model of `stream_statistics`: a second reading of what the tracker did, from
the logged events alone. It follows the state of one kind between the records,
adds up the seconds of each state inside the window, and keeps the gaps that
are still open, boot by boot.

Stamps are in milliseconds and arithmetic is exact.

Results:
* `readAll_account`: what a record changes of the seconds, by a ledger that
  counts the open span in.
* `readAll_pending`: a sequence is pending when the last record about it
  announced it.
* `streamStatistics_spec`: the statistics take the ledger at the end.
-/
namespace Nucleo.Listener

/-! ## `comparison_stats.py` -/

/-- The states of the replay. -/
inductive Condition
  | notSeen
  | fresh
  | stale
  deriving DecidableEq, Repr

/-- The fields of a logged event the statistics read. -/
structure Record where
  outcome : Outcome
  kind : Option Kind
  boot_id : Option String
  message : Option Message

/-- `event.get("kind") or (event.get("message") or {}).get("kind")`. -/
def Record.kindOf (r : Record) : Option Kind := r.kind.or (r.message.map Message.kind)

/-- `event.get("boot_id") or (event.get("message") or {}).get("boot_id")`; an
empty boot ID is passed over. -/
def Record.bootOf (r : Record) : Option String :=
  (r.boot_id.filter fun boot => boot ≠ "").or (r.message.map Message.boot_id)

/-- The state after an outcome. -/
def nextState (state : Condition) : Outcome → Condition
  | .notSeen => .notSeen
  | .stale _ => .stale
  | .acceptedPublication => .fresh
  | .recovered => .fresh
  | _ => state

/-- The sets of `pending`, each sequence beside the boot it is kept under. -/
abbrev Gaps := Finset (Option String × UInt32)

/-- `pending` after a record; a reordered packet without its message raises.
mirrors Rust/tools/message-demo/python/comparison_stats.py:93-99 -/
def fileGaps (pending : Gaps) (r : Record) : Option Gaps :=
  match r.outcome with
  | .gapPending sequences => some (pending ∪ sequences.image fun value => (r.bootOf, value))
  | .gapFinal sequences _ => some (pending \ sequences.image fun value => (r.bootOf, value))
  | .reorderedPublication =>
    r.message.map fun message => pending.erase (r.bootOf, message.sequence)
  | _ => some pending

/-- What the loop carries. -/
structure Replay where
  state : Condition
  cursor : ℚ
  seconds : Condition → ℚ
  intervals : Condition → Nat
  pending : Gaps

namespace Replay

def new (start : ℚ) : Replay where
  state := .notSeen
  cursor := start
  seconds := fun _ => 0
  intervals := fun _ => 0
  pending := ∅

/-- The clock of the loop: the span up to the record goes to the state so far.
mirrors Rust/tools/message-demo/python/comparison_stats.py:79-92 -/
def pass (start stop : ℚ) (r : Replay) (stamp : ℚ) (outcome : Outcome) : Replay :=
  let upto := max start (min stop stamp)
  let next := nextState r.state outcome
  { r with
    seconds :=
      if r.cursor < upto then
        Function.update r.seconds r.state (r.seconds r.state + (upto - r.cursor) / 1000)
      else r.seconds
    cursor := if r.cursor < upto then upto else r.cursor
    intervals :=
      if next ≠ r.state ∧ start ≤ stamp then
        Function.update r.intervals next (r.intervals next + 1)
      else r.intervals
    state := next }

/-- The body of the loop. -/
def read (start stop : ℚ) (r : Replay) (e : ℚ × Record) : Option Replay :=
  (fileGaps r.pending e.2).map fun pending =>
    { r.pass start stop e.1 e.2.outcome with pending := pending }

def readAll (start stop : ℚ) (r : Replay) (events : List (ℚ × Record)) : Option Replay :=
  events.foldlM (read start stop) r

end Replay

/-- What `stream_statistics` returns. -/
structure Statistics where
  kind : Kind
  forward_publications : Nat
  reordered_publications : Nat
  unique_received : Nat
  unique_receive_hz : ℚ
  duplicate_publications : Nat
  late_publications : Nat
  discontinuities : Nat
  gap_final_observed : Nat
  gap_unresolved_at_end : Nat
  stale_transitions : Nat
  stale_seconds : ℚ
  not_seen_seconds : ℚ
  fresh_seconds : ℚ

/-- `outcome` as text. -/
def Outcome.name : Outcome → String
  | .notSeen => "not_seen"
  | .baseline => "baseline"
  | .duplicatePublication => "duplicate_publication"
  | .reorderedPublication => "reordered_publication"
  | .latePublication => "late_publication"
  | .acceptedPublication => "accepted_publication"
  | .recovered => "recovered"
  | .stale _ => "stale"
  | .discontinuity _ _ => "discontinuity"
  | .gapPending _ => "gap_pending"
  | .gapFinal _ _ => "gap_final"
  | .retiredSession => "retired_session"
  | .sessionChange _ => "session_change"

/-- mirrors Rust/tools/message-demo/python/comparison_stats.py:64-120 -/
def streamStatistics (events : List (ℚ × Record)) (start stop : ℚ) (kind : Kind) :
    Option Statistics :=
  let selected := events.filter fun e => e.2.kindOf = some kind ∧ e.1 < stop
  let measured := (selected.filter fun e => start ≤ e.1).map fun e => e.2.outcome
  let counts := fun name : String => (measured.map Outcome.name).count name
  (Replay.readAll start stop (.new start) selected).map fun r =>
    let seconds := Function.update r.seconds r.state
      (r.seconds r.state + (stop - r.cursor) / 1000)
    let forward := counts "accepted_publication"
    let reordered := counts "reordered_publication"
    { kind := kind
      forward_publications := forward
      reordered_publications := reordered
      unique_received := forward + reordered
      unique_receive_hz := ((forward + reordered : Nat) : ℚ) * 1000 / (stop - start)
      duplicate_publications := counts "duplicate_publication"
      late_publications := counts "late_publication"
      discontinuities := counts "discontinuity"
      gap_final_observed := (measured.map StreamState.finalised).sum
      gap_unresolved_at_end := r.pending.card
      stale_transitions := r.intervals .stale
      stale_seconds := seconds .stale
      not_seen_seconds := seconds .notSeen
      fresh_seconds := seconds .fresh }

/-- The seconds of a state. -/
def Statistics.seconds (s : Statistics) : Condition → ℚ
  | .notSeen => s.not_seen_seconds
  | .fresh => s.fresh_seconds
  | .stale => s.stale_seconds

/-! ## Reading a log -/

namespace Replay

variable {start stop stamp upto : ℚ} {r r' : Replay} {x : Condition} {outcome : Outcome}
  {e : ℚ × Record} {es : List (ℚ × Record)}

@[simp] theorem readAll_nil : readAll start stop r [] = some r := rfl

theorem readAll_cons : readAll start stop r (e :: es) =
    (read start stop r e).bind fun r => readAll start stop r es :=
  List.foldlM_cons ..

theorem readAll_append (first rest : List (ℚ × Record)) :
    readAll start stop r (first ++ rest) =
      (readAll start stop r first).bind fun r => readAll start stop r rest := by
  induction first generalizing r with
  | nil => rfl
  | cons e first ih =>
    rw [List.cons_append, readAll_cons, readAll_cons, Option.bind_assoc]
    exact congrArg _ (funext fun r => ih)

/-! ### Seconds -/

/-- The seconds of a state, with the span that is still open up to a time. -/
def account (r : Replay) (x : Condition) (upto : ℚ) : ℚ :=
  r.seconds x + if r.state = x then (upto - r.cursor) / 1000 else 0

theorem account_later (r : Replay) (x : Condition) (upto later : ℚ) :
    r.account x later = r.account x upto + if r.state = x then (later - upto) / 1000 else 0 := by
  unfold account
  split <;> ring

/-- Reading a record settles the span before it, and moves nothing. -/
theorem pass_account (h : r.cursor ≤ max start (min stop stamp)) :
    (r.pass start stop stamp outcome).account x (max start (min stop stamp)) =
        r.account x (max start (min stop stamp)) ∧
      (r.pass start stop stamp outcome).cursor = max start (min stop stamp) := by
  unfold account pass
  by_cases hlt : r.cursor < max start (min stop stamp)
  · simp only [if_pos hlt, sub_self, zero_div, ite_self, add_zero, and_true]
    by_cases hx : r.state = x
    · rw [if_pos hx, ← hx, Function.update_self]
    · rw [if_neg hx, Function.update_of_ne fun e => hx e.symm, add_zero]
  · have heq := le_antisymm h (not_lt.1 hlt)
    simp only [if_neg hlt]
    rw [heq]
    simp

theorem read_eq (h : read start stop r e = some r') :
    ∃ pending, fileGaps r.pending e.2 = some pending ∧
      r' = { r.pass start stop e.1 e.2.outcome with pending := pending } := by
  unfold read at h
  obtain ⟨pending, hf, hr⟩ := Option.map_eq_some_iff.1 h
  exact ⟨pending, hf, hr.symm⟩

/-- **The records of one moment** settle the span before it and leave the state
the last of them says. -/
theorem readAll_account (hstamp : ∀ e ∈ es, e.1 = stamp) (h : r.cursor ≤ max start (min stop stamp))
    (hr : readAll start stop r es = some r') :
    r'.state = (es.map fun e => e.2.outcome).foldl nextState r.state ∧
      r'.cursor ≤ max start (min stop stamp) ∧
      ∀ x, r'.account x (max start (min stop stamp)) = r.account x (max start (min stop stamp)) := by
  induction es generalizing r with
  | nil =>
    cases hr
    exact ⟨rfl, h, fun _ => rfl⟩
  | cons e es ih =>
    rw [readAll_cons] at hr
    obtain ⟨mid, hmid, hrest⟩ := Option.bind_eq_some_iff.1 hr
    obtain ⟨pending, -, rfl⟩ := read_eq hmid
    have hpass := fun x => @pass_account start stop e.1 r x e.2.outcome
      (by rwa [hstamp e List.mem_cons_self])
    rw [hstamp e List.mem_cons_self] at hpass hrest
    obtain ⟨hstate, hcursor, haccount⟩ := @ih
      { r.pass start stop stamp e.2.outcome with pending := pending }
      (fun e he => hstamp e (List.mem_cons_of_mem _ he)) (le_of_eq (hpass .fresh).2) hrest
    exact ⟨hstate, hcursor, fun x => (haccount x).trans (hpass x).1⟩

/-! ### Gaps -/

/-- What a record says of a sequence kept under a boot. -/
def mark (boot : Option String) (value : UInt32) (record : Record) : Option Bool :=
  if record.bootOf = boot then
    match record.outcome with
    | .gapPending sequences => if value ∈ sequences then some true else none
    | .gapFinal sequences _ => if value ∈ sequences then some false else none
    | .reorderedPublication =>
      if record.message.map Message.sequence = some value then some false else none
    | _ => none
  else none

theorem mem_fileGaps {pending pending' : Gaps} {record : Record} (boot : Option String)
    (value : UInt32) (h : fileGaps pending record = some pending') :
    (boot, value) ∈ pending' ↔ (mark boot value record).getD (decide ((boot, value) ∈ pending)) = true := by
  have himage : ∀ sequences : Finset UInt32,
      (boot, value) ∈ sequences.image (fun value => (record.bootOf, value)) ↔
        record.bootOf = boot ∧ value ∈ sequences := by
    intro sequences
    simp only [Finset.mem_image, Prod.mk.injEq]
    refine ⟨?_, fun h => ⟨value, h.2, h.1, rfl⟩⟩
    rintro ⟨v, hv, hb, rfl⟩
    exact ⟨hb, hv⟩
  unfold fileGaps at h
  unfold mark
  split at h
  · rename_i sequences _
    cases h
    rw [Finset.mem_union, himage]
    by_cases hb : record.bootOf = boot <;> by_cases hv : value ∈ sequences <;> simp [hb, hv]
  · rename_i sequences reason _
    cases h
    rw [Finset.mem_sdiff, himage]
    by_cases hb : record.bootOf = boot <;> by_cases hv : value ∈ sequences <;> simp [hb, hv]
  · obtain ⟨message, hm, rfl⟩ := Option.map_eq_some_iff.1 h
    have hpair : (boot, value) = (record.bootOf, message.sequence) ↔
        record.bootOf = boot ∧ message.sequence = value := by
      rw [Prod.mk.injEq, @eq_comm _ boot, @eq_comm _ value]
    rw [hm, Finset.mem_erase, ne_eq, hpair]
    by_cases hb : record.bootOf = boot <;> by_cases hv : message.sequence = value <;> simp [hb, hv]
  · cases h
    simp

/-- **A sequence is pending when the last record about it announced it.** -/
theorem readAll_pending (boot : Option String) (value : UInt32)
    (hr : readAll start stop r es = some r') :
    decide ((boot, value) ∈ r'.pending) =
      (es.filterMap fun e => mark boot value e.2).foldl (fun _ m => m)
        (decide ((boot, value) ∈ r.pending)) := by
  induction es generalizing r with
  | nil =>
    cases hr
    rfl
  | cons e es ih =>
    rw [readAll_cons] at hr
    obtain ⟨mid, hmid, hrest⟩ := Option.bind_eq_some_iff.1 hr
    obtain ⟨pending, hf, rfl⟩ := read_eq hmid
    have hmem := mem_fileGaps boot value hf
    rw [ih hrest]
    cases hm : mark boot value e.2 with
    | none =>
      rw [@List.filterMap_cons_none _ _ (fun e : ℚ × Record => mark boot value e.2) e es hm]
      rw [hm, Option.getD_none, decide_eq_true_eq] at hmem
      simp only [hmem]
    | some m =>
      rw [@List.filterMap_cons_some _ _ (fun e : ℚ × Record => mark boot value e.2) e es m hm,
        List.foldl_cons]
      rw [hm, Option.getD_some] at hmem
      simp only [hmem, Bool.decide_eq_true]

/-- A log in which every reordered packet has its message can be read. -/
theorem readAll_isSome (h : ∀ e ∈ es, e.2.outcome = .reorderedPublication → e.2.message ≠ none) :
    ∃ r', readAll start stop r es = some r' := by
  induction es generalizing r with
  | nil => exact ⟨r, rfl⟩
  | cons e es ih =>
    obtain ⟨pending, hf⟩ : ∃ pending, fileGaps r.pending e.2 = some pending := by
      unfold fileGaps
      split
      · exact ⟨_, rfl⟩
      · exact ⟨_, rfl⟩
      · rename_i ho
        obtain ⟨message, hm⟩ := Option.ne_none_iff_exists'.1 (h e List.mem_cons_self ho)
        rw [hm]
        exact ⟨_, rfl⟩
      · exact ⟨_, rfl⟩
    obtain ⟨r', hr'⟩ := ih (r := { r.pass start stop e.1 e.2.outcome with pending := pending })
      fun e he => h e (List.mem_cons_of_mem _ he)
    refine ⟨r', ?_⟩
    rw [readAll_cons, read, hf]
    exact hr'

end Replay

/-- What the statistics take from the replay: the open gaps, and the ledger at
the end of the window. -/
theorem streamStatistics_spec {events : List (ℚ × Record)} {start stop : ℚ} {kind : Kind}
    {r : Replay}
    (h : Replay.readAll start stop (.new start)
      (events.filter fun e => e.2.kindOf = some kind ∧ e.1 < stop) = some r) :
    ∃ stats, streamStatistics events start stop kind = some stats ∧
      stats.gap_unresolved_at_end = r.pending.card ∧
      ∀ x, stats.seconds x = r.account x stop := by
  have hseconds : ∀ x, Function.update r.seconds r.state
      (r.seconds r.state + (stop - r.cursor) / 1000) x = r.account x stop := by
    intro x
    unfold Replay.account
    by_cases hx : r.state = x
    · rw [if_pos hx, ← hx, Function.update_self]
    · rw [if_neg hx, Function.update_of_ne fun e => hx e.symm, add_zero]
  simp only [streamStatistics, h, Option.map_some]
  refine ⟨_, rfl, rfl, fun x => ?_⟩
  rw [← hseconds]
  cases x <;> rfl

end Nucleo.Listener
