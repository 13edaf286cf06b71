import Nucleo.L2Machine.StreamStatistics
import Nucleo.Core.Dwell

/-!
# Statistics rebuilt from the log against the tracker

The listener logs what `DeviceStreams` returns; `stream_statistics` reads the
log again and never sees the tracker. Here both run over the same calls: the
log of a run of the tracker, and the tracker itself at every instant.

Results:
* `out_state`: the logged outcomes of a call take the replay's state where the
  call takes the stream.
* `replay_spent`: the seconds of the replay are those the tracker spent.
* `statistics_match_tracker`: the statistics of a window are the tracker's.
-/
namespace Nucleo.Listener
open DeviceStreams Dwell

/-! ## Calls with a time, and their log -/

/-- A call at a time in seconds: a message, or a tick. -/
structure Timed where
  now : ℚ
  message : Option Message

def Timed.call (t : Timed) : Call :=
  match t.message with
  | some message => .observe message t.now
  | none => .tick t.now

/-- The time in the log, in milliseconds. -/
def Timed.stamp (t : Timed) : ℚ := t.now * 1000

/-- A returned event as it is logged; `attach` says which outcomes carry the
message of the call. -/
def logged (attach : Outcome → Bool) (t : Timed) (e : Event) : ℚ × Record :=
  (t.stamp,
    { outcome := e.outcome
      kind := some e.kind
      boot_id := e.boot_id
      message := if attach e.outcome then t.message else none })

/-- The log of a run. -/
def eventLog (attach : Outcome → Bool) : DeviceStreams → List Timed → List (ℚ × Record)
  | _, [] => []
  | d, t :: ts =>
    (machine.out d t.call).map (logged attach t) ++ eventLog attach (machine.next d t.call) ts

/-- The tracker after the calls. -/
def after (d : DeviceStreams) (ts : List Timed) : DeviceStreams :=
  machine.run d (ts.map Timed.call)

/-- What a stream is: without progress, fresh or stale. -/
def conditionOf (s : StreamState) : Condition :=
  if s.last_progress = none then .notSeen else if s.stale then .stale else .fresh

open Classical in
/-- What the stream of a kind is at an instant: after every call up to it. -/
noncomputable def conditionAt (d : DeviceStreams) (ts : List Timed) (kind : Kind) (τ : ℝ) :
    Condition :=
  conditionOf ((after d (ts.filter fun t => ((t.stamp : ℚ) : ℝ) ≤ τ)).streams kind)

/-! ## One call, one kind -/

/-- The outcomes of one kind. -/
def ofKind (kind : Kind) (events : List Event) : List Outcome :=
  (events.filter fun e => e.kind = kind).map Event.outcome

section
variable {d : DeviceStreams} {kind : Kind} {message : Message} {now : ℚ}

theorem ofKind_append (kind : Kind) (first rest : List Event) :
    ofKind kind (first ++ rest) = ofKind kind first ++ ofKind kind rest := by
  simp [ofKind]

theorem ofKind_tag (kind kind' : Kind) (boot : Option String) (outcomes : List Outcome) :
    ofKind kind (outcomes.map (tag kind' boot)) = if kind' = kind then outcomes else [] := by
  unfold ofKind
  by_cases h : kind' = kind <;> simp [List.filter_map, Function.comp_def, tag, h]

theorem ofKind_each (run : StreamState → StreamState × List Outcome) :
    ofKind kind (d.each run).2 = (run (d.streams kind)).2 := by
  simp only [each, kinds, List.flatMap_cons, List.flatMap_nil, List.append_nil, ofKind_append,
    ofKind_tag]
  cases kind <;> simp

theorem accept_state (s : StreamState) (events : List Outcome) (state : Condition) :
    (s.accept now events).2.foldl nextState state = conditionOf (s.accept now events).1 := by
  simp [StreamState.accept, nextState, conditionOf]

/-- The outcomes of a packet say what becomes of its stream. -/
theorem observe_state (s : StreamState) (sequence : UInt32) (now : ℚ) :
    (s.observe sequence now).2.foldl nextState (conditionOf s) =
      conditionOf (s.observe sequence now).1 := by
  have hc := StreamState.observe_cases s sequence now
  generalize s.observe sequence now = r at hc ⊢
  cases hc with
  | baseline hh => exact accept_state _ _ _
  | ambiguous hh ha => rfl
  | duplicate hh ha hd => rfl
  | reordered hh ha hs hm => rfl
  | late hh ha hs hm => rfl
  | beyond hh hw ha hs => exact accept_state _ _ _
  | forward hh h0 hw hs => exact accept_state _ _ _

theorem tick_state (s : StreamState) (now : ℚ) :
    (s.tick now).2.foldl nextState (conditionOf s) = conditionOf (s.tick now).1 := by
  rcases StreamState.tick_cases s now with ht | ⟨last_progress, hl, -, -, ht⟩
  · rw [ht]
    rfl
  · rw [ht]
    simp [nextState, conditionOf, hl]

theorem hear_state (d : DeviceStreams) (message : Message) (now : ℚ) (kind : Kind) :
    (ofKind kind (d.hear message now).2).foldl nextState (conditionOf (d.streams kind)) =
      conditionOf ((d.hear message now).1.streams kind) := by
  have hout : ofKind kind (d.hear message now).2 = _ := ofKind_tag kind message.kind _ _
  rw [hout]
  by_cases hk : message.kind = kind
  · subst hk
    rw [if_pos rfl, hear_self]
    exact observe_state _ _ _
  · rw [if_neg hk, hear_other fun e => hk e.symm]
    rfl

/-- Giving up gaps leaves the state alone. -/
theorem finish_nextState (d : DeviceStreams) (reason : String) (kind : Kind) (state : Condition) :
    (ofKind kind (d.finish reason).2).foldl nextState state = state := by
  have hout : ofKind kind (d.finish reason).2 = _ := ofKind_each fun s => s.finish reason
  rw [hout, StreamState.finish_events]
  unfold StreamState.unlessEmpty
  split <;> rfl

/-- A new boot: the kind of the message is fresh, the other one not seen. -/
theorem change_state (hr : message.boot_id ∉ d.retired) (hb : some message.boot_id ≠ d.boot)
    (kind : Kind) (state : Condition) :
    (ofKind kind (d.observe message now).2).foldl nextState state =
      conditionOf ((d.observe message now).1.streams kind) := by
  obtain ⟨hstreams, hevents⟩ := @change_fresh d message now hr hb
  rw [hevents, hstreams]
  simp only [ofKind_append, List.foldl_append, finish_nextState, ofKind_tag]
  by_cases hk : message.kind = kind
  · subst hk
    rw [Function.update_self, if_pos rfl]
    rfl
  · rw [Function.update_of_ne fun e => hk e.symm, if_neg hk]
    cases kind <;> cases hm : message.kind <;> simp [ofKind, kinds, nextState, hm] at hk ⊢ <;> rfl

/-- **The outcomes a call logs for a kind say what becomes of its stream.** -/
theorem out_state (d : DeviceStreams) (t : Timed) (kind : Kind) :
    (ofKind kind (machine.out d t.call)).foldl nextState (conditionOf (d.streams kind)) =
      conditionOf ((machine.next d t.call).streams kind) := by
  unfold Timed.call
  cases t.message with
  | none =>
    show (ofKind kind (d.tick t.now).2).foldl nextState _ = conditionOf ((d.streams kind).tick t.now).1
    have hout : ofKind kind (d.tick t.now).2 = _ := ofKind_each fun s => s.tick t.now
    rw [hout]
    exact tick_state _ _
  | some message =>
    show (ofKind kind (d.observe message t.now).2).foldl nextState _ =
      conditionOf ((d.observe message t.now).1.streams kind)
    by_cases hr : message.boot_id ∈ d.retired
    · rw [observe_retired hr]
      unfold ofKind
      by_cases hk : message.kind = kind <;> simp [hk, nextState]
    · by_cases hb : some message.boot_id = d.boot
      · rw [observe_current hr hb]
        exact hear_state d message t.now kind
      · exact change_state hr hb kind _

end

/-! ## The log of a kind before a time -/

section
variable {attach : Outcome → Bool} {d : DeviceStreams} {t : Timed} {ts : List Timed} {kind : Kind}
  {start stop : ℚ}

/-- The records of a kind. -/
def kindLog (attach : Outcome → Bool) (kind : Kind) (d : DeviceStreams) (ts : List Timed) :
    List (ℚ × Record) :=
  (eventLog attach d ts).filter fun e => e.2.kindOf = some kind

/-- The records of one call. -/
def callLog (attach : Outcome → Bool) (kind : Kind) (d : DeviceStreams) (t : Timed) :
    List (ℚ × Record) :=
  ((machine.out d t.call).filter fun e => e.kind = kind).map (logged attach t)

theorem kindLog_cons : kindLog attach kind d (t :: ts) =
    callLog attach kind d t ++ kindLog attach kind (machine.next d t.call) ts := by
  simp [kindLog, callLog, eventLog, List.filter_map, Function.comp_def, logged, Record.kindOf]

theorem callLog_stamp : ∀ e ∈ callLog attach kind d t, e.1 = t.stamp := by
  intro e he
  obtain ⟨event, -, rfl⟩ := List.mem_map.1 he
  rfl

theorem callLog_outcomes :
    (callLog attach kind d t).map (fun e => e.2.outcome) = ofKind kind (machine.out d t.call) := by
  simp [callLog, ofKind, logged, Function.comp_def]

theorem eventLog_stamp (e : ℚ × Record) (he : e ∈ eventLog attach d ts) :
    ∃ t ∈ ts, e.1 = t.stamp := by
  induction ts generalizing d with
  | nil => cases he
  | cons t ts ih =>
    rcases List.mem_append.1 he with he | he
    · obtain ⟨event, -, rfl⟩ := List.mem_map.1 he
      exact ⟨t, List.mem_cons_self, rfl⟩
    · obtain ⟨t', ht', hs⟩ := ih he
      exact ⟨t', List.mem_cons_of_mem _ ht', hs⟩

/-- With nondecreasing times, the records before a time are those of the calls
before it. -/
theorem selected_eq (hmono : ts.Pairwise fun a b => a.now ≤ b.now) :
    ((eventLog attach d ts).filter fun e => e.2.kindOf = some kind ∧ e.1 < stop) =
      kindLog attach kind d (ts.filter fun t => t.stamp < stop) := by
  induction ts generalizing d with
  | nil => rfl
  | cons t ts ih =>
    obtain ⟨hlater, hmono'⟩ := List.pairwise_cons.1 hmono
    by_cases hs : t.stamp < stop
    · rw [List.filter_cons_of_pos (by simpa using hs), kindLog_cons, ← ih hmono']
      simp only [eventLog, List.filter_append, callLog, List.filter_map, Function.comp_def, logged,
        Record.kindOf, hs]
      simp
    · -- every later call is past the time too
      have hpast : ∀ t' ∈ t :: ts, ¬ t'.stamp < stop := by
        intro t' ht' hlt
        rcases List.mem_cons.1 ht' with rfl | hm
        · exact hs hlt
        · have := hlater t' hm
          unfold Timed.stamp at hs hlt
          linarith
      have hnone : (t :: ts).filter (fun t => t.stamp < stop) = [] :=
        List.filter_eq_nil_iff.2 fun t' ht' => by simpa using hpast t' ht'
      rw [hnone]
      refine List.filter_eq_nil_iff.2 fun e he => ?_
      obtain ⟨t', ht', heq⟩ := eventLog_stamp e he
      have := hpast t' ht'
      rw [← heq] at this
      simp [this]

/-! ## Seconds -/

/-- The time from `upto` to `stop` that the tracker's stream is at `x`. -/
def spent (kind : Kind) (stop : ℚ) (x : Condition) : DeviceStreams → List Timed → ℚ → ℚ
  | d, [], upto => if conditionOf (d.streams kind) = x then stop - upto else 0
  | d, t :: ts, upto =>
    (if conditionOf (d.streams kind) = x then max upto (min stop t.stamp) - upto else 0) +
      spent kind stop x (machine.next d t.call) ts (max upto (min stop t.stamp))

theorem spent_total (d : DeviceStreams) (ts : List Timed) (upto : ℚ) :
    spent kind stop .fresh d ts upto + spent kind stop .stale d ts upto +
      spent kind stop .notSeen d ts upto = stop - upto := by
  induction ts generalizing d upto with
  | nil =>
    simp only [spent]
    cases conditionOf (d.streams kind) <;> simp
  | cons t ts ih =>
    have := ih (machine.next d t.call) (max upto (min stop t.stamp))
    simp only [spent]
    cases conditionOf (d.streams kind) <;> simp <;> linarith

/-- **The seconds of the replay are those the tracker spent.** -/
theorem replay_spent {r r' : Replay} {upto : ℚ}
    (hstate : r.state = conditionOf (d.streams kind)) (hcursor : r.cursor ≤ upto)
    (hstart : start ≤ upto) (hlater : ∀ t ∈ ts, upto ≤ max start (min stop t.stamp))
    (hmono : ts.Pairwise fun a b => a.now ≤ b.now)
    (hr : Replay.readAll start stop r (kindLog attach kind d ts) = some r') (x : Condition) :
    r'.account x stop = r.account x upto + spent kind stop x d ts upto / 1000 := by
  induction ts generalizing d r upto with
  | nil =>
    cases hr
    rw [Replay.account_later r' x upto stop, hstate]
    simp only [spent]
    split <;> simp
  | cons t ts ih =>
    obtain ⟨hnext, hmono'⟩ := List.pairwise_cons.1 hmono
    rw [kindLog_cons, Replay.readAll_append] at hr
    obtain ⟨mid, hmid, hrest⟩ := Option.bind_eq_some_iff.1 hr
    have hup := hlater t List.mem_cons_self
    have hcut : max upto (min stop t.stamp) = max start (min stop t.stamp) := by
      refine le_antisymm (max_le hup (le_max_right _ _)) (max_le ?_ (le_max_right _ _))
      exact le_trans hstart (le_max_left _ _)
    obtain ⟨hs, hc, ha⟩ := Replay.readAll_account callLog_stamp (le_trans hcursor hup) hmid
    rw [callLog_outcomes, hstate, out_state] at hs
    have hrest' := ih hs hc (le_max_left _ _) (fun t' ht' => ?_) hmono' hrest
    · rw [hrest', ha x, Replay.account_later r x upto, hstate]
      simp only [spent, hcut]
      split <;> ring
    · have := hnext t' ht'
      refine max_le_max (le_refl _) (min_le_min (le_refl _) ?_)
      unfold Timed.stamp
      linarith

/-- Up to the first call the stream is as it was, then as the call leaves it. -/
theorem conditionAt_cons (hmono : (t :: ts).Pairwise fun a b => a.now ≤ b.now) :
    (∀ τ, τ < ((t.stamp : ℚ) : ℝ) → conditionAt d (t :: ts) kind τ = conditionOf (d.streams kind)) ∧
      ∀ τ, ((t.stamp : ℚ) : ℝ) ≤ τ →
        conditionAt d (t :: ts) kind τ = conditionAt (machine.next d t.call) ts kind τ := by
  obtain ⟨hlater, -⟩ := List.pairwise_cons.1 hmono
  refine ⟨fun τ hτ => ?_, fun τ hτ => ?_⟩
  · have hnone : (t :: ts).filter (fun t => ((t.stamp : ℚ) : ℝ) ≤ τ) = [] := by
      refine List.filter_eq_nil_iff.2 fun t' ht' => ?_
      have hle : t.stamp ≤ t'.stamp := by
        rcases List.mem_cons.1 ht' with rfl | hm
        · exact le_refl _
        · have := hlater t' hm
          unfold Timed.stamp
          linarith
      have hcast : ((t.stamp : ℚ) : ℝ) ≤ t'.stamp := by exact_mod_cast hle
      simpa using lt_of_lt_of_le hτ hcast
    unfold conditionAt
    rw [hnone]
    rfl
  · unfold conditionAt
    rw [List.filter_cons_of_pos (by simpa using hτ)]
    rfl

/-- The time spent is the measure of the instants. -/
theorem spent_dwell (hmono : ts.Pairwise fun a b => a.now ≤ b.now) (x : Condition) {upto : ℚ}
    (h : upto ≤ stop) :
    ((spent kind stop x d ts upto : ℚ) : ℝ) = dwell (conditionAt d ts kind) x upto stop := by
  induction ts generalizing d upto with
  | nil =>
    have hab : (upto : ℝ) ≤ stop := by exact_mod_cast h
    rw [dwell_const hab fun τ _ _ => show conditionAt d [] kind τ = conditionOf (d.streams kind) from rfl]
    simp only [spent]
    split <;> simp
  | cons t ts ih =>
    obtain ⟨hbefore, hafter⟩ := @conditionAt_cons d t ts kind hmono
    have hab : (upto : ℝ) ≤ stop := by exact_mod_cast h
    rw [dwell_cons hab hbefore hafter]
    simp only [spent]
    have hle : max upto (min stop t.stamp) ≤ stop := max_le h (min_le_left _ _)
    have hrest := @ih (machine.next d t.call) (List.pairwise_cons.1 hmono).2
      (max upto (min stop t.stamp)) hle
    push_cast at hrest ⊢
    rw [hrest]
    split <;> push_cast <;> rfl

end

/-! ## Gaps -/

section
variable {attach : Outcome → Bool} {d : DeviceStreams} {t : Timed} {ts : List Timed} {kind : Kind}
  {start stop : ℚ} {boot : String} {value : UInt32}

/-- Before the first message nothing has happened, and a boot has a name. -/
structure Settled (d : DeviceStreams) : Prop where
  idle : d.boot = none → d.streams = fresh d.thresholds
  named : d.boot ≠ some ""

/-- The messages of the call carry a boot ID. -/
def Named (t : Timed) : Prop := ∀ message, t.message = some message → message.boot_id ≠ ""

theorem each_boot {run : StreamState → StreamState × List Outcome} {e : Event}
    (h : e ∈ (d.each run).2) : ∃ kind, ∃ o ∈ (run (d.streams kind)).2, e = tag kind d.boot o := by
  obtain ⟨kind, -, he⟩ := List.mem_flatMap.1 h
  obtain ⟨o, ho, rfl⟩ := List.mem_map.1 he
  exact ⟨kind, o, ho, rfl⟩

/-- What both streams report is reported under a boot. -/
theorem Settled.each_named (h : Settled d) {run : StreamState → StreamState × List Outcome}
    (hnew : ∀ stale_seconds, (run (.new stale_seconds)).2 = []) :
    ∀ e ∈ (d.each run).2, ∃ boot, e.boot_id = some boot ∧ boot ≠ "" := by
  intro e he
  obtain ⟨kind, o, ho, rfl⟩ := each_boot he
  cases hb : d.boot with
  | none =>
    rw [h.idle hb] at ho
    have hnone : (run (fresh d.thresholds kind)).2 = [] := hnew _
    rw [hnone] at ho
    cases ho
  | some boot => exact ⟨boot, rfl, fun e => h.named (by rw [hb, e])⟩

theorem Settled.out_named (h : Settled d) (ht : Named t) :
    ∀ e ∈ machine.out d t.call, ∃ boot, e.boot_id = some boot ∧ boot ≠ "" := by
  unfold Timed.call
  cases hm : t.message with
  | none => exact h.each_named fun _ => rfl
  | some message =>
    have hname := ht message hm
    have hhear : ∀ d' : DeviceStreams, ∀ e ∈ (d'.hear message t.now).2,
        ∃ boot, e.boot_id = some boot ∧ boot ≠ "" := by
      intro d' e he
      obtain ⟨o, -, rfl⟩ := List.mem_map.1 he
      exact ⟨message.boot_id, rfl, hname⟩
    show ∀ e ∈ (d.observe message t.now).2, _
    by_cases hr : message.boot_id ∈ d.retired
    · rw [observe_retired hr]
      intro e he
      rw [List.mem_singleton.1 he]
      exact ⟨message.boot_id, rfl, hname⟩
    · by_cases hb : some message.boot_id = d.boot
      · rw [observe_current hr hb]
        exact hhear d
      · rw [observe_change hr hb]
        intro e he
        rcases List.mem_append.1 he with he | he
        · rcases List.mem_append.1 he with he | he
          · rcases List.mem_append.1 he with he | he
            · exact h.each_named (fun _ => rfl) e he
            · rw [List.mem_singleton.1 he]
              exact ⟨message.boot_id, rfl, hname⟩
          · obtain ⟨other, -, rfl⟩ := List.mem_map.1 he
            exact ⟨message.boot_id, rfl, hname⟩
        · exact hhear _ e he

theorem new_settled (thresholds : Kind → ℚ) : Settled (new thresholds) :=
  ⟨fun _ => rfl, fun h => by cases h⟩

theorem Settled.next (h : Settled d) (ht : Named t) : Settled (machine.next d t.call) := by
  unfold Timed.call
  cases hm : t.message with
  | none =>
    refine ⟨fun hb => ?_, h.named⟩
    show (fun kind => ((d.streams kind).tick t.now).1) = fresh d.thresholds
    rw [h.idle hb]
    rfl
  | some message =>
    show Settled (d.observe message t.now).1
    by_cases hr : message.boot_id ∈ d.retired
    · rwa [observe_retired hr]
    · have hboot : (d.observe message t.now).1.boot = some message.boot_id := by
        by_cases hb : some message.boot_id = d.boot
        · rw [observe_current hr hb]
          exact hb.symm
        · rw [observe_change hr hb]
          rfl
      refine ⟨fun hn => ?_, fun he => ?_⟩
      · rw [hboot] at hn
        cases hn
      · rw [hboot] at he
        exact ht message hm (Option.some.inj he)

theorem Settled.after (h : Settled d) (hts : ∀ t ∈ ts, Named t) : Settled (after d ts) := by
  induction ts generalizing d with
  | nil => exact h
  | cons t ts ih =>
    exact ih (h.next (hts t List.mem_cons_self)) fun t' ht' => hts t' (List.mem_cons_of_mem _ ht')

/-- Only a message is reordered. -/
theorem reordered_message {e : Event} (he : e ∈ machine.out d t.call)
    (ho : e.outcome = .reorderedPublication) : t.message ≠ none := by
  intro hm
  have hcall : t.call = .tick t.now := by
    unfold Timed.call
    rw [hm]
  rw [hcall] at he
  obtain ⟨kind, o, ho', rfl⟩ := each_boot he
  rcases StreamState.tick_cases (d.streams kind) t.now with ht | ⟨last_progress, -, -, -, ht⟩
  · rw [ht] at ho'
    cases ho'
  · rw [ht, List.mem_singleton] at ho'
    rw [ho'] at ho
    cases ho

/-- The replay reads from a record what the tracker said of the sequence. -/
theorem mark_logged (hattach : attach .reorderedPublication = true) {e : Event} {b : String}
    (he : e.boot_id = some b) (hb : b ≠ "") (key : Option String) :
    Replay.mark key value (logged attach t e).2 =
      if e.boot_id = key then StreamState.mark t.call.stream value e.outcome else none := by
  have hboot : (logged attach t e).2.bootOf = e.boot_id := by
    simp [logged, Record.bootOf, he, Option.filter, hb]
  have hsequence : t.message.map Message.sequence = t.call.stream.sequence? := by
    unfold Timed.call
    cases t.message <;> rfl
  unfold Replay.mark
  rw [hboot]
  by_cases hk : e.boot_id = key
  · rw [if_pos hk, if_pos hk]
    obtain ⟨outcome, kind, boot⟩ := e
    cases outcome with
    | reorderedPublication =>
      show (if (if attach .reorderedPublication then t.message else none).map Message.sequence =
        some value then some false else none) = _
      rw [hattach, if_pos rfl, hsequence]
      rfl
    | _ => rfl
  · rw [if_neg hk, if_neg hk]

theorem callLog_marks (hattach : attach .reorderedPublication = true)
    (hnamed : ∀ e ∈ machine.out d t.call, ∃ boot, e.boot_id = some boot ∧ boot ≠ "") :
    ((callLog attach kind d t).filterMap fun e => Replay.mark (some boot) value e.2) =
        (machine.out d t.call).filterMap (mark t.call kind boot value) ∧
      ((callLog attach kind d t).filterMap fun e => Replay.mark none value e.2) = [] := by
  refine ⟨?_, List.filterMap_eq_nil_iff.2 fun e he => ?_⟩
  · rw [callLog, List.filterMap_map, List.filterMap_filter]
    refine List.filterMap_congr fun e he => ?_
    obtain ⟨b, heb, hb⟩ := hnamed e he
    simp only [Function.comp_apply, mark_logged hattach heb hb, mark]
    by_cases hk : e.kind = kind <;> simp [hk]
  · obtain ⟨event, hevent, rfl⟩ := List.mem_map.1 he
    obtain ⟨b, heb, hb⟩ := hnamed event (List.mem_of_mem_filter hevent)
    rw [mark_logged hattach heb hb, heb]
    rfl

theorem kindLog_marks (hattach : attach .reorderedPublication = true) (h : Settled d)
    (hts : ∀ t ∈ ts, Named t) :
    ((kindLog attach kind d ts).filterMap fun e => Replay.mark (some boot) value e.2) =
        marks kind boot value (machine.trace d (ts.map Timed.call)) ∧
      ((kindLog attach kind d ts).filterMap fun e => Replay.mark none value e.2) = [] := by
  induction ts generalizing d with
  | nil => exact ⟨rfl, rfl⟩
  | cons t ts ih =>
    have ht := hts t List.mem_cons_self
    obtain ⟨hcall, hnone⟩ := @callLog_marks attach d t kind boot value hattach (h.out_named ht)
    obtain ⟨hrest, hnone'⟩ := ih (h.next ht) fun t' ht' => hts t' (List.mem_cons_of_mem _ ht')
    rw [kindLog_cons, List.filterMap_append, List.filterMap_append, hcall, hnone, hrest, hnone']
    exact ⟨rfl, rfl⟩

/-- Whoever follows the marks ends at the last of them. -/
theorem follow_last {pending pending' : Bool} {ms : List Bool}
    (h : StreamState.follow pending ms = some pending') :
    ms.foldl (fun _ m => m) pending = pending' := by
  induction ms generalizing pending with
  | nil => exact Option.some.inj h
  | cons m ms ih => cases pending <;> cases m <;> first | exact ih h | cases h

/-- **What is pending in the replay is missing in the tracker.** -/
theorem replay_pending (hattach : attach .reorderedPublication = true) (thresholds : Kind → ℚ)
    (hts : ∀ t ∈ ts, Named t) {r : Replay}
    (hr : Replay.readAll start stop (.new start) (kindLog attach kind (new thresholds) ts) = some r) :
    r.pending.card = ((after (new thresholds) ts).streams kind).missing.card := by
  have hset : r.pending = ((after (new thresholds) ts).streams kind).missing.image
      fun value => ((after (new thresholds) ts).boot, value) := by
    ext ⟨key, value⟩
    have hpending := Replay.readAll_pending key value hr
    rw [show decide ((key, value) ∈ (Replay.new start).pending) = false from rfl] at hpending
    simp only [Finset.mem_image, Prod.mk.injEq]
    cases key with
    | none =>
      rw [(@kindLog_marks attach (new thresholds) ts kind "" value hattach (new_settled _) hts).2]
        at hpending
      refine ⟨fun hm => ?_, ?_⟩
      · rw [decide_eq_true hm] at hpending
        cases hpending
      · rintro ⟨v, hv, hb, rfl⟩
        rw [((new_settled thresholds).after hts).idle hb] at hv
        exact absurd hv (Finset.notMem_empty v)
    | some boot =>
      have hfollow := run_followed (fun kind => StreamState.new_kept _) (ts.map Timed.call) kind boot
        value (d := new thresholds)
      rw [(@kindLog_marks attach (new thresholds) ts kind boot value hattach (new_settled _) hts).1]
        at hpending
      have hnone : ¬ (new thresholds).Pending kind boot value := fun hp => by cases hp.1
      unfold Followed at hfollow
      rw [decide_eq_false hnone] at hfollow
      rw [follow_last hfollow, decide_eq_decide] at hpending
      rw [hpending]
      refine ⟨fun hp => ⟨value, hp.2, hp.1, rfl⟩, ?_⟩
      rintro ⟨v, hv, hb, rfl⟩
      exact ⟨hb, hv⟩
  rw [hset, Finset.card_image_of_injective _ fun a b h => (Prod.mk.inj h).2]

/-! ## A window -/

theorem replay_isSome (hattach : attach .reorderedPublication = true) (r : Replay) :
    ∃ r', Replay.readAll start stop r (kindLog attach kind d ts) = some r' := by
  refine Replay.readAll_isSome fun e he ho => ?_
  have he' : e ∈ eventLog attach d ts := List.mem_of_mem_filter he
  clear he
  induction ts generalizing d with
  | nil => cases he'
  | cons t ts ih =>
    rcases List.mem_append.1 he' with he | he
    · obtain ⟨event, hevent, rfl⟩ := List.mem_map.1 he
      have ho' : event.outcome = .reorderedPublication := ho
      have hm := reordered_message hevent ho'
      simpa [logged, ho', hattach] using hm
    · exact ih he

/-- Calls from `stop` on change nothing before it. -/
theorem conditionAt_before {τ : ℝ} (hτ : τ < stop) :
    conditionAt d ts kind τ = conditionAt d (ts.filter fun t => t.stamp < stop) kind τ := by
  unfold conditionAt
  rw [List.filter_filter]
  refine congrArg (fun ts => conditionOf ((after d ts).streams kind)) ?_
  refine List.filter_congr fun t _ => ?_
  have himp : ((t.stamp : ℚ) : ℝ) ≤ τ → t.stamp < stop := fun h => by
    exact_mod_cast lt_of_le_of_lt h hτ
  by_cases h : ((t.stamp : ℚ) : ℝ) ≤ τ
  · simp [h, himp h]
  · simp [h]

end

/-- **Statistics rebuilt from the log are the tracker's**: for every run of
messages and ticks at nondecreasing times and every window, the gaps left at
its end are the sequences missing after the last call before it, the three
times cover the window, and each is the time its stream was in that state. -/
theorem statistics_match_tracker (attach : Outcome → Bool) (thresholds : Kind → ℚ)
    (ts : List Timed) (start stop : ℚ) (kind : Kind)
    (hattach : attach .reorderedPublication = true) (hts : ∀ t ∈ ts, Named t)
    (hmono : ts.Pairwise fun a b => a.now ≤ b.now) (hwindow : start < stop) :
    ∃ stats, streamStatistics (eventLog attach (new thresholds) ts) start stop kind = some stats ∧
      stats.gap_unresolved_at_end =
        ((after (new thresholds) (ts.filter fun t => t.stamp < stop)).streams kind).missing.card ∧
      stats.fresh_seconds + stats.stale_seconds + stats.not_seen_seconds = (stop - start) / 1000 ∧
      ∀ condition, ((stats.seconds condition : ℚ) : ℝ) =
        dwell (conditionAt (new thresholds) ts kind) condition start stop / 1000 := by
  have hmono' := hmono.filter fun t => decide (t.stamp < stop)
  have hts' : ∀ t ∈ ts.filter (fun t => decide (t.stamp < stop)), Named t := fun t ht =>
    hts t (List.mem_of_mem_filter ht)
  obtain ⟨r, hr⟩ := @replay_isSome attach (new thresholds)
    (ts.filter fun t => decide (t.stamp < stop)) kind start stop hattach (.new start)
  have haccount : ∀ x, r.account x stop =
      spent kind stop x (new thresholds) (ts.filter fun t => decide (t.stamp < stop)) start / 1000 := by
    intro x
    have h := @replay_spent attach (new thresholds) _ kind start stop (.new start) r start rfl
      (le_refl _) (le_refl _) (fun _ _ => le_max_left _ _) hmono' hr x
    rw [h]
    simp [Replay.account, Replay.new]
  rw [← selected_eq hmono] at hr
  obtain ⟨stats, hstats, hgaps, hseconds⟩ := streamStatistics_spec hr
  rw [selected_eq hmono] at hr
  refine ⟨stats, hstats, hgaps.trans (replay_pending hattach thresholds hts' hr), ?_,
    fun condition => ?_⟩
  · have hfresh := hseconds .fresh
    have hstale := hseconds .stale
    have hnot := hseconds .notSeen
    rw [haccount] at hfresh hstale hnot
    show stats.seconds .fresh + stats.seconds .stale + stats.seconds .notSeen = _
    rw [hfresh, hstale, hnot, ← spent_total (new thresholds)]
    ring
  · rw [hseconds, haccount, dwell_congr fun τ _ hτ => conditionAt_before hτ]
    push_cast
    rw [spent_dwell hmono' condition (le_of_lt hwindow)]

/-- A gap of two, seen in a window that starts before the first message. -/
theorem statistics_match_small :
    ∃ stats, streamStatistics (eventLog (fun _ => true) (new fun _ => 1)
        [⟨1, some ⟨"00c0ffee00c0ffee", .status, 7⟩⟩, ⟨2, some ⟨"00c0ffee00c0ffee", .status, 10⟩⟩,
          ⟨4, none⟩]) 0 5000 .status = some stats ∧
      stats.gap_unresolved_at_end = ((after (new fun _ => 1)
        ([⟨1, some ⟨"00c0ffee00c0ffee", .status, 7⟩⟩, ⟨2, some ⟨"00c0ffee00c0ffee", .status, 10⟩⟩,
          ⟨4, none⟩].filter fun t : Timed => t.stamp < 5000)).streams .status).missing.card ∧
      stats.fresh_seconds + stats.stale_seconds + stats.not_seen_seconds = (5000 - 0) / 1000 ∧
      ∀ condition, ((stats.seconds condition : ℚ) : ℝ) =
        dwell (conditionAt (new fun _ => 1)
          [⟨1, some ⟨"00c0ffee00c0ffee", .status, 7⟩⟩, ⟨2, some ⟨"00c0ffee00c0ffee", .status, 10⟩⟩,
            ⟨4, none⟩] .status) condition ((0 : ℚ) : ℝ) ((5000 : ℚ) : ℝ) / 1000 := by
  refine statistics_match_tracker (fun _ => true) (fun _ => 1) _ 0 5000 .status rfl ?_ ?_ (by norm_num)
  · intro t ht message hm
    simp only [List.mem_cons, List.not_mem_nil, or_false] at ht
    rcases ht with rfl | rfl | rfl <;> simp at hm
    · rw [← hm]
      decide
    · rw [← hm]
      decide
  · simp
    norm_num

end Nucleo.Listener
