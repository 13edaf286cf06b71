import Nucleo.L2Machine.StreamState

/-!
# The streams of one device, boot by boot

Model of `DeviceStreams`: one stream for each of the two published kinds, the
boot ID they belong to and the last eight boot IDs it replaced. A message of a
new boot ends both streams, retires the old boot and starts afresh; a message
of a retired one is reported and nothing else.

The listener drops a message that is of neither kind before it gets here, so a
kind is one of the two.

Results:
* `run_retired`: the retired boots are the last eight replaced.
* `run_followed`: gaps are announced and resolved under one boot.
* `run_session`: a stream is what its own boot sent.
* `device_streams_boots`: all of it, over any run.
-/
namespace Nucleo.Listener
open StreamState (follow)

/-! ## `stream_state.py` -/

/-- The kinds of `thresholds`. -/
inductive Kind
  | status
  | health
  deriving DecidableEq, Repr

/-- The kinds in the order of the dictionary. -/
def kinds : List Kind := [.status, .health]

/-- The fields of a message the tracker reads. -/
structure Message where
  boot_id : String
  kind : Kind
  sequence : UInt32
  deriving DecidableEq, Repr

/-- An outcome with the kind and boot ID it is reported under. -/
structure Event where
  outcome : Outcome
  kind : Kind
  boot_id : Option String

/-- mirrors Rust/tools/message-demo/python/stream_state.py:118-127 -/
structure DeviceStreams where
  thresholds : Kind → ℚ
  boot : Option String
  retired : List String
  streams : Kind → StreamState

namespace DeviceStreams

/-- A new stream of each kind. -/
def fresh (thresholds : Kind → ℚ) : Kind → StreamState := fun kind => .new (thresholds kind)

/-- `DeviceStreams(status_stale, health_stale)`. -/
def new (thresholds : Kind → ℚ) : DeviceStreams where
  thresholds := thresholds
  boot := none
  retired := []
  streams := fresh thresholds

/-- `dict(event, kind=kind, boot_id=boot)`. -/
def tag (kind : Kind) (boot : Option String) (outcome : Outcome) : Event := ⟨outcome, kind, boot⟩

/-- One call on both streams, its events under the current boot. -/
def each (d : DeviceStreams) (call : StreamState → StreamState × List Outcome) :
    DeviceStreams × List Event :=
  ({ d with streams := fun kind => (call (d.streams kind)).1 },
    kinds.flatMap fun kind => (call (d.streams kind)).2.map (tag kind d.boot))

/-- mirrors Rust/tools/message-demo/python/stream_state.py:129-134 -/
def tick (d : DeviceStreams) (now : ℚ) : DeviceStreams × List Event := d.each (·.tick now)

/-- mirrors Rust/tools/message-demo/python/stream_state.py:136-141 -/
def finish (d : DeviceStreams) (reason : String) : DeviceStreams × List Event :=
  d.each (·.finish reason)

/-- `append` to a `deque(maxlen=8)`. -/
def retire (retired : List String) (boot : String) : List String :=
  (retired ++ [boot]).drop ((retired ++ [boot]).length - 8)

/-- A message of a boot that is neither current nor retired.
mirrors Rust/tools/message-demo/python/stream_state.py:148-170 -/
def changeSession (d : DeviceStreams) (message : Message) : DeviceStreams × List Event :=
  ({ d with
      retired := (d.boot.map (retire d.retired)).getD d.retired
      boot := some message.boot_id
      streams := fresh d.thresholds },
    (d.finish "session_change").2 ++
      [⟨.sessionChange d.boot, message.kind, some message.boot_id⟩] ++
      (kinds.filter fun other => other ≠ message.kind).map fun other =>
        ⟨.notSeen, other, some message.boot_id⟩)

/-- The stream of the message's kind gets its sequence.
mirrors Rust/tools/message-demo/python/stream_state.py:171-175 -/
def hear (d : DeviceStreams) (message : Message) (now : ℚ) : DeviceStreams × List Event :=
  ({ d with
      streams := Function.update d.streams message.kind
        ((d.streams message.kind).observe message.sequence now).1 },
    ((d.streams message.kind).observe message.sequence now).2.map
      (tag message.kind (some message.boot_id)))

/-- mirrors Rust/tools/message-demo/python/stream_state.py:143-175 -/
def observe (d : DeviceStreams) (message : Message) (now : ℚ) : DeviceStreams × List Event :=
  if message.boot_id ∈ d.retired then
    (d, [⟨.retiredSession, message.kind, some message.boot_id⟩])
  else if some message.boot_id ≠ d.boot then
    let changed := d.changeSession message
    let heard := changed.1.hear message now
    (heard.1, changed.2 ++ heard.2)
  else d.hear message now

/-- A call of the tracker. -/
inductive Call
  | observe (message : Message) (now : ℚ)
  | tick (now : ℚ)
  | finish (reason : String)

def step (d : DeviceStreams) : Call → DeviceStreams × List Event
  | .observe message now => d.observe message now
  | .tick now => d.tick now
  | .finish reason => d.finish reason

def machine : Machine DeviceStreams Call (List Event) := ⟨step⟩

/-! ## What one message does -/

section
variable {d : DeviceStreams} {message : Message} {now : ℚ} {call : Call}

theorem observe_retired (h : message.boot_id ∈ d.retired) :
    d.observe message now = (d, [⟨.retiredSession, message.kind, some message.boot_id⟩]) :=
  if_pos h

theorem observe_change (hr : message.boot_id ∉ d.retired) (hb : some message.boot_id ≠ d.boot) :
    d.observe message now = (((d.changeSession message).1.hear message now).1,
      (d.changeSession message).2 ++ ((d.changeSession message).1.hear message now).2) := by
  unfold observe
  rw [if_neg hr, if_pos hb]

theorem observe_current (hr : message.boot_id ∉ d.retired) (hb : some message.boot_id = d.boot) :
    d.observe message now = d.hear message now := by
  unfold observe
  rw [if_neg hr, if_neg (not_not.2 hb)]

theorem hear_self (d : DeviceStreams) (message : Message) (now : ℚ) :
    (d.hear message now).1.streams message.kind =
      ((d.streams message.kind).observe message.sequence now).1 :=
  Function.update_self ..

theorem hear_other {kind : Kind} (h : kind ≠ message.kind) :
    (d.hear message now).1.streams kind = d.streams kind :=
  Function.update_of_ne h ..

/-- A call moves to another boot only by a message of it. -/
theorem next_boot (d : DeviceStreams) (call : Call) :
    ((machine.next d call).boot = d.boot ∧ (machine.next d call).retired = d.retired) ∨
      ∃ message now, call = .observe message now ∧ message.boot_id ∉ d.retired ∧
        some message.boot_id ≠ d.boot ∧
        (machine.next d call).boot = some message.boot_id ∧
        (machine.next d call).retired = (d.boot.map (retire d.retired)).getD d.retired := by
  cases call with
  | tick now => exact .inl ⟨rfl, rfl⟩
  | finish reason => exact .inl ⟨rfl, rfl⟩
  | observe message now =>
    show ((d.observe message now).1.boot = d.boot ∧ (d.observe message now).1.retired = d.retired) ∨ _
    by_cases hr : message.boot_id ∈ d.retired
    · rw [observe_retired hr]
      exact .inl ⟨rfl, rfl⟩
    · by_cases hb : some message.boot_id = d.boot
      · rw [observe_current hr hb]
        exact .inl ⟨rfl, rfl⟩
      · refine .inr ⟨message, now, rfl, hr, hb, ?_⟩
        show (d.observe message now).1.boot = _ ∧ (d.observe message now).1.retired = _
        rw [observe_change hr hb]
        exact ⟨rfl, rfl⟩

/-- **A new boot leaves nothing of the old one**: both streams are new but for
the message, and every gap of the old boot is given up under its ID. -/
theorem change_fresh (hr : message.boot_id ∉ d.retired) (hb : some message.boot_id ≠ d.boot) :
    (d.observe message now).1.streams = Function.update (fresh d.thresholds) message.kind
        { stale_seconds := d.thresholds message.kind, highest := some message.sequence,
          seen := {message.sequence}, missing := ∅, last_progress := some now, stale := false } ∧
      (d.observe message now).2 =
        (d.finish "session_change").2 ++
          [⟨.sessionChange d.boot, message.kind, some message.boot_id⟩] ++
          ((kinds.filter fun other => other ≠ message.kind).map fun other =>
            ⟨.notSeen, other, some message.boot_id⟩) ++
          [.baseline, .acceptedPublication].map (tag message.kind (some message.boot_id)) := by
  rw [observe_change hr hb]
  exact ⟨rfl, rfl⟩

end

/-! ## Retired boots -/

/-- The last eight. -/
def lastEight (boots : List String) : List String := boots.drop (boots.length - 8)

/-- The boots a run replaced, in order. -/
def replaced (log : List (DeviceStreams × Call × List Event)) : List String :=
  log.filterMap fun e => if (machine.next e.1 e.2.1).boot ≠ e.1.boot then e.1.boot else none

theorem lastEight_append (first rest : List String) :
    lastEight (lastEight first ++ rest) = lastEight (first ++ rest) := by
  unfold lastEight
  rw [← List.drop_append_of_le_length (by omega), List.drop_drop]
  congr 1
  simp only [List.length_drop, List.length_append]
  omega

theorem lastEight_short {boots : List String} (h : boots.length ≤ 8) : lastEight boots = boots := by
  unfold lastEight
  rw [Nat.sub_eq_zero_of_le h, List.drop_zero]

theorem retire_eq (retired : List String) (boot : String) :
    retire retired boot = lastEight (retired ++ [boot]) := rfl

/-- **The retired boots are the last eight replaced.** -/
theorem run_retired (d : DeviceStreams) (h : d.retired.length ≤ 8) (calls : List Call) :
    (machine.run d calls).retired = lastEight (d.retired ++ replaced (machine.trace d calls)) := by
  induction calls generalizing d with
  | nil => simp [replaced, lastEight_short h]
  | cons call calls ih =>
    have hnext : (machine.next d call).retired =
        lastEight (d.retired ++ replaced [(d, call, machine.out d call)]) := by
      rcases next_boot d call with ⟨hb, hr⟩ | ⟨message, now, -, -, hne, hb, hr⟩
      · simp [replaced, hb, hr, lastEight_short h]
      · have hchange : (machine.next d call).boot ≠ d.boot := by rwa [hb]
        rw [hr]
        cases hboot : d.boot with
        | none =>
          rw [hboot] at hchange
          simp [replaced, hboot, lastEight_short h]
        | some previous =>
          rw [hboot] at hchange
          simp [replaced, hboot, hchange, retire_eq]
    have hlen : (machine.next d call).retired.length ≤ 8 := by
      rw [hnext, lastEight, List.length_drop]
      omega
    have hsplit : replaced (machine.trace d (call :: calls)) =
        replaced [(d, call, machine.out d call)] ++
          replaced (machine.trace (machine.next d call) calls) := by
      rw [Machine.trace_cons]
      exact List.filterMap_append (l := [(d, call, machine.out d call)])
    rw [Machine.run_cons, ih _ hlen, hnext, hsplit, lastEight_append, List.append_assoc]

/-- **The current boot is not retired.** -/
theorem run_current (d : DeviceStreams) (h : ∀ boot, d.boot = some boot → boot ∉ d.retired)
    (calls : List Call) :
    ∀ boot, (machine.run d calls).boot = some boot → boot ∉ (machine.run d calls).retired := by
  refine machine.run_inv (I := fun d => ∀ boot, d.boot = some boot → boot ∉ d.retired)
    (fun d call hd => ?_) d h calls
  rcases next_boot d call with ⟨hb, hr⟩ | ⟨message, now, -, hnot, hne, hb, hr⟩
  · rwa [hb, hr]
  · rw [hb, hr]
    intro boot hboot hmem
    cases hboot
    cases hprev : d.boot with
    | none =>
      rw [hprev] at hmem
      exact hnot hmem
    | some previous =>
      rw [hprev] at hmem hne
      rcases List.mem_append.1 (List.mem_of_mem_drop hmem) with hold | hnew
      · exact hnot hold
      · exact hne (congrArg some (List.mem_singleton.1 hnew))

/-! ## Gaps, boot by boot -/

/-- The call as the stream of a kind sees it. -/
def Call.stream : Call → StreamState.Call
  | .observe message now => .observe message.sequence now
  | .tick now => .tick now
  | .finish reason => .finish reason

/-- What an event says of a sequence of one kind under one boot. -/
def mark (call : Call) (kind : Kind) (boot : String) (value : UInt32) (e : Event) : Option Bool :=
  if e.kind = kind ∧ e.boot_id = some boot then StreamState.mark call.stream value e.outcome
  else none

/-- The sequences missing of a kind under a boot. -/
def Pending (d : DeviceStreams) (kind : Kind) (boot : String) (value : UInt32) : Prop :=
  d.boot = some boot ∧ value ∈ (d.streams kind).missing

instance (d : DeviceStreams) (kind : Kind) (boot : String) (value : UInt32) :
    Decidable (d.Pending kind boot value) := inferInstanceAs (Decidable (_ ∧ _))

/-- The events of a call, followed for one sequence of one kind and boot. -/
def Followed (kind : Kind) (boot : String) (value : UInt32) (d d' : DeviceStreams)
    (marks : List Bool) : Prop :=
  follow (decide (d.Pending kind boot value)) marks = some (decide (d'.Pending kind boot value))

def marks (kind : Kind) (boot : String) (value : UInt32)
    (log : List (DeviceStreams × Call × List Event)) : List Bool :=
  log.flatMap fun e => e.2.2.filterMap (mark e.2.1 kind boot value)

section
variable {d : DeviceStreams} {message : Message} {now : ℚ} {call : Call} {kind : Kind}
  {boot : String} {value : UInt32}

theorem filterMap_tag (kind' : Kind) (boot' : Option String) (outcomes : List Outcome) :
    (outcomes.map (tag kind' boot')).filterMap (mark call kind boot value) =
      if kind' = kind ∧ boot' = some boot then
        outcomes.filterMap (StreamState.mark call.stream value)
      else [] := by
  rw [List.filterMap_map]
  split
  · rename_i h
    exact congrArg (outcomes.filterMap ·) (funext fun o => if_pos h)
  · rename_i h
    exact List.filterMap_eq_nil_iff.2 fun o _ => if_neg h

theorem filterMap_each (run : StreamState → StreamState × List Outcome) :
    (d.each run).2.filterMap (mark call kind boot value) =
      if d.boot = some boot then
        (run (d.streams kind)).2.filterMap (StreamState.mark call.stream value)
      else [] := by
  simp only [each, kinds, List.flatMap_cons, List.flatMap_nil, List.filterMap_append,
    filterMap_tag, List.append_nil]
  by_cases hb : d.boot = some boot <;> cases kind <;> simp [hb]

/-- Both streams in step: each follows its own sequences. -/
theorem each_followed (run : StreamState → StreamState × List Outcome)
    (h : StreamState.Followed value (d.streams kind) (run (d.streams kind)).1
      ((run (d.streams kind)).2.filterMap (StreamState.mark call.stream value))) :
    Followed kind boot value d (d.each run).1
      ((d.each run).2.filterMap (mark call kind boot value)) := by
  unfold Followed Pending
  rw [filterMap_each]
  show follow (decide (d.boot = some boot ∧ value ∈ (d.streams kind).missing)) _ =
    some (decide (d.boot = some boot ∧ value ∈ (run (d.streams kind)).1.missing))
  by_cases hboot : d.boot = some boot
  · simpa [hboot, StreamState.Followed] using h
  · simp [hboot, follow]

theorem hear_followed (hk : (d.streams message.kind).Kept) (hb : d.boot = some message.boot_id) :
    Followed kind boot value d (d.hear message now).1
      ((d.hear message now).2.filterMap (mark (.observe message now) kind boot value)) := by
  have hstream := StreamState.observe_followed hk value message.sequence now
  unfold Followed Pending
  show follow (decide (d.boot = some boot ∧ value ∈ (d.streams kind).missing)) _ =
    some (decide (d.boot = some boot ∧ value ∈ ((d.hear message now).1.streams kind).missing))
  have hmarks : (d.hear message now).2.filterMap (mark (.observe message now) kind boot value) = _ :=
    filterMap_tag message.kind (some message.boot_id) _
  rw [hmarks, hb]
  by_cases hkind : message.kind = kind
  · subst hkind
    rw [hear_self]
    by_cases hboot : message.boot_id = boot
    · simpa [hboot, StreamState.Followed, Call.stream] using hstream
    · simp [hboot, follow]
  · rw [hear_other fun e => hkind e.symm]
    simp [hkind, follow]

theorem change_followed (hr : message.boot_id ∉ d.retired) (hb : some message.boot_id ≠ d.boot) :
    Followed kind boot value d (d.observe message now).1
      ((d.observe message now).2.filterMap (mark (.observe message now) kind boot value)) := by
  have hmissing : ((d.observe message now).1.streams kind).missing = ∅ := by
    rw [(change_fresh hr hb).1]
    by_cases hkind : kind = message.kind
    · rw [hkind, Function.update_self]
    · rw [Function.update_of_ne hkind]
      rfl
  have hafter : ¬ (d.observe message now).1.Pending kind boot value := by
    intro hp
    have := hp.2
    rw [hmissing] at this
    simp at this
  have hnone : ∀ o ∈ ([.baseline, .acceptedPublication] : List Outcome),
      StreamState.mark (Call.stream (.observe message now)) value o = none := by
    intro o ho
    simp only [List.mem_cons, List.not_mem_nil, or_false] at ho
    rcases ho with rfl | rfl <;> rfl
  have hnew : ([.baseline, .acceptedPublication].map
      (tag message.kind (some message.boot_id))).filterMap
        (mark (.observe message now) kind boot value) = [] := by
    rw [filterMap_tag, List.filterMap_eq_nil_iff.2 hnone, ite_self]
  have hsession : (([⟨.sessionChange d.boot, message.kind, some message.boot_id⟩] : List Event) ++
      (kinds.filter fun other => other ≠ message.kind).map fun other : Kind =>
        Event.mk .notSeen other (some message.boot_id)).filterMap
        (mark (.observe message now) kind boot value) = [] := by
    refine List.filterMap_eq_nil_iff.2 fun e he => ?_
    have hout : e.outcome = .sessionChange d.boot ∨ e.outcome = .notSeen := by
      rcases List.mem_append.1 he with he | he
      · rw [List.mem_singleton.1 he]
        exact .inl rfl
      · obtain ⟨other, -, rfl⟩ := List.mem_map.1 he
        exact .inr rfl
    unfold mark
    rcases hout with ho | ho <;> rw [ho] <;> exact ite_self none
  unfold Followed
  rw [decide_eq_false hafter, (change_fresh hr hb).2, List.filterMap_append, hnew, List.append_nil,
    List.append_assoc, List.filterMap_append, hsession, List.append_nil]
  unfold finish Pending
  rw [filterMap_each]
  by_cases hboot : d.boot = some boot
  · have hf := @StreamState.finish_followed value (d.streams kind)
      (Call.stream (.observe message now)) "session_change"
    simpa [hboot, StreamState.Followed] using hf
  · simp [hboot, follow]

/-- Every stream keeps its window. -/
def Kept (d : DeviceStreams) : Prop := ∀ kind, (d.streams kind).Kept

theorem hear_kept (h : d.Kept) (message : Message) (now : ℚ) : (d.hear message now).1.Kept := by
  intro kind
  by_cases hk : kind = message.kind
  · rw [hk, hear_self]
    exact StreamState.observe_kept (h _) _ _
  · rw [hear_other hk]
    exact h kind

theorem next_kept (d : DeviceStreams) (call : Call) (h : d.Kept) : (machine.next d call).Kept := by
  cases call with
  | tick now => exact fun kind => StreamState.tick_kept (h kind) now
  | finish reason => exact fun kind => StreamState.finish_kept (h kind) reason
  | observe message now =>
    show (d.observe message now).1.Kept
    by_cases hr : message.boot_id ∈ d.retired
    · rwa [observe_retired hr]
    · by_cases hb : some message.boot_id = d.boot
      · rw [observe_current hr hb]
        exact hear_kept h message now
      · rw [observe_change hr hb]
        exact hear_kept (fun kind => StreamState.new_kept _) message now

theorem next_followed (h : d.Kept) (kind : Kind) (boot : String) (value : UInt32) (call : Call) :
    Followed kind boot value d (machine.next d call)
      ((machine.out d call).filterMap (mark call kind boot value)) := by
  cases call with
  | tick now =>
    exact each_followed _ (StreamState.next_followed (h kind) value (.tick now))
  | finish reason =>
    exact each_followed _ (StreamState.next_followed (h kind) value (.finish reason))
  | observe message now =>
    show Followed kind boot value d (d.observe message now).1
      ((d.observe message now).2.filterMap _)
    by_cases hr : message.boot_id ∈ d.retired
    · rw [observe_retired hr]
      have hnone : mark (.observe message now) kind boot value
          ⟨.retiredSession, message.kind, some message.boot_id⟩ = none := by
        unfold mark
        exact ite_self none
      simp [Followed, hnone, follow]
    · by_cases hb : some message.boot_id = d.boot
      · rw [observe_current hr hb]
        exact hear_followed (h _) hb.symm
      · exact change_followed hr hb

/-- **Gaps are announced and resolved under one boot**: along any run, each
sequence of each kind and boot is announced and resolved in turn, and what is
left open is missing now, of the current boot. -/
theorem run_followed (h : d.Kept) (calls : List Call) (kind : Kind) (boot : String)
    (value : UInt32) :
    Followed kind boot value d (machine.run d calls)
      (marks kind boot value (machine.trace d calls)) := by
  induction calls generalizing d with
  | nil => exact rfl
  | cons call calls ih =>
    have hstep := next_followed h kind boot value call
    have hrest := ih (next_kept d call h)
    unfold Followed at hstep hrest ⊢
    rw [Machine.trace_cons, Machine.run_cons, marks, List.flatMap_cons, StreamState.follow_append,
      hstep]
    exact hrest

end

/-! ## Sessions -/

/-- The calls a stream has had on its boot, each with the boot it was made
under (a message's own). -/
abbrev Session := List (StreamState.Call × Option String)

/-- A call added to the session of a kind; another boot starts a new one, a
retired boot adds nothing. -/
def remember (kind : Kind) (session : Session) (d : DeviceStreams) : Call → Session
  | .tick now => session ++ [(.tick now, d.boot)]
  | .finish reason => session ++ [(.finish reason, d.boot)]
  | .observe message now =>
    if message.boot_id ∈ d.retired then session
    else
      (if some message.boot_id ≠ d.boot then [] else session) ++
        if message.kind = kind then [(.observe message.sequence now, some message.boot_id)] else []

/-- The session of a kind at the end of a log. -/
def session (kind : Kind) (log : List (DeviceStreams × Call × List Event)) : Session :=
  log.foldl (fun s e => remember kind s e.1 e.2.1) []

/-- The stream is what its session made of a new one, and every call of the
session was made under the current boot. -/
structure Replays (kind : Kind) (thresholds : Kind → ℚ) (d : DeviceStreams) (s : Session) :
    Prop where
  thresholds_eq : d.thresholds = thresholds
  stream : d.streams kind =
    StreamState.machine.run (.new (thresholds kind)) (s.map Prod.fst)
  boot : ∀ e ∈ s, e.2 = d.boot

section
variable {d : DeviceStreams} {message : Message} {now : ℚ} {kind : Kind} {thresholds : Kind → ℚ}
  {s : Session}

theorem hear_replays (h : Replays kind thresholds d s) (hb : d.boot = some message.boot_id) :
    Replays kind thresholds (d.hear message now).1 (s ++ if message.kind = kind then
      [(.observe message.sequence now, some message.boot_id)] else []) := by
  by_cases hk : message.kind = kind
  · subst hk
    rw [if_pos rfl]
    refine ⟨h.thresholds_eq, ?_, fun e he => ?_⟩
    · rw [hear_self, h.stream, List.map_append, Machine.run_append]
      rfl
    · rcases List.mem_append.1 he with ho | hn
      · exact h.boot e ho
      · rw [List.mem_singleton.1 hn]
        exact hb.symm
  · rw [if_neg hk, List.append_nil]
    refine ⟨h.thresholds_eq, ?_, h.boot⟩
    rw [hear_other fun e => hk e.symm]
    exact h.stream

theorem each_replays (h : Replays kind thresholds d s) (call : StreamState.Call) :
    Replays kind thresholds (d.each fun stream => StreamState.machine.step stream call).1
      (s ++ [(call, d.boot)]) := by
  refine ⟨h.thresholds_eq, ?_, fun e he => ?_⟩
  · rw [List.map_append, Machine.run_append, ← h.stream]
    rfl
  · rcases List.mem_append.1 he with ho | hn
    · exact h.boot e ho
    · rw [List.mem_singleton.1 hn]
      rfl

theorem next_replays (d : DeviceStreams) (s : Session) (call : Call)
    (h : Replays kind thresholds d s) :
    Replays kind thresholds (machine.next d call) (remember kind s d call) := by
  cases call with
  | tick now => exact each_replays h (.tick now)
  | finish reason => exact each_replays h (.finish reason)
  | observe message now =>
    show Replays kind thresholds (d.observe message now).1 _
    simp only [remember]
    by_cases hr : message.boot_id ∈ d.retired
    · rwa [observe_retired hr, if_pos hr]
    · rw [if_neg hr]
      by_cases hb : some message.boot_id = d.boot
      · rw [observe_current hr hb, if_neg (not_not.2 hb)]
        exact hear_replays h hb.symm
      · rw [observe_change hr hb, if_pos hb]
        refine hear_replays ⟨h.thresholds_eq, ?_, by simp⟩ rfl
        rw [← h.thresholds_eq]
        rfl

/-- **A stream is what its own boot sent it.** -/
theorem run_session (thresholds : Kind → ℚ) (calls : List Call) (kind : Kind) :
    Replays kind thresholds (machine.run (new thresholds) calls)
      (session kind (machine.trace (new thresholds) calls)) :=
  machine.run_ghost (I := fun d s => Replays kind thresholds d s) (remember kind)
    (fun d s call h => next_replays d s call h) (new thresholds) [] ⟨rfl, rfl, by simp⟩ calls

end

/-! ## Over a run -/

/-- `outcome="gap_final"`. -/
def isFinal (e : Event) : Bool :=
  match e.outcome with
  | .gapFinal _ _ => true
  | _ => false

/-- What a call that moves to another boot does: it is a message of that boot,
both streams are new but for the message, and its `gap_final` events are one
for each kind with missing sequences, under the old boot. -/
def FreshStart (d : DeviceStreams) (call : Call) : Prop :=
  (machine.next d call).boot ≠ d.boot → ∃ message now, call = .observe message now ∧
    (machine.next d call).boot = some message.boot_id ∧
    (machine.next d call).streams = Function.update (fresh d.thresholds) message.kind
      { stale_seconds := d.thresholds message.kind, highest := some message.sequence,
        seen := {message.sequence}, missing := ∅, last_progress := some now, stale := false } ∧
    (machine.out d call).filter isFinal = kinds.flatMap fun kind =>
      (StreamState.unlessEmpty (d.streams kind).missing
        (.gapFinal (d.streams kind).missing "session_change")).map (tag kind d.boot)

theorem finish_eq (d : DeviceStreams) (reason : String) :
    (d.finish reason).2 = kinds.flatMap fun kind =>
      (StreamState.unlessEmpty (d.streams kind).missing
        (.gapFinal (d.streams kind).missing reason)).map (tag kind d.boot) := by
  simp only [finish, each, StreamState.finish_events]

theorem finish_final (d : DeviceStreams) (reason : String) :
    (d.finish reason).2.filter isFinal = (d.finish reason).2 := by
  rw [finish_eq]
  refine List.filter_eq_self.2 fun e he => ?_
  obtain ⟨kind, -, he⟩ := List.mem_flatMap.1 he
  obtain ⟨o, ho, rfl⟩ := List.mem_map.1 he
  rw [StreamState.mem_unlessEmpty ho]
  rfl

theorem next_freshStart (d : DeviceStreams) (call : Call) : FreshStart d call := by
  intro hne
  rcases next_boot d call with ⟨hb, -⟩ | ⟨message, now, rfl, hr, hb, hnew, -⟩
  · exact absurd hb hne
  · obtain ⟨hstreams, hevents⟩ := @change_fresh d message now hr hb
    refine ⟨message, now, rfl, hnew, hstreams, ?_⟩
    show ((d.observe message now).2.filter isFinal) = _
    rw [hevents, List.append_assoc, List.append_assoc, List.filter_append, finish_final, finish_eq]
    refine (List.append_right_eq_self).2 (List.filter_eq_nil_iff.2 fun e he => ?_)
    rcases List.mem_append.1 he with he | he
    · rw [List.mem_singleton.1 he]
      exact Bool.false_ne_true
    · rcases List.mem_append.1 he with he | he
      · obtain ⟨other, -, rfl⟩ := List.mem_map.1 he
        exact Bool.false_ne_true
      · obtain ⟨o, ho, rfl⟩ := List.mem_map.1 he
        simp only [List.mem_cons, List.not_mem_nil, or_false] at ho
        rcases ho with rfl | rfl <;> exact Bool.false_ne_true

/-- **A device never goes back to a retired boot**, after every sequence of
messages, ticks and ends: the current boot is not retired; a message of one of
the last eight replaced boots is reported as such and changes nothing; another
boot starts afresh, with the gaps of the old one given up under its own ID;
along the run each gap is announced and resolved under one boot, and each
stream is what messages of the current boot made of a new one. -/
theorem device_streams_boots (thresholds : Kind → ℚ) (calls : List Call) :
    let d := machine.run (new thresholds) calls
    let log := machine.trace (new thresholds) calls
    (∀ boot, d.boot = some boot → boot ∉ d.retired) ∧
      (∀ message now, message.boot_id ∈ lastEight (replaced log) →
        d.observe message now = (d, [⟨.retiredSession, message.kind, some message.boot_id⟩])) ∧
      (∀ e ∈ log, FreshStart e.1 e.2.1) ∧
      (∀ kind boot value,
        follow false (marks kind boot value log) = some (decide (d.Pending kind boot value))) ∧
      ∀ kind, Replays kind thresholds d (session kind log) := by
  have hkept : (new thresholds).Kept := fun kind => StreamState.new_kept _
  refine ⟨?_, fun message now hm => observe_retired ?_, fun e _ => next_freshStart _ _,
    fun kind boot value => ?_, run_session thresholds calls⟩
  · exact run_current _ (fun boot hb => by cases hb) calls
  · rwa [run_retired (new thresholds) (Nat.zero_le 8), show (new thresholds).retired = [] from rfl,
      List.nil_append]
  · have hnone : ¬ (new thresholds).Pending kind boot value := fun hp => by cases hp.1
    have h := run_followed hkept calls kind boot value
    unfold Followed at h
    rwa [decide_eq_false hnone] at h

end DeviceStreams

end Nucleo.Listener
