import Nucleo.L2Machine.ServiceSteps

/-!
# Controls take effect once

The history of a lease is the list of what the service counts: the controls it
applied or stopped with, and the valid probes, from the configure that acquired
the lease on. `Ledger` ties the state to it: the received counter is its
length, its control IDs rise up to the watermark, and the expiry is set by its
last APPLIED control. `Closed` is about the whole run: a control that was
accepted once can never be accepted again.

`exactly_once` has both for every run from `Service::new`. The expiry is a
saturating sum; `expiry_saturates` is the run where that shows.
-/
namespace Nucleo.Benchmark
namespace Service

/-! ## The history -/

/-- What the received counter counts. -/
inductive Event where
  | control (request : Envelope) (code : Int) (now : Nat)
  | probe (request : Envelope)

/-- What `handle` counts: APPLIED and STOPPED controls and valid probes. -/
def Outcome.event (request : Envelope) (now : Nat) : Outcome → Option Event
  | .control code _ => if code = 1 ∨ code = 3 then some (.control request code now) else Option.none
  | .probe _ => some (.probe request)
  | _ => Option.none

def event (s : Service) : Op → Option Event
  | .handle request peer now => (s.outcome request peer now).event request now
  | _ => none

/-- A configure with code APPLIED. -/
def Event.acquires : Event → Bool
  | .control request code _ => request.kind == some 2 && code == 1
  | .probe _ => false

/-- An acquisition starts a new history. -/
def extend (history : List Event) : Option Event → List Event
  | none => history
  | some e => if e.acquires then [e] else history ++ [e]

/-- The history of the lease current after `ops`, or last held. -/
def history (s : Service) (ops : List Op) : List Event :=
  (machine.trace s ops).foldl (fun h e => extend h (event e.1 e.2.1)) []

/-- The request IDs of the accepted controls of a history. -/
def acceptedIds (history : List Event) : List UInt32 :=
  history.filterMap fun
    | .control request _ _ => request.requestId
    | .probe _ => none

/-- The time of an APPLIED control. -/
def Event.applied : Event → Option Nat
  | .control _ code now => if code = 1 then some now else none
  | .probe _ => none

/-- The time of the latest APPLIED control. -/
def lastApplied (history : List Event) : Option Nat := (history.filterMap Event.applied).getLast?

/-- The request of a control that a call accepts. -/
def acceptedRequest (s : Service) (op : Op) : Option Envelope :=
  match event s op with
  | some (.control request _ _) => some request
  | _ => none

/-- The requests of all controls accepted along a run. -/
def accepted (s : Service) (ops : List Op) : List Envelope :=
  (machine.trace s ops).filterMap fun e => acceptedRequest e.1 e.2.1

@[simp] theorem extend_none (h : List Event) : extend h none = h := rfl

theorem acceptedIds_snoc (h : List Event) (e : Event) :
    acceptedIds (h ++ [e]) = acceptedIds h ++ acceptedIds [e] := List.filterMap_append

theorem lastApplied_snoc (h : List Event) (e : Event) :
    lastApplied (h ++ [e]) = e.applied.or (lastApplied h) := by
  unfold lastApplied
  rw [List.filterMap_append, List.getLast?_append]
  cases he : e.applied <;> simp [he]

/-! ## The ledger -/

/-- The configuration of the acquisition that starts a history. -/
def acquisition (history : List Event) : Option Configuration :=
  match history.head? with
  | some (.control request _ _) => request.configure
  | _ => none

structure Ledger (s : Service) (h : List Event) : Prop where
  received : s.counters.received.toNat = min h.length u32Max
  increasing : (acceptedIds h).Pairwise (· < ·)
  watermark : ∀ l, s.lease = some l → ∀ id ∈ acceptedIds h, id ≤ l.last.id
  expiry : ∀ l, s.lease = some l → acquisition h = some l.configuration ∧
    ∃ t, lastApplied h = some t ∧ l.expiry = satAdd64 t l.configuration.leaseMicros

theorem Ledger.new (device : HString 32) (boot : HString 16) (format : Format) (crc : CrcMode) (now : Nat) :
    Ledger (new device boot format crc now) [] where
  received := rfl
  increasing := .nil
  watermark _ h := by cases h
  expiry _ h := by cases h

/-- A step that keeps the counter and at most drops the lease keeps the ledger. -/
theorem Ledger.drop {s s' : Service} {h : List Event} (hl : Ledger s h)
    (hc : s'.counters.received = s.counters.received)
    (hd : ∀ l, s'.lease = some l → s.lease = some l) : Ledger s' h where
  received := hc ▸ hl.received
  increasing := hl.increasing
  watermark l h' := hl.watermark l (hd l h')
  expiry l h' := hl.expiry l (hd l h')

theorem received_counted (s : Service) {n : Nat} (h : s.counters.received.toNat = min n u32Max) :
    s.counted.counters.received.toNat = min (n + 1) u32Max := by
  simp only [counted, Counters.countReceived, toNat_satAdd32, h, UInt32.toNat_one]
  omega

theorem acquisition_snoc {h : List Event} {c : Configuration} (e : Event)
    (ha : acquisition h = some c) : acquisition (h ++ [e]) = some c := by
  cases h with
  | nil => cases ha
  | cons a h => exact ha

theorem Ledger.increasing_snoc {s : Service} {h : List Event} (hl : Ledger s h) {request : Envelope}
    {code : Int} {now : Nat} {id : UInt32} (hid : request.requestId = some id)
    (hlt : ∀ i ∈ acceptedIds h, i < id) :
    (acceptedIds (h ++ [.control request code now])).Pairwise (· < ·) := by
  rw [acceptedIds_snoc]
  refine List.pairwise_append.2 ⟨hl.increasing, ?_, fun i hi j hj => ?_⟩
  · simp [acceptedIds, hid]
  · simp only [acceptedIds, List.filterMap_cons, hid, List.filterMap_nil, List.mem_singleton] at hj
    rw [hj]; exact hlt i hi

/-- **One request.** -/
theorem Ledger.effect {s : Service} {h : List Event} (hl : Ledger s h) {request : Envelope}
    {peer : Peer} {now : Nat} {r : Service × Outcome} (he : Effect s request peer now r) :
    Ledger r.1 (extend h (r.2.event request now)) := by
  cases he with
  | refused =>
    obtain ⟨ht, -, -, -, -, hr, -⟩ := reject_frame s false
    exact hl.drop hr fun l hs => (tenure_eq_iff.1 ht).1.symm.trans hs
  | capabilities => exact hl
  | duplicate => exact hl
  | @rejected session control code ha hc =>
    obtain ⟨ht, -, -, -, -, hr, -⟩ := reject_frame s false
    have : (Outcome.control code ((s.reject false).controlReply request peer session control.id code
        now)).event request now = none := by
      simp only [Outcome.event]; rw [if_neg (by omega)]
    rw [this]
    exact hl.drop hr fun l hs => (tenure_eq_iff.1 ht).1.symm.trans hs
  | probe hk hs =>
    simp only [Outcome.event, extend, Event.acquires, Bool.false_eq_true, if_false]
    refine ⟨?_, ?_, fun l hs => ?_, fun l hs => ?_⟩
    · rw [List.length_append]; exact received_counted s hl.received
    · rw [acceptedIds_snoc]; simpa [acceptedIds] using hl.increasing
    · rw [acceptedIds_snoc]; simpa [acceptedIds] using hl.watermark l hs
    · obtain ⟨h1, t, h2, h3⟩ := hl.expiry l hs
      exact ⟨acquisition_snoc _ h1, t, by rw [lastApplied_snoc]; exact h2, h3⟩
  | acquired ha hk hn hx hep hc hv =>
    simp only [Outcome.event, true_or, if_true, extend, Event.acquires, ha.kind, hk, beq_self_eq_true,
      Bool.and_self]
    refine ⟨rfl, by simp [acceptedIds, ha.id], fun l hs => ?_, fun l hs => ?_⟩
    · cases hs; simp [acceptedIds, ha.id]
    · cases hs; exact ⟨hc, now, rfl, rfl⟩
  | @renewed l control ha hk hs hp hep hid =>
    have hna : (Event.control request 1 now).acquires = false := by
      simp [Event.acquires, ha.kind, hk]
    have hw := hl.watermark l hs
    obtain ⟨h1, -⟩ := hl.expiry l hs
    simp only [Outcome.event, true_or, if_true, extend, hna, Bool.false_eq_true, if_false]
    refine ⟨?_, hl.increasing_snoc ha.id fun id h => ?_, fun l' hs' => ?_, fun l' hs' => ?_⟩
    · rw [List.length_append]; exact received_counted s hl.received
    · exact Nat.lt_of_le_of_lt (hw id h) hid
    · cases hs'
      rw [acceptedIds_snoc]
      intro id h
      rcases List.mem_append.1 h with h | h
      · exact Nat.le_of_lt (Nat.lt_of_le_of_lt (hw id h) hid)
      · simp only [acceptedIds, List.filterMap_cons, ha.id, List.filterMap_nil, List.mem_singleton] at h
        rw [h]; exact Nat.le_refl _
    · cases hs'
      exact ⟨acquisition_snoc _ h1, now, by rw [lastApplied_snoc]; rfl, rfl⟩
  | @stopped l control ha hk hs hp hep hid =>
    have hna : (Event.control request 3 now).acquires = false := by simp [Event.acquires]
    have hw := hl.watermark l hs
    simp only [Outcome.event, or_true, if_true, extend, hna, Bool.false_eq_true, if_false]
    have hno : ∀ l', s.stopped.lease ≠ some l' := fun l' h => by
      rw [stopped, endLease_lease] at h; cases h
    refine ⟨?_, hl.increasing_snoc ha.id fun id h => ?_, fun l' hs' => absurd hs' (hno l'),
      fun l' hs' => absurd hs' (hno l')⟩
    · rw [List.length_append, stopped, (endLease_frame s.counted).2.2.2.1]
      exact received_counted s hl.received
    · exact Nat.lt_of_le_of_lt (hw id h) hid

/-- **One call.** -/
theorem Ledger.next {s : Service} (hi : Inv s) {h : List Event} (hl : Ledger s h) (op : Op) :
    Ledger (machine.next s op) (extend h (event s op)) := by
  have htick : ∀ now, Ledger (s.tick now) h := fun now =>
    hl.drop (by rw [(tick_frame s now).2.1]) fun l hs => (tick_lease_some hs).2.1
  cases op with
  | tick now => exact htick now
  | endLease =>
    show Ledger s.endLease h
    refine hl.drop (by rw [(endLease_frame s).2.2.2.1]) fun l hs => ?_
    rw [endLease_lease] at hs; cases hs
  | reject crc =>
    obtain ⟨ht, -, -, -, -, hr, -⟩ := reject_frame s crc
    exact hl.drop hr fun l hs => (tenure_eq_iff.1 ht).1.symm.trans hs
  | publication index now =>
    have hp := publication_polled index (hi.tick now)
    show Ledger (s.publication index now).1 h
    generalize s.publication index now = r at hp
    cases hp with
    | silent => exact htick now
    | sent => exact (htick now).drop rfl fun l hs => hs
  | handle request peer now =>
    have he := (htick now).effect (assess_effect (hi.tick now) request peer now)
    obtain ⟨h1, h2, -⟩ := handle_frame s request peer now
    exact he.drop (congrArg Counters.received h2) fun l hs => (tenure_eq_iff.1 h1).1.symm.trans hs

/-- **Whole runs.** -/
theorem Ledger.run {s : Service} (hi : Inv s) (hl : Ledger s []) (ops : List Op) :
    Ledger (machine.run s ops) (history s ops) :=
  (machine.run_ghost (fun h s op => extend h (event s op)) (I := fun s h => Inv s ∧ Ledger s h)
    (fun _ _ op h => ⟨h.1.next op, h.2.next h.1 op⟩) s [] ⟨hi, hl⟩ ops).2

/-! ## No control is accepted twice -/

/-- The request can no longer be accepted: its epoch is over, or its ID is not
above the watermark of the lease that has it. -/
def Closed (s : Service) (request : Envelope) : Prop :=
  request.kind ≠ some 5 ∧ ∃ epoch id, request.runEpoch = some epoch ∧ request.requestId = some id ∧
    (epoch < s.epoch ∨ s.exhausted = true ∨
      (epoch = s.epoch ∧ ∃ l, s.lease = some l ∧ id ≤ l.last.id))

theorem Closed.of_tenure {s s' : Service} {request : Envelope} (h : Closed s request)
    (ht : s'.tenure = s.tenure) : Closed s' request := by
  obtain ⟨h1, -, h3, h4⟩ := tenure_eq_iff.1 ht
  unfold Closed
  rw [h1, h3, h4]
  exact h

theorem Closed.endLease {s : Service} {request : Envelope} (h : Closed s request) :
    Closed s.endLease request := by
  cases hl : s.lease with
  | none => rw [endLease_none hl]; exact h
  | some l =>
    obtain ⟨hk, epoch, id, he, hid, hc⟩ := h
    refine ⟨hk, epoch, id, he, hid, ?_⟩
    rcases endLease_some hl with ⟨hne, ht⟩ | ⟨-, ht⟩
    · -- the epoch steps past every request of the lease
      have h3 : s.endLease.epoch = s.epoch + 1 := congrArg Tenure.epoch ht
      have h4 : s.endLease.exhausted = s.exhausted := congrArg Tenure.exhausted ht
      have hstep := toNat_succ32 hne
      rw [h3, h4]
      rcases hc with hc | hc | ⟨rfl, -⟩
      · left; rw [UInt32.lt_iff_toNat_lt] at hc ⊢; omega
      · exact .inr (.inl hc)
      · left; rw [UInt32.lt_iff_toNat_lt]; omega
    · exact .inr (.inl (congrArg Tenure.exhausted ht))

theorem Closed.tick {s : Service} {request : Envelope} (h : Closed s request) (now : Nat) :
    Closed (s.tick now) request := by
  cases hl : s.lapses now with
  | false => exact h.of_tenure (tick_stays hl)
  | true => exact h.endLease.of_tenure (by rw [tick_tenure, if_pos hl])

/-- No effect reopens a request. -/
theorem Closed.effect {s : Service} {old request : Envelope} (h : Closed s old) {peer : Peer}
    {now : Nat} {r : Service × Outcome} (he : Effect s request peer now r) : Closed r.1 old := by
  cases he with
  | refused => exact h.of_tenure (reject_frame s false).1
  | capabilities => exact h
  | probe => exact h.of_tenure rfl
  | duplicate => exact h
  | rejected => exact h.of_tenure (reject_frame s false).1
  | acquired _ _ hl =>
    obtain ⟨hk, epoch, id, he, hid, hc⟩ := h
    refine ⟨hk, epoch, id, he, hid, ?_⟩
    rcases hc with hc | hc | ⟨-, l, hl', -⟩
    · exact .inl hc
    · exact .inr (.inl hc)
    · rw [hl] at hl'; cases hl'
  | @renewed l control _ _ hl _ _ hlt =>
    obtain ⟨hk, epoch, id, he, hid, hc⟩ := h
    refine ⟨hk, epoch, id, he, hid, ?_⟩
    rcases hc with hc | hc | ⟨hc, l', hl', hle⟩
    · exact .inl hc
    · exact .inr (.inl hc)
    · rw [hl] at hl'; cases hl'
      exact .inr (.inr ⟨hc, _, rfl, Nat.le_trans hle (Nat.le_of_lt hlt)⟩)
  | stopped => exact Closed.endLease (s := s.counted) (h.of_tenure rfl)

/-- Accepting a request closes it. -/
theorem accept_closes {s : Service} {request : Envelope} {peer : Peer} {now : Nat}
    {r : Service × Outcome} (he : Effect s request peer now r)
    (hc : r.2.code = some 1 ∨ r.2.code = some 3) : Closed r.1 request := by
  have hno : ∀ {session control}, Asks request session control → request.kind ≠ some 5 := by
    intro session control ha h
    rw [ha.kind] at h
    have := ha.range
    simp only [Option.some.injEq] at h; omega
  cases he with
  | refused => simp at hc
  | capabilities => simp at hc
  | probe => simp at hc
  | duplicate => simp at hc
  | rejected ha hr => simp only [Outcome.code_control, Option.some.injEq] at hc; omega
  | acquired ha hk hl hx he =>
    exact ⟨hno ha, _, _, he, ha.id, .inr (.inr ⟨rfl, _, rfl, Nat.le_refl _⟩)⟩
  | renewed ha hk hl hp he =>
    exact ⟨hno ha, _, _, he, ha.id, .inr (.inr ⟨rfl, _, rfl, Nat.le_refl _⟩)⟩
  | @stopped l control ha hk hl hp he hid =>
    refine ⟨hno ha, _, _, he, ha.id, ?_⟩
    rcases endLease_some (s := s.counted) hl with ⟨hne, ht⟩ | ⟨-, ht⟩
    · left
      have hstep := toNat_succ32 (a := s.epoch) hne
      have h3 : s.stopped.epoch = s.epoch + 1 := congrArg Tenure.epoch ht
      simp only [h3, UInt32.lt_iff_toNat_lt]; omega
    · exact .inr (.inl (congrArg Tenure.exhausted ht))

/-- A closed request does nothing. -/
theorem closed_effect {s : Service} (hi : Inv s) {request : Envelope} (h : Closed s request)
    {peer : Peer} {now : Nat} {r : Service × Outcome} (he : Effect s request peer now r) :
    r.2.code ≠ some 1 ∧ r.2.code ≠ some 3 ∧ r.1.tenure = s.tenure ∧
      r.1.counters.received = s.counters.received := by
  obtain ⟨hk, epoch, id, hep, hid, hc⟩ := h
  -- at the current epoch a closed request is at or below the watermark
  have hle : ∀ l, s.lease = some l → request.runEpoch = some s.epoch → id ≤ l.last.id := by
    intro l hl he
    rw [hep] at he; cases he
    rcases hc with hc | hc | ⟨-, l', hl', hle⟩
    · exact absurd hc (Nat.lt_irrefl _)
    · rw [(hi.spent hc).1] at hl; cases hl
    · rw [hl] at hl'; cases hl'; exact hle
  have hnew : ∀ {l : Lease} {session control}, Asks request session control → s.lease = some l →
      request.runEpoch = some s.epoch → ¬ l.last.id < control.id := by
    intro l session control ha hl he hlt
    have := hle l hl he
    rw [ha.id] at hid; cases hid
    exact Nat.not_lt.2 this hlt
  cases he with
  | refused => exact ⟨by simp, by simp, (reject_frame s false).1, (reject_frame s false).2.2.2.2.2.1⟩
  | capabilities => exact ⟨by simp, by simp, rfl, rfl⟩
  | probe h5 => exact absurd h5 hk
  | duplicate => exact ⟨by simp, by simp, rfl, rfl⟩
  | rejected ha hr =>
    refine ⟨fun h => ?_, fun h => ?_, (reject_frame s false).1, (reject_frame s false).2.2.2.2.2.1⟩ <;>
      simp only [Outcome.code_control, Option.some.injEq] at h <;> omega
  | acquired ha _ hl hx he =>
    rw [hep] at he; cases he
    rcases hc with hc | hc | ⟨-, l, hl', -⟩
    · exact absurd hc (Nat.lt_irrefl _)
    · rw [hx] at hc; cases hc
    · rw [hl] at hl'; cases hl'
  | renewed ha _ hl _ he hlt => exact absurd hlt (hnew ha hl he)
  | stopped ha _ hl _ he hlt => exact absurd hlt (hnew ha hl he)

theorem acceptedRequest_some {s : Service} {op : Op} {request : Envelope}
    (h : acceptedRequest s op = some request) : ∃ peer now, op = .handle request peer now ∧
      ((s.outcome request peer now).code = some 1 ∨ (s.outcome request peer now).code = some 3) := by
  cases op with
  | handle request' peer now =>
    simp only [acceptedRequest, event] at h
    cases ho : s.outcome request' peer now with
    | none => simp [ho, Outcome.event] at h
    | probe => simp [ho, Outcome.event] at h
    | capabilities => simp [ho, Outcome.event] at h
    | control code reply =>
      simp only [ho, Outcome.event] at h
      by_cases hc : code = 1 ∨ code = 3
      · rw [if_pos hc] at h
        cases h
        refine ⟨peer, now, rfl, ?_⟩
        rw [ho]
        exact hc.imp (congrArg some) (congrArg some)
      · rw [if_neg hc] at h; cases h
  | tick => cases h
  | publication => cases h
  | endLease => cases h
  | reject => cases h

theorem Closed.next {s : Service} (hi : Inv s) {request : Envelope} (h : Closed s request) (op : Op) :
    Closed (machine.next s op) request := by
  cases op with
  | tick now => exact h.tick now
  | endLease => exact h.endLease
  | reject crc => exact h.of_tenure (reject_frame s crc).1
  | publication index now =>
    have hp := publication_polled index (hi.tick now)
    show Closed (s.publication index now).1 request
    generalize s.publication index now = r at hp
    cases hp with
    | silent => exact h.tick now
    | sent => exact h.tick now
  | handle request' peer now =>
    exact ((h.tick now).effect (assess_effect (hi.tick now) request' peer now)).of_tenure
      (handle_frame s request' peer now).1

theorem acceptedRequest_closes {s : Service} (hi : Inv s) {op : Op} {request : Envelope}
    (h : acceptedRequest s op = some request) : Closed (machine.next s op) request := by
  obtain ⟨peer, now, rfl, hc⟩ := acceptedRequest_some h
  exact (accept_closes (assess_effect (hi.tick now) request peer now) hc).of_tenure
    (handle_frame s request peer now).1

theorem closed_not_accepted {s : Service} (hi : Inv s) {op : Op} {request : Envelope}
    (hc : Closed s request) : acceptedRequest s op ≠ some request := by
  intro h
  obtain ⟨peer, now, rfl, ha⟩ := acceptedRequest_some h
  obtain ⟨h1, h3, -⟩ := closed_effect (hi.tick now) (hc.tick now)
    (assess_effect (hi.tick now) request peer now)
  exact ha.elim h1 h3

/-- What was accepted stays closed, and is accepted once. -/
theorem accepted_closed {s : Service} (hi : Inv s) (ops : List Op) :
    (accepted s ops).Nodup ∧ ∀ request ∈ accepted s ops, Closed (machine.run s ops) request := by
  have key : ∀ (old : List Envelope), (old.Nodup ∧ ∀ request ∈ old, Closed s request) →
      (old ++ accepted s ops).Nodup ∧ ∀ request ∈ old ++ accepted s ops,
        Closed (machine.run s ops) request := by
    induction ops generalizing s with
    | nil => intro old h; simpa [accepted] using h
    | cons op ops ih =>
      rintro old ⟨hn, hc⟩
      have hnext : ∀ request ∈ old, Closed (machine.next s op) request := fun request hr =>
        (hc request hr).next hi op
      unfold accepted at ih ⊢
      rw [Machine.trace_cons, List.filterMap_cons]
      simp only
      cases ha : acceptedRequest s op with
      | none => exact ih (hi.next op) old ⟨hn, hnext⟩
      | some request =>
        have hfresh : request ∉ old := fun hm => closed_not_accepted hi (hc request hm) ha
        have := ih (hi.next op) (old ++ [request]) ⟨?_, ?_⟩
        · simpa using this
        · exact List.nodup_append.2 ⟨hn, by simp, fun a ha' b hb => by
            rw [List.mem_singleton.1 hb]; rintro rfl; exact hfresh ha'⟩
        · intro r hr
          rcases List.mem_append.1 hr with hr | hr
          · exact hnext r hr
          · rw [List.mem_singleton.1 hr]; exact acceptedRequest_closes hi ha
  simpa using key [] ⟨.nil, fun _ h => by cases h⟩

/-! ## The contract -/

/-- What the contract says of a run: accepted IDs of a lease rise, a control is
accepted once and its copies do nothing afterwards, the expiry is set by the
last APPLIED control and the acquisition's `lease_ms` alone, and the received
counter counts the history. `sum` is how time and lease length are added. -/
def ExactlyOnce (sum : Nat → Nat → Nat) (s₀ : Service) (ops : List Op) : Prop :=
  let s := machine.run s₀ ops
  (acceptedIds (history s₀ ops)).Pairwise (· < ·) ∧
  ((accepted s₀ ops).Nodup ∧ ∀ request ∈ accepted s₀ ops, ∀ peer now,
    (s.outcome request peer now).code ≠ some 1 ∧ (s.outcome request peer now).code ≠ some 3 ∧
    (s.handle request peer now).1.tenure = (s.tick now).tenure ∧
    (s.handle request peer now).1.counters.received = s.counters.received) ∧
  (∀ l, s.lease = some l → ∃ config ms t, acquisition (history s₀ ops) = some config ∧
    config.leaseMs = some ms ∧ lastApplied (history s₀ ops) = some t ∧
    l.expiry = sum t (ms.toNat * 1000)) ∧
  s.counters.received.toNat = min (history s₀ ops).length u32Max

/-- **Exactly-once control**, for every run from `new`, with any clock. -/
theorem exactly_once (device : HString 32) (boot : HString 16) (format : Format) (crc : CrcMode)
    (start : Nat) (ops : List Op) : ExactlyOnce satAdd64 (new device boot format crc start) ops := by
  have h0 := Inv.new device boot format crc start
  have hi := h0.run ops
  have hl := Ledger.run h0 (.new device boot format crc start) ops
  obtain ⟨hnodup, hclosed⟩ := accepted_closed h0 ops
  refine ⟨hl.increasing, ⟨hnodup, fun request hr peer now => ?_⟩, fun l hs => ?_, hl.received⟩
  · have ht := hi.tick now
    obtain ⟨h1, h3, h4, h5⟩ := closed_effect ht ((hclosed request hr).tick now)
      (assess_effect ht request peer now)
    obtain ⟨f1, f2, -⟩ := handle_frame (machine.run (new device boot format crc start) ops)
      request peer now
    refine ⟨h1, h3, f1.trans h4, ?_⟩
    rw [f2, h5, (tick_frame _ now).2.1]
  · obtain ⟨ha, t, ht, he⟩ := hl.expiry l hs
    obtain ⟨_, _, _, _, ms, hc, -⟩ := configurationValid_fields (hi.valid l hs)
    refine ⟨l.configuration, ms, t, ha, by rw [hc], ht, ?_⟩
    rw [he, Configuration.leaseMicros, hc]
    rfl

/-- A lease configured at the last `u64` reading expires then, not 2 s later. -/
theorem expiry_saturates : ¬ ∀ device boot format crc start ops, Mono Op.time start ops →
    ExactlyOnce (· + ·) (new device boot format crc start) ops := by
  intro h
  let ops := [Op.handle (Sample.configure 1 1) Sample.peer u64Max]
  have hexpiry : (machine.run Sample.service ops).lease.map Lease.expiry = some u64Max := by
    decide +kernel
  have hlast : lastApplied (history Sample.service ops) = some u64Max := by decide +kernel
  have hms : (acquisition (history Sample.service ops)).bind Configuration.leaseMs = some 2000 := by
    decide +kernel
  cases hl : (machine.run Sample.service ops).lease with
  | none => rw [hl] at hexpiry; cases hexpiry
  | some l =>
    obtain ⟨config, ms, t, ha, hm, ht, he⟩ :=
      (h Sample.device Sample.boot .csv .on 0 ops (by decide)).2.2.1 l hl
    have ht := hlast.symm.trans ht
    have hms := (congrArg (Option.bind · Configuration.leaseMs) ha).symm.trans hms
    rw [Option.bind_some, hm] at hms
    rw [hl] at hexpiry
    cases ht
    cases hms
    simp only [Option.map_some, Option.some.injEq] at hexpiry
    rw [hexpiry] at he
    revert he
    decide

end Service
end Nucleo.Benchmark
