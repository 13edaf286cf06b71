import Nucleo.Core.Fence
import Nucleo.L2Machine.ServiceSteps

/-!
# Run epochs: no reuse, no resurrection

The service refines the fence of `Core.Fence`: the epoch is the token, the
lease the holder, `exhausted` the spent latch, `u32::MAX` the limit. A call is
at most two moves, its tick and the rest (`step_moves`), so a run of calls is
a run of the fence (`run_fence`) and the epochs of its acquisitions are the
tokens the fence grants (`grants_eq`).

`epochs_fence_runs` is the whole contract, over every run from `Service::new`
with any clock: epochs step or latch, no two leases share one, idle schedules
are cleared, exhaustion is final, and a message of an ended run changes
nothing.
-/
namespace Nucleo.Benchmark
namespace Service

/-! ## The events of a call -/

/-- The state a call works on, after the tick it begins with. -/
def ticked (s : Service) (op : Op) : Service :=
  match op.time with
  | some now => s.tick now
  | none => s

/-- The call ends a lease, in its tick or after it. -/
def Ends (s : Service) (op : Op) : Prop :=
  (s.lease.isSome ∧ (s.ticked op).lease = none) ∨
  ((s.ticked op).lease.isSome ∧ (machine.next s op).lease = none)

/-- The `run_epoch` of the lease a call acquires. -/
def acquiredEpoch (s : Service) (op : Op) : Option UInt32 :=
  if (s.ticked op).lease.isNone && (machine.next s op).lease.isSome then
    some (machine.next s op).epoch
  else none

/-- The run epochs of the leases acquired along a run, in order. -/
def acquiredEpochs (s : Service) (ops : List Op) : List UInt32 :=
  (machine.trace s ops).filterMap fun e => acquiredEpoch e.1 e.2.1

/-- The lease held at `s` is over when `now` is read after the calls `later`. -/
def Ended (s : Service) (later : List Op) (now : Nat) : Prop :=
  (∃ e ∈ machine.trace s later, Ends e.1 e.2.1) ∨
  ((machine.run s later).lease.isSome ∧ ((machine.run s later).tick now).lease = none)

/-! ## The service refines the fence -/

def fence (s : Service) : Fence Lease := ⟨s.epoch.toNat, s.exhausted, s.lease⟩

theorem fence_ok {s : Service} (hi : Inv s) : s.fence.Ok := fun h => (hi.spent h).1

theorem moves_of_tenure {s s' : Service} (h : s'.tenure = s.tenure) :
    Fence.Moves u32Max s.fence s'.fence := by
  obtain ⟨h1, -, h3, h4⟩ := tenure_eq_iff.1 h
  rw [show s'.fence = s.fence by simp only [fence, h1, h3, h4]]
  exact .refl _

/-- Ending a lease is the fence's revocation. -/
theorem moves_endLease (s : Service) : Fence.Moves u32Max s.fence s.endLease.fence := by
  cases hl : s.lease with
  | none => rw [endLease_none hl]; exact .refl _
  | some l =>
    have hf : s.fence.holder = some l := hl
    rcases endLease_some hl with ⟨he, ht⟩ | ⟨he, ht⟩ <;> simp only [tenure, Tenure.mk.injEq] at ht <;>
      obtain ⟨h1, -, h3, h4⟩ := ht
    · have hne : s.fence.token ≠ u32Max := fun e => he (UInt32.toNat_inj.mp (by
        rw [toNat_ofNat32_le (Nat.le_refl _)]; exact e))
      have : s.endLease.fence = ⟨s.fence.token + 1, s.fence.spent, none⟩ := by
        simp only [fence, h1, h3, h4, toNat_succ32 he]
      unfold Fence.Moves Fence.between
      rw [this, hf]
      exact .cons (.revoke hf hne) (.nil _)
    · have heq : s.fence.token = u32Max := by
        simp only [fence, he]; exact toNat_ofNat32_le (Nat.le_refl _)
      have : s.endLease.fence = ⟨s.fence.token, true, none⟩ := by simp only [fence, h1, h3, h4]
      unfold Fence.Moves Fence.between
      rw [this, hf]
      exact .cons (.exhaust hf heq) (.nil _)

theorem moves_tick (s : Service) (now : Nat) : Fence.Moves u32Max s.fence (s.tick now).fence := by
  cases hl : s.lapses now with
  | false => exact moves_of_tenure (tick_stays hl)
  | true =>
    have ht : (s.tick now).tenure = s.endLease.tenure := by rw [tick_tenure, if_pos hl]
    obtain ⟨h1, -, h3, h4⟩ := tenure_eq_iff.1 ht
    rw [show (s.tick now).fence = s.endLease.fence by simp only [fence, h1, h3, h4]]
    exact moves_endLease s

/-- What `handle` does after its tick is at most one event. -/
theorem moves_effect {s : Service} {request : Envelope} {peer : Peer} {now : Nat}
    {r : Service × Outcome} (he : Effect s request peer now r) :
    Fence.Moves u32Max s.fence r.1.fence := by
  cases he with
  | refused => exact moves_of_tenure (reject_frame s false).1
  | capabilities => exact .refl _
  | probe => exact .refl _
  | duplicate => exact .refl _
  | rejected => exact moves_of_tenure (reject_frame s false).1
  | @acquired session control config ha hk hl hx =>
    unfold Fence.Moves Fence.between
    rw [show s.fence.holder = none from hl]
    exact .cons (.grant hl hx) (.nil _)
  | @renewed l control ha hk hl =>
    unfold Fence.Moves Fence.between
    rw [show s.fence.holder = some l from hl]
    exact .cons (.update hl) (.nil _)
  | stopped => exact moves_endLease s.counted

/-- **Refinement, one call.** The tick is one move, the rest another. -/
theorem step_moves {s : Service} (hi : Inv s) (op : Op) :
    Fence.Moves u32Max s.fence (s.ticked op).fence ∧
    Fence.Moves u32Max (s.ticked op).fence (machine.next s op).fence := by
  cases op with
  | handle request peer now =>
    refine ⟨moves_tick s now, ?_⟩
    have hm := moves_effect (assess_effect (hi.tick now) request peer now)
    obtain ⟨h1, -, h3, h4⟩ := tenure_eq_iff.1 (handle_frame s request peer now).1
    rw [show (machine.next s (.handle request peer now)).fence =
      ((s.tick now).assess request peer now).1.fence by simp only [fence, machine, Machine.next, h1, h3, h4]]
    exact hm
  | tick now => exact ⟨moves_tick s now, .refl _⟩
  | publication index now =>
    refine ⟨moves_tick s now, ?_⟩
    have hp := publication_polled index (hi.tick now)
    generalize hr : s.publication index now = r at hp
    rw [show machine.next s (.publication index now) = r.1 from congrArg Prod.fst hr]
    cases hp with
    | silent => exact .refl _
    | sent => exact .refl _
  | endLease => exact ⟨.refl _, moves_endLease s⟩
  | reject crc => exact ⟨.refl _, moves_of_tenure (reject_frame s crc).1⟩

/-- The fence events of one call. -/
def events (s : Service) (op : Op) : List (Fence.Event Lease) :=
  Fence.between s.fence (s.ticked op).fence ++
    Fence.between (s.ticked op).fence (machine.next s op).fence

/-- The fence events of a run. -/
def runEvents (s : Service) (ops : List Op) : List (Fence.Event Lease) :=
  (machine.trace s ops).flatMap fun e => events e.1 e.2.1

/-- **Refinement, whole runs.** -/
theorem run_fence {s : Service} (hi : Inv s) (ops : List Op) :
    (Fence.fence Lease u32Max).Run s.fence (runEvents s ops) (machine.run s ops).fence := by
  induction ops generalizing s with
  | nil => exact .nil _
  | cons op ops ih =>
    obtain ⟨h1, h2⟩ := step_moves hi op
    exact (h1.append h2).append (ih (hi.next op))

/-! ## Endings and acquisitions -/

theorem between_revoke {f f' : Fence Lease} (h1 : f.holder.isSome) (h2 : f'.holder = none) :
    Fence.Event.revoke ∈ Fence.between f f' := by
  obtain ⟨l, hl⟩ := Option.isSome_iff_exists.1 h1
  unfold Fence.between
  rw [hl, h2]
  exact List.mem_singleton.2 rfl

theorem ends_revoke {s : Service} {op : Op} (h : Ends s op) : Fence.Event.revoke ∈ events s op := by
  unfold events
  rcases h with ⟨h1, h2⟩ | ⟨h1, h2⟩
  · exact List.mem_append_left _ (between_revoke h1 h2)
  · exact List.mem_append_right _ (between_revoke h1 h2)

theorem ticked_none {s : Service} (op : Op) (h : s.lease = none) :
    (s.ticked op).tenure = s.tenure := by
  unfold ticked
  split
  · exact tick_lease_none h
  · rfl

/-- A call ends at most one lease, and what that does to the epoch. -/
theorem step_ends {s : Service} (hi : Inv s) {op : Op} (h : Ends s op) :
    (s.epoch ≠ UInt32.ofNat u32Max ∧ (machine.next s op).epoch.toNat = s.epoch.toNat + 1 ∧
      (machine.next s op).exhausted = s.exhausted) ∨
    (s.epoch = UInt32.ofNat u32Max ∧ (machine.next s op).epoch = s.epoch ∧
      (machine.next s op).exhausted = true) := by
  have hlim : s.epoch.toNat = u32Max ↔ s.epoch = UInt32.ofNat u32Max := by
    rw [← UInt32.toNat_inj, toNat_ofNat32_le (Nat.le_refl _)]
  obtain ⟨h1, h2⟩ := step_moves hi op
  rw [← hlim, ne_eq, ← hlim, ← UInt32.toNat_inj]
  rcases h with ⟨ha, hb⟩ | ⟨ha, hb⟩
  · -- the tick ends it, and nothing is held any more that the rest could end
    obtain ⟨k1, k2⟩ := h2.kept fun hk => by rw [show (s.ticked op).fence.holder = none from hb] at hk; cases hk.1
    have he := h1.ended ha hb
    simp only [fence] at k1 k2 he
    rcases he with ⟨e1, e2, e3⟩ | ⟨e1, e2, e3⟩
    · exact .inl ⟨e1, k1.trans e2, k2.trans e3⟩
    · exact .inr ⟨e1, k1.trans e2, k2.trans e3⟩
  · obtain ⟨k1, k2⟩ := h1.kept fun hk => by rw [show (s.ticked op).lease = none from hk.2] at ha; cases ha
    have he := h2.ended ha hb
    simp only [fence] at k1 k2 he
    rcases he with ⟨e1, e2, e3⟩ | ⟨e1, e2, e3⟩
    · exact .inl ⟨k1 ▸ e1, by omega, e3.trans k2⟩
    · exact .inr ⟨k1 ▸ e1, by omega, e3⟩

theorem step_kept {s : Service} (hi : Inv s) {op : Op} (h : ¬ Ends s op) :
    (machine.next s op).epoch = s.epoch ∧ (machine.next s op).exhausted = s.exhausted := by
  obtain ⟨h1, h2⟩ := step_moves hi op
  obtain ⟨k1, k2⟩ := h1.kept fun hk => h (.inl hk)
  obtain ⟨k3, k4⟩ := h2.kept fun hk => h (.inr hk)
  exact ⟨UInt32.toNat_inj.mp (k3.trans k1), k4.trans k2⟩

/-- The grants of a call are its acquisition. -/
theorem grants_events {s : Service} (hi : Inv s) (op : Op) :
    Fence.grants (events s op) = ((acquiredEpoch s op).map UInt32.toNat).toList := by
  have htick : Fence.grants (Fence.between s.fence (s.ticked op).fence) = [] := by
    unfold Fence.between
    cases hl : s.fence.holder with
    | some l => cases (s.ticked op).fence.holder <;> rfl
    | none =>
      have : (s.ticked op).fence.holder = none :=
        ((tenure_eq_iff.1 (ticked_none op hl)).1).trans hl
      rw [this]; rfl
  have hrest : Fence.grants (Fence.between (s.ticked op).fence (machine.next s op).fence) =
      ((acquiredEpoch s op).map UInt32.toNat).toList := by
    unfold Fence.between acquiredEpoch
    cases hl : (s.ticked op).lease with
    | some l =>
      rw [show (s.ticked op).fence.holder = some l from hl]
      cases (machine.next s op).fence.holder <;> rfl
    | none =>
      have hk := ((step_moves hi op).2.kept fun hk => by
        rw [show (s.ticked op).fence.holder = none from hl] at hk; cases hk.1).1
      rw [show (s.ticked op).fence.holder = none from hl]
      cases hn : (machine.next s op).lease with
      | none => rw [show (machine.next s op).fence.holder = none from hn]; rfl
      | some l =>
        rw [show (machine.next s op).fence.holder = some l from hn, ← hk]
        rfl
  rw [events, Fence.grants_append, htick, hrest, List.nil_append]

/-- The grants of a run are its acquisitions. -/
theorem grants_eq {s : Service} (hi : Inv s) (ops : List Op) :
    Fence.grants (runEvents s ops) = (acquiredEpochs s ops).map UInt32.toNat := by
  induction ops generalizing s with
  | nil => rfl
  | cons op ops ih =>
    have := ih (hi.next op)
    unfold runEvents acquiredEpochs at this ⊢
    rw [Machine.trace_cons, List.flatMap_cons, Fence.grants_append, grants_events hi, this,
      List.filterMap_cons]
    cases acquiredEpoch s op <;> rfl

/-! ## Stale messages -/

theorem ended_behind {s : Service} (hi : Inv s) {later : List Op} {now : Nat}
    (h : Ended s later now) :
    s.epoch ≠ ((machine.run s later).tick now).epoch ∨
      ((machine.run s later).tick now).exhausted = true := by
  have hrun := (run_fence hi later).append (moves_tick (machine.run s later) now)
  have hrev : Fence.Event.revoke ∈ runEvents s later ++
      Fence.between (machine.run s later).fence ((machine.run s later).tick now).fence := by
    rcases h with ⟨e, he, hends⟩ | ⟨h1, h2⟩
    · exact List.mem_append_left _ (List.mem_flatMap.2 ⟨e, he, ends_revoke hends⟩)
    · exact List.mem_append_right _ (between_revoke h1 h2)
  rcases Fence.run_revoked hrun (fence_ok hi) hrev with h | h
  · left
    intro e
    simp only [fence] at h
    rw [← e] at h
    omega
  · exact .inr h

/-- A message that names an epoch without a lease leaves run and count alone. -/
theorem stale_effect {s : Service} (hi : Inv s) {request : Envelope} {peer : Peer} {now : Nat}
    {r : Service × Outcome} (he : Effect s request peer now r)
    (hs : request.runEpoch ≠ some s.epoch ∨ s.exhausted = true) :
    r.1.tenure = s.tenure ∧ r.1.counters.received = s.counters.received ∧
      r.2.code ≠ some 1 ∧ r.2.code ≠ some 3 ∧ ∀ out, r.2 ≠ .probe out := by
  have hno : ∀ l, s.lease = some l → request.runEpoch ≠ some s.epoch := by
    intro l hl
    refine hs.resolve_right fun hx => ?_
    rw [(hi.spent hx).1] at hl; cases hl
  cases he with
  | refused =>
    exact ⟨(reject_frame s false).1, (reject_frame s false).2.2.2.2.2.1, by simp, by simp, by simp⟩
  | capabilities => exact ⟨rfl, rfl, by simp, by simp, by simp⟩
  | probe _ hl _ _ he => exact absurd he (hno _ hl)
  | duplicate _ hl _ he => exact absurd he (hno _ hl)
  | rejected ha hc =>
    refine ⟨(reject_frame s false).1, (reject_frame s false).2.2.2.2.2.1, fun h => ?_, fun h => ?_,
      by simp⟩ <;> simp only [Outcome.code_control, Option.some.injEq] at h <;> omega
  | acquired _ _ _ hx he => exact absurd he (hs.resolve_right (by simp [hx]))
  | renewed _ _ hl _ he => exact absurd he (hno _ hl)
  | stopped _ _ hl _ he => exact absurd he (hno _ hl)

/-- Once exhausted, no lease is acquired. -/
theorem exhausted_effect {s : Service} {request : Envelope} {peer : Peer} {now : Nat} (hi : Inv s)
    {r : Service × Outcome} (he : Effect s request peer now r) (hx : s.exhausted = true) :
    r.2.code ≠ some 1 :=
  (stale_effect hi he (.inr hx)).2.2.1

theorem exhausted_stays {s : Service} (hi : Inv s) (hx : s.exhausted = true) (ops : List Op) :
    (machine.run s ops).exhausted = true :=
  Fence.run_spent_mono (run_fence hi ops) (fence_ok hi) hx

/-! ## The contract -/

/-- **Run epochs are never reused.** At every point of every run from `new`:
the epoch only steps when a lease ends, by one, or latches `exhausted` at the
last value; the epochs of the leases acquired so far are strictly increasing;
idle schedules are cleared; exhaustion is final; and a message that carries
the epoch of a lease that has ended neither touches the run nor is counted,
at any later point. -/
theorem epochs_fence_runs (device : HString 32) (boot : HString 16) (format : Format) (crc : CrcMode)
    (start : Nat) (ops : List Op) :
    let s := machine.run (new device boot format crc start) ops
    (∀ op, let s' := machine.next s op
      s.epoch ≤ s'.epoch ∧
      (Ends s op →
        (s.epoch ≠ UInt32.ofNat u32Max ∧ s'.epoch.toNat = s.epoch.toNat + 1 ∧
          s'.exhausted = s.exhausted) ∨
        (s.epoch = UInt32.ofNat u32Max ∧ s'.epoch = s.epoch ∧ s'.exhausted = true)) ∧
      (¬ Ends s op → s'.epoch = s.epoch ∧ s'.exhausted = s.exhausted)) ∧
    (acquiredEpochs (new device boot format crc start) ops).Pairwise (· < ·) ∧
    (s.lease = none → ∀ i (h : i < 2), s.schedules[i].period = 0) ∧
    (s.exhausted = true → ∀ later, let s' := machine.run s later
      s'.exhausted = true ∧ s'.lease = none ∧
        ∀ request peer now, (s'.outcome request peer now).code ≠ some 1) ∧
    (s.lease.isSome → ∀ later request peer now, Ended s later now →
      request.runEpoch = some s.epoch →
      let s' := (machine.run s later).tick now
      let s'' := ((machine.run s later).handle request peer now).1
      let outcome := (machine.run s later).outcome request peer now
      s''.tenure = s'.tenure ∧ s''.counters.received = s'.counters.received ∧
        outcome.code ≠ some 1 ∧ outcome.code ≠ some 3 ∧ ∀ out, outcome ≠ .probe out) := by
  intro s
  have h0 := Inv.new device boot format crc start
  have hi : Inv s := h0.run ops
  refine ⟨fun op => ⟨?_, step_ends hi, step_kept hi⟩, ?_, fun hl i h => ?_, fun hx later => ?_, ?_⟩
  · obtain ⟨h1, h2⟩ := step_moves hi op
    exact UInt32.le_iff_toNat_le.2 (Nat.le_trans (Fence.run_token_le h1) (Fence.run_token_le h2))
  · have := Fence.run_grants_increasing (run_fence h0 ops) (fence_ok h0)
    rw [grants_eq h0, List.pairwise_map] at this
    exact this.imp UInt32.lt_iff_toNat_lt.2
  · rw [(Vector.ext_iff.1 (hi.idle hl)) i h]
    simp [cleared]
  · have hx' := exhausted_stays hi hx later
    refine ⟨hx', ((hi.run later).spent hx').1, fun request peer now => ?_⟩
    have ht := (hi.run later).tick now
    refine exhausted_effect ht (assess_effect ht request peer now) ?_
    exact Fence.run_spent_mono (moves_tick _ now) (fence_ok (hi.run later)) hx'
  · intro _ later request peer now hend hep
    have ht := (hi.run later).tick now
    obtain ⟨f1, f2, -⟩ := handle_frame (machine.run s later) request peer now
    obtain ⟨e1, e2, e3⟩ := stale_effect ht (assess_effect ht request peer now) (by
      rcases ended_behind hi hend with h | h
      · left; rw [hep]; exact fun e => h (Option.some.inj e)
      · exact .inr h)
    exact ⟨f1.trans e1, (congrArg Counters.received f2).trans e2, e3⟩

end Service
end Nucleo.Benchmark
