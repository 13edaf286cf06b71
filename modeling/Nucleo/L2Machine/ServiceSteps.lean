import Nucleo.L2Machine.Service

/-!
# What one call on the service can do

`tenure` is the part of the state a run owns: lease, schedules, epoch and the
exhausted latch. Everything else is counters, the bucket and the clock.

* `tick_tenure`: a tick ends the lease when the clock went back or the expiry
  is reached (`lapses`), and otherwise leaves the tenure alone.
* `Effect`, `assess_effect`: the seven things `handle` does after its tick,
  each with the guards under which it does it.
* `Polled`, `publication_polled`: the two things a poll does after its tick.
* `Inv`, `Inv.next`, `Inv.run`: the invariant of every reachable state.

Epoch, Control, Tenant, Publications, ReplyBudget and Sendable only use these;
none of them unfolds `resultCode` again.
-/
namespace Nucleo.Benchmark

/-! ## Configurations -/

namespace Configuration

/-- The lease length in microseconds. -/
def leaseMicros (c : Configuration) : Nat := (c.leaseMs.getD 0).toNat * 1000

/-- The period of stream `index`. -/
def period (c : Configuration) (index : Nat) : UInt32 :=
  if index = 0 then c.statusPeriodUs.getD 0 else c.healthPeriodUs.getD 0

end Configuration

/-- A valid configuration has its five fields, each in range. -/
theorem configurationValid_fields {c : Configuration} (h : configurationValid c = true) :
    ∃ payload seed status health ms, c = ⟨some payload, some seed, some status, some health, some ms⟩ ∧
      payload ≤ 512 ∧ (status = 0 ∨ 1000 ≤ status ∧ status ≤ 10000000) ∧
      (health = 0 ∨ 10000 ≤ health ∧ health ≤ 10000000) ∧ 2000 ≤ ms ∧ ms ≤ 30000 := by
  obtain ⟨payload, seed, status, health, ms⟩ := c
  cases payload <;> cases seed <;> cases status <;> cases health <;> cases ms <;>
    simp [configurationValid] at h
  exact ⟨_, _, _, _, _, rfl, h.1.1.1, h.1.1.2, h.1.2, h.2.1, h.2.2⟩

/-- A valid configuration has all its fields, so it passes the structural check. -/
theorem configurationValid_payload {c : Configuration} (h : configurationValid c = true)
    {length : UInt32} (hl : c.payloadBytes = some length) (seed token : UInt32) :
    ∃ payload, pattern length seed token = some payload := by
  obtain ⟨p, _, _, _, _, rfl, hp, -⟩ := configurationValid_fields h
  simp only [Option.some.injEq] at hl
  subst hl
  simp only [UInt32.le_iff_toNat_le] at hp
  have hp : p.toNat ≤ 512 := hp
  exact ⟨_, dif_neg (by omega)⟩

theorem period_le {c : Configuration} (h : configurationValid c = true) (i : Nat) :
    (c.period i).toNat ≤ 10000000 := by
  obtain ⟨payload, seed, status, health, ms, rfl, -, h1, h2, -⟩ := configurationValid_fields h
  unfold Configuration.period
  split
  · rcases h1 with rfl | ⟨-, h1⟩
    · exact Nat.zero_le _
    · exact UInt32.le_iff_toNat_le.1 h1
  · rcases h2 with rfl | ⟨-, h2⟩
    · exact Nat.zero_le _
    · exact UInt32.le_iff_toNat_le.1 h2

namespace Service

/-! ## The tenure -/

structure Tenure where
  lease : Option Lease
  schedules : Vector Publication 2
  epoch : UInt32
  exhausted : Bool
  deriving DecidableEq

/-- The part of the state that belongs to the current run. -/
def tenure (s : Service) : Tenure := ⟨s.lease, s.schedules, s.epoch, s.exhausted⟩

theorem tenure_eq_iff {s s' : Service} : s.tenure = s'.tenure ↔
    s.lease = s'.lease ∧ s.schedules = s'.schedules ∧ s.epoch = s'.epoch ∧ s.exhausted = s'.exhausted := by
  simp [tenure]

/-- The identity the service was created with. -/
def identity (s : Service) : HString 32 × HString 16 × Format × CrcMode :=
  (s.device, s.boot, s.format, s.crc)

theorem endLease_none {s : Service} (h : s.lease = none) : s.endLease = s := by
  unfold endLease; rw [h]

@[simp] theorem endLease_lease (s : Service) : s.endLease.lease = none := by
  unfold endLease
  split
  · assumption
  · split <;> rfl

@[simp] theorem endLease_frame (s : Service) : s.endLease.tokens = s.tokens ∧
    s.endLease.tokenTime = s.tokenTime ∧ s.endLease.lastTime = s.lastTime ∧
    s.endLease.counters = s.counters ∧ s.endLease.identity = s.identity := by
  unfold endLease
  split
  · exact ⟨rfl, rfl, rfl, rfl, rfl⟩
  · split <;> exact ⟨rfl, rfl, rfl, rfl, rfl⟩

/-- Ending a lease steps the epoch, or latches `exhausted` at the last one. -/
theorem endLease_some {s : Service} {l : Lease} (h : s.lease = some l) :
    (s.epoch ≠ UInt32.ofNat u32Max ∧ s.endLease.tenure = ⟨none, cleared, s.epoch + 1, s.exhausted⟩) ∨
    (s.epoch = UInt32.ofNat u32Max ∧ s.endLease.tenure = ⟨none, cleared, s.epoch, true⟩) := by
  unfold endLease
  rw [h]
  by_cases he : s.epoch = UInt32.ofNat u32Max
  · exact .inr ⟨he, by simp only [he, if_true, tenure]⟩
  · exact .inl ⟨he, by simp only [if_neg he, tenure]⟩

theorem endLease_tenure {s s' : Service} (h : s.tenure = s'.tenure) :
    s.endLease.tenure = s'.endLease.tenure := by
  obtain ⟨h1, h2, h3, h4⟩ := tenure_eq_iff.1 h
  unfold endLease
  rw [h1, h3]
  split
  · exact h
  · split <;> simp [tenure, h4]

/-! ## `tick` -/

/-- A tick at `now` ends the lease: the clock went back, or the lease expired. -/
def lapses (s : Service) (now : Nat) : Bool :=
  decide (now < s.lastTime) || s.lease.any (·.expiry ≤ now)

theorem refill_frame (s : Service) (now : Nat) : (s.refill now).tenure = s.tenure ∧
    (s.refill now).lastTime = s.lastTime ∧ (s.refill now).counters = s.counters ∧
    (s.refill now).identity = s.identity := by
  unfold refill
  simp only
  split <;> exact ⟨rfl, rfl, rfl, rfl⟩

theorem expire_tenure (s : Service) (now : Nat) :
    (s.expire now).tenure = if s.lease.any (·.expiry ≤ now) then s.endLease.tenure else s.tenure := by
  unfold expire; split <;> rfl

theorem expire_frame (s : Service) (now : Nat) : (s.expire now).tokens = s.tokens ∧
    (s.expire now).tokenTime = s.tokenTime ∧ (s.expire now).lastTime = s.lastTime ∧
    (s.expire now).counters = s.counters ∧ (s.expire now).identity = s.identity := by
  unfold expire
  split
  · exact endLease_frame s
  · exact ⟨rfl, rfl, rfl, rfl, rfl⟩

/-- What a tick leaves of the run. -/
theorem tick_tenure (s : Service) (now : Nat) :
    (s.tick now).tenure = if s.lapses now then s.endLease.tenure else s.tenure := by
  unfold tick lapses rollback
  rw [(refill_frame _ _).1, expire_tenure]
  by_cases h : now < s.lastTime
  · -- the lease is gone before the expiry is looked at
    simp only [h, if_true, decide_true, Bool.true_or, endLease_lease, Option.any_none,
      Bool.false_eq_true, if_false]
    simp [tenure]
  · simp only [h, if_false, decide_false, Bool.false_or]
    split
    · exact endLease_tenure rfl
    · rfl

/-- What a tick leaves of the rest: the clock moves, the counters stay. -/
@[simp] theorem tick_frame (s : Service) (now : Nat) : (s.tick now).lastTime = now ∧
    (s.tick now).counters = s.counters ∧ (s.tick now).identity = s.identity := by
  unfold tick rollback
  obtain ⟨-, r2, r3, r4⟩ :=
    refill_frame (({ (if now < s.lastTime then { s.endLease with tokenTime := now } else s) with
      lastTime := now } : Service).expire now) now
  rw [r2, r3, r4]
  obtain ⟨-, -, e3, e4, e5⟩ := expire_frame
    ({ (if now < s.lastTime then { s.endLease with tokenTime := now } else s) with
      lastTime := now } : Service) now
  rw [e3, e4, e5]
  split
  · obtain ⟨-, -, -, f4, f5⟩ := endLease_frame s
    exact ⟨rfl, f4, f5⟩
  · exact ⟨rfl, rfl, rfl⟩

theorem tick_lease_none {s : Service} {now : Nat} (h : s.lease = none) : (s.tick now).tenure = s.tenure := by
  rw [tick_tenure, endLease_none h]; split <;> rfl

theorem tick_stays {s : Service} {now : Nat} (h : s.lapses now = false) :
    (s.tick now).tenure = s.tenure := by
  rw [tick_tenure, h]; rfl

theorem tick_ends {s : Service} {now : Nat} (h : s.lapses now = true) :
    (s.tick now).lease = none := by
  have := tick_tenure s now
  rw [if_pos h] at this
  exact (tenure_eq_iff.1 this).1.trans (endLease_lease s)

/-- A lease that a tick leaves in place is unexpired and unchanged. -/
theorem tick_lease_some {s : Service} {now : Nat} {l : Lease} (h : (s.tick now).lease = some l) :
    (s.tick now).tenure = s.tenure ∧ s.lease = some l ∧ s.lastTime ≤ now ∧ now < l.expiry := by
  cases hl : s.lapses now with
  | true => rw [tick_ends hl] at h; cases h
  | false =>
    have ht := tick_stays hl
    have hs : s.lease = some l := (tenure_eq_iff.1 ht).1.symm.trans h
    rw [lapses, hs] at hl
    simp only [Bool.or_eq_false_iff, decide_eq_false_iff_not, Option.any_some] at hl
    exact ⟨ht, hs, by omega, by omega⟩

/-! ## The invariant -/

/-- What holds of every reachable state. -/
structure Inv (s : Service) : Prop where
  idle : s.lease = none → s.schedules = cleared
  valid : ∀ l, s.lease = some l → configurationValid l.configuration = true
  periods : ∀ l, s.lease = some l → ∀ i (h : i < 2), s.schedules[i].period = l.configuration.period i
  spent : s.exhausted = true → s.lease = none ∧ s.epoch = UInt32.ofNat u32Max
  tokens : s.tokens ≤ 10

/-! ## `handle` after its tick -/

/-- A request that is let in: a well-formed request of kind 1 to 5 for this
device and, past discovery, this boot. -/
theorem refuses_false {s : Service} {request : Envelope} (h : s.refuses request = false) :
    ∃ kind session id, ValidAs request s.format s.crc kind ∧ request.sessionId = some session ∧
      request.requestId = some id ∧ 1 ≤ kind ∧ kind ≤ 5 ∧ request.deviceId = some s.device ∧
      (kind ≠ 1 → request.bootId = some s.boot) := by
  simp only [refuses, Bool.or_eq_false_iff, Bool.not_eq_false', bne_eq_false_iff_eq,
    Bool.and_eq_false_iff] at h
  obtain ⟨⟨⟨hv, hd⟩, hk⟩, hb⟩ := h
  have hv : validate request s.format s.crc = .ok () := by
    cases e : validate request s.format s.crc with
    | ok u => rfl
    | error x => rw [e] at hv; cases hv
  obtain ⟨kind, ha⟩ := validate_ok_iff.1 hv
  have hkind := ha.hasKind
  rw [hkind] at hk hb
  simp only [Option.any_some, isRequest, Bool.and_eq_true, decide_eq_true_eq] at hk
  obtain ⟨session, hs⟩ : ∃ session, request.sessionId = some session := by
    have := ha.session
    cases e : request.sessionId with
    | none => rw [e] at this; cases this
    | some session => exact ⟨session, rfl⟩
  obtain ⟨id, hid⟩ : ∃ id, request.requestId = some id := by
    have := ha.request
    cases e : request.requestId with
    | none => rw [e] at this; simp [isPublication] at this; omega
    | some id => exact ⟨id, rfl⟩
  refine ⟨kind, session, id, ha, hs, hid, hk.1, hk.2, hd, fun hne => ?_⟩
  rcases hb with hb | hb
  · simp at hb; exact absurd hb hne
  · exact hb

/-- The state after an accepted acquisition. -/
def granted (s : Service) (peer : Peer) (session : HString 16) (config : Configuration)
    (control : Control) (now : Nat) : Service :=
  { s with
    schedules := #v[
      { due := satAdd64 now (config.period 0).toNat, period := config.period 0, sequence := 0 },
      { due := satAdd64 now (config.period 1).toNat, period := config.period 1, sequence := 0 }]
    counters := Counters.new.countReceived
    lease := some { peer := peer, session := session, configuration := config, last := control,
                    expiry := satAdd64 now config.leaseMicros } }

/-- The state after an accepted renewal of `l`. -/
def renewed (s : Service) (l : Lease) (control : Control) (now : Nat) : Service :=
  { s with
    counters := s.counters.countReceived
    lease := some { l with last := control, expiry := satAdd64 now l.configuration.leaseMicros } }

/-- The state after an accepted stop. -/
def stopped (s : Service) : Service := s.counted.endLease

/-- What the request says about itself: a control of `kind` with this session,
ID and contents. -/
structure Asks (request : Envelope) (session : HString 16) (control : Control) : Prop where
  kind : request.kind = some control.kind
  range : 2 ≤ control.kind ∧ control.kind ≤ 4
  session : request.sessionId = some session
  id : request.requestId = some control.id
  configuration : request.configure = control.configuration

/-- The seven things `handle` does after its tick, with their guards. -/
inductive Effect (s : Service) (request : Envelope) (peer : Peer) (now : Nat) :
    Service × Outcome → Prop
  /-- not for this service, or an invalid probe -/
  | refused (h : s.refuses request = true ∨ request.kind = some 5) :
      Effect s request peer now (s.reject false, .none)
  | capabilities {session : HString 16} {id : UInt32} (hk : request.kind = some 1)
      (hs : request.sessionId = some session) (hid : request.requestId = some id) :
      Effect s request peer now (s, .capabilities (s.capabilitiesReply session id now))
  | probe {l : Lease} {id : UInt32} (hk : request.kind = some 5) (hl : s.lease = some l)
      (hp : l.peer = peer) (hs : request.sessionId = some l.session)
      (he : request.runEpoch = some s.epoch) (hid : request.requestId = some id) :
      Effect s request peer now
        (s.counted, .probe (s.counted.probeReply request l.session id now))
  /-- code 2: the last accepted control again -/
  | duplicate {l : Lease} {control : Control} (ha : Asks request l.session control)
      (hl : s.lease = some l) (hp : l.peer = peer) (he : request.runEpoch = some s.epoch)
      (hlast : l.last = control) :
      Effect s request peer now
        (s, .control 2 (s.controlReply request peer l.session control.id 2 now))
  /-- codes 4 to 10 -/
  | rejected {session : HString 16} {control : Control} {code : Int}
      (ha : Asks request session control) (hc : 4 ≤ code ∧ code ≤ 10) :
      Effect s request peer now (s.reject false,
        .control code ((s.reject false).controlReply request peer session control.id code now))
  /-- code 1 of a configure -/
  | acquired {session : HString 16} {control : Control} {config : Configuration}
      (ha : Asks request session control) (hk : control.kind = 2) (hl : s.lease = none)
      (hx : s.exhausted = false) (he : request.runEpoch = some s.epoch)
      (hc : request.configure = some config) (hv : configurationValid config = true) :
      Effect s request peer now (s.granted peer session config control now,
        .control 1 ((s.granted peer session config control now).controlReply request peer session
          control.id 1 now))
  /-- code 1 of a renewal -/
  | renewed {l : Lease} {control : Control} (ha : Asks request l.session control)
      (hk : control.kind = 3) (hl : s.lease = some l) (hp : l.peer = peer)
      (he : request.runEpoch = some s.epoch) (hid : l.last.id < control.id) :
      Effect s request peer now (s.renewed l control now,
        .control 1 ((s.renewed l control now).controlReply request peer l.session control.id 1 now))
  /-- code 3 -/
  | stopped {l : Lease} {control : Control} (ha : Asks request l.session control)
      (hk : control.kind = 4) (hl : s.lease = some l) (hp : l.peer = peer)
      (he : request.runEpoch = some s.epoch) (hid : l.last.id < control.id) :
      Effect s request peer now (s.stopped,
        .control 3 (s.stopped.controlReply request peer l.session control.id 3 now))

/-- Only controls get a control outcome. -/
theorem Effect.control_asks {s s' : Service} {request : Envelope} {peer : Peer} {now : Nat} {code : Int}
    {reply : Envelope} (he : Effect s request peer now (s', .control code reply)) :
    ∃ session control, Asks request session control := by
  cases he with
  | duplicate ha => exact ⟨_, _, ha⟩
  | rejected ha => exact ⟨_, _, ha⟩
  | acquired ha => exact ⟨_, _, ha⟩
  | renewed ha => exact ⟨_, _, ha⟩
  | stopped ha => exact ⟨_, _, ha⟩

theorem owner_true {s : Service} {peer : Peer} {session : HString 16} (h : s.owner peer session = true) :
    ∃ l, s.lease = some l ∧ l.peer = peer ∧ l.session = session := by
  unfold owner at h
  cases hl : s.lease with
  | none => rw [hl] at h; cases h
  | some l =>
    rw [hl] at h
    simp only [Option.any_some, Bool.and_eq_true, beq_iff_eq] at h
    exact ⟨l, rfl, h.1, h.2⟩

/-- The probe branch. -/
theorem probe_effect {s : Service} (hi : Inv s) {request : Envelope} {peer : Peer} {now : Nat}
    {session : HString 16} {id : UInt32} (hk : request.kind = some 5)
    (hs : request.sessionId = some session) (hid : request.requestId = some id) :
    Effect s request peer now (s.probe request (s.owner peer session) session id now) := by
  unfold probe
  split
  · exact .refused (.inr hk)
  rename_i hg
  simp only [Bool.or_eq_true, Bool.not_eq_true', bne_iff_ne, ne_eq, not_or, Bool.not_eq_false,
    Decidable.not_not] at hg
  obtain ⟨l, hl, hp, rfl⟩ := owner_true hg.1
  obtain ⟨_, _, _, _, _, hc, -⟩ := configurationValid_fields (hi.valid l hl)
  simp only [hl, hc]
  split
  · exact .refused (.inr hk)
  · exact .probe hk hl hp hs hg.2 hid

theorem conclude_rejected (s : Service) (request : Envelope) (peer : Peer) (session : HString 16)
    (id : UInt32) (now : Nat) {code : Int} (h : 4 ≤ code) :
    conclude request peer session id now (s, some code) = (s.reject false,
      .control code ((s.reject false).controlReply request peer session id code now)) := by
  simp only [conclude]
  rw [if_neg (by omega)]

theorem acquire_eq {s : Service} {request : Envelope} {config : Configuration}
    (hc : request.configure = some config) (hv : configurationValid config = true) (peer : Peer)
    (session : HString 16) (control : Control) (hk : control.kind = 2) (now : Nat) :
    ∃ s', s.acquire request peer session control now = some s' ∧
      s'.apply control now = (s.granted peer session config control now, some 1) := by
  obtain ⟨payload, seed, status, health, ms, rfl, -⟩ := configurationValid_fields hv
  simp only [acquire, hc]
  refine ⟨_, rfl, ?_⟩
  simp only [apply, counted]
  rw [if_neg (by rw [hk]; decide)]
  rfl

theorem renew_eq {s : Service} (hi : Inv s) {l : Lease} (hl : s.lease = some l) (control : Control)
    (hk : control.kind ≠ 4) (now : Nat) : s.apply control now = (s.renewed l control now, some 1) := by
  obtain ⟨payload, seed, status, health, ms, hc, -⟩ := configurationValid_fields (hi.valid l hl)
  simp only [apply, counted]
  rw [if_neg hk]
  simp only [hl, hc, renewed, Configuration.leaseMicros, Option.getD_some]

/-- The control branch. -/
theorem control_effect {s : Service} (hi : Inv s) {request : Envelope} {peer : Peer} {now : Nat}
    {session : HString 16} {control : Control} (ha : Asks request session control)
    (hconf : control.kind = 2 → request.configure ≠ none) :
    Effect s request peer now
      (s.control request peer (s.owner peer session) control.kind session control.id now) := by
  have hrej : ∀ code : Int, 4 ≤ code ∧ code ≤ 10 →
      Effect s request peer now (conclude request peer session control.id now (s, some code)) := by
    intro code hc
    rw [conclude_rejected _ _ _ _ _ _ hc.1]
    exact .rejected ha hc
  unfold Service.control
  rw [show (⟨control.kind, control.id, request.configure⟩ : Control) = control by
    rw [ha.configuration]]
  unfold resultCode
  by_cases he : request.runEpoch ≠ some s.epoch
  · rw [if_pos he]; exact hrej 6 (by decide)
  rw [if_neg he]
  rw [ne_eq, Decidable.not_not] at he
  by_cases hx : s.exhausted = true
  · rw [if_pos hx]; exact hrej 10 (by decide)
  rw [if_neg hx]
  by_cases ho : (s.active && !s.owner peer session) = true
  · rw [if_pos ho]; exact hrej 5 (by decide)
  rw [if_neg ho]
  cases hl : s.lease with
  | none =>
    simp only [active, hl, Option.any_none, Option.isSome_none, Bool.false_eq_true, if_false,
      and_false, not_false_eq_true, and_true]
    by_cases h2 : control.kind = 2
    · obtain ⟨config, hc⟩ : ∃ config, request.configure = some config :=
        Option.ne_none_iff_exists'.1 (hconf h2)
      rw [if_neg (by simp [hc])]
      by_cases hv : configurationValid config = true
      · obtain ⟨s', hs', ha'⟩ := acquire_eq hc hv peer session control h2 now (s := s)
        rw [if_neg (by simp [hc, hv]), if_neg (by simp [h2]), if_pos h2, hs']
        simp only [ha']
        exact .acquired ha h2 hl (by simpa using hx) he hc hv
      · rw [if_pos ⟨h2, by simpa [hc] using hv⟩]; exact hrej 4 (by decide)
    · rw [if_neg (by simp [h2]), if_neg (by simp [h2]), if_pos h2]; exact hrej 9 (by decide)
  | some l =>
    have hown : l.peer = peer ∧ l.session = session := by
      simp only [active, owner, hl, Option.isSome_some, Option.any_some, Bool.true_and,
        Bool.not_eq_true', Bool.not_eq_false, Bool.and_eq_true, beq_iff_eq] at ho
      exact ho
    obtain ⟨hp, rfl⟩ := hown
    simp only [active, hl, Option.any_some, Option.isSome_some, and_true, not_true_eq_false,
      and_false, if_false]
    by_cases hid : l.last.id = control.id
    · rw [if_pos (by simpa using hid)]
      by_cases hlast : l.last = control
      · rw [if_pos (by simpa using hlast)]; exact .duplicate ha hl hp he hlast
      · rw [if_neg (by simpa using hlast)]; exact hrej 8 (by decide)
    rw [if_neg (by simpa using hid)]
    by_cases hlt : control.id < l.last.id
    · rw [if_pos (by simpa using hlt)]; exact hrej 7 (by decide)
    rw [if_neg (by simpa using hlt)]
    have hgt : l.last.id < control.id := by
      simp only [UInt32.lt_iff_toNat_lt] at hlt ⊢
      have : l.last.id.toNat ≠ control.id.toNat := fun e => hid (UInt32.toNat_inj.mp e)
      omega
    by_cases h2 : control.kind = 2
    · rw [if_neg (fun h => hconf h2 h.2)]
      split
      · exact hrej 4 (by decide)
      · exact hrej 5 (by decide)
    rw [if_neg (by simp [h2]), if_neg (by simp [h2]), if_neg h2, if_neg h2]
    by_cases h4 : control.kind = 4
    · have : s.apply control now = (s.stopped, some 3) := by unfold apply; rw [if_pos h4]; rfl
      rw [this]; exact .stopped ha h4 hl hp he hgt
    · rw [renew_eq hi hl control h4]
      have := ha.range
      exact .renewed ha (by omega) hl hp he hgt

/-- What `handle` does after its tick. -/
theorem assess_effect {s : Service} (hi : Inv s) (request : Envelope) (peer : Peer) (now : Nat) :
    Effect s request peer now (s.assess request peer now) := by
  unfold assess
  cases hr : s.refuses request with
  | true => exact .refused (.inl hr)
  | false =>
    obtain ⟨kind, session, id, ha, hs, hid, h1, h5, -, -⟩ := refuses_false hr
    have hk := ha.hasKind
    simp only [hk, hs, hid, Bool.false_eq_true, if_false]
    split
    · rename_i hk1; subst hk1; exact .capabilities hk hs hid
    split
    · rename_i hk5; subst hk5; exact probe_effect hi hk hs hid
    · have hc2 := ha.body_unique.2.1
      have ha : Asks request session ⟨kind, id, request.configure⟩ :=
        ⟨hk, ⟨by simp only; omega, by simp only; omega⟩, hs, hid, rfl⟩
      refine control_effect hi ha fun h2 hn => ?_
      simp only at h2
      rw [hn, h2] at hc2
      cases hc2

/-! ## The reply bucket -/

theorem spend_frame (s : Service) (reply : Envelope) : (s.spend reply).1.tenure = s.tenure ∧
    (s.spend reply).1.counters = s.counters ∧ (s.spend reply).1.identity = s.identity ∧
    (s.spend reply).1.lastTime = s.lastTime ∧ (s.spend reply).1.tokenTime = s.tokenTime ∧
    (s.spend reply).1.tokens ≤ s.tokens := by
  unfold spend
  split
  · exact ⟨rfl, rfl, rfl, rfl, rfl, Nat.le_refl _⟩
  · exact ⟨rfl, rfl, rfl, rfl, rfl, Nat.sub_le _ _⟩

/-- The bucket only takes tokens: run, counters and clock are those of `assess`. -/
theorem handle_frame (s : Service) (request : Envelope) (peer : Peer) (now : Nat) :
    let a := ((s.tick now).assess request peer now).1
    let s' := (s.handle request peer now).1
    s'.tenure = a.tenure ∧ s'.counters = a.counters ∧ s'.identity = a.identity ∧
      s'.lastTime = a.lastTime ∧ s'.tokenTime = a.tokenTime ∧ s'.tokens ≤ a.tokens := by
  unfold handle
  split <;> rename_i h <;> rw [h]
  · exact ⟨rfl, rfl, rfl, rfl, rfl, Nat.le_refl _⟩
  · exact ⟨rfl, rfl, rfl, rfl, rfl, Nat.le_refl _⟩
  · exact spend_frame _ _
  · exact spend_frame _ _

/-! ## `publication` after its tick -/

theorem toNat_skip (c : Counters) (n : Nat) :
    (c.skip n).skipped.toNat = min (c.skipped.toNat + n) u32Max := by
  simp only [Counters.skip, toNat_satAdd32, toNat_ofNat32_le (Nat.min_le_right n u32Max)]
  omega

/-- The state after a poll that finds stream `index` due. -/
def advanced (s : Service) (index : Nat) (h : index < 2) (now : Nat) : Service :=
  { s with schedules := s.schedules.set index (s.schedules[index].advance now).1
           counters := s.counters.skip (s.schedules[index].advance now).2.2 }

/-- Stream `index` has a slot at or before `now`. -/
def Due (s : Service) (index now : Nat) : Prop :=
  ∃ h : index < 2, s.lease.isSome ∧ s.schedules[index].period ≠ 0 ∧ s.schedules[index].due ≤ now

/-- The two things a poll does after its tick. -/
inductive Polled (s : Service) (index now : Nat) : Service × Option Envelope → Prop
  | silent (h : ¬ s.Due index now) : Polled s index now (s, none)
  | sent {l : Lease} (hl : s.lease = some l) (h : index < 2)
      (hp : s.schedules[index].period ≠ 0) (hd : s.schedules[index].due ≤ now)
      {payload : HString 512} (hpay : pattern (l.configuration.payloadBytes.getD 0)
        (l.configuration.patternSeed.getD 0) (s.schedules[index].advance now).2.1 = some payload) :
      Polled s index now (s.advanced index h now, some ((s.advanced index h now).sample index
        l.session (s.schedules[index].advance now).2.1 payload now))

theorem publication_polled {s : Service} (index : Nat) {now : Nat} (hi : Inv (s.tick now)) :
    Polled (s.tick now) index now (s.publication index now) := by
  unfold publication
  simp only
  cases hl : (s.tick now).lease with
  | none => exact .silent fun ⟨_, h, _⟩ => by rw [hl] at h; cases h
  | some l =>
    simp only
    split
    · rename_i h
      split
      · rename_i hg
        exact .silent fun ⟨_, _, hp, hd⟩ => hg.elim hp (Nat.not_lt.2 hd)
      · rename_i hg
        obtain ⟨_, seed, _, _, _, hc, -⟩ := configurationValid_fields (hi.valid l hl)
        obtain ⟨payload, hpay⟩ := configurationValid_payload (hi.valid l hl)
          (by rw [hc]) seed ((s.tick now).schedules[index].advance now).2.1
        simp only [hc, hpay]
        have hs := Polled.sent hl h (fun e => hg (.inl e)) (Nat.not_lt.1 fun e => hg (.inr e))
          (by rw [hc]; exact hpay)
        simpa only [advanced, hl] using hs
    · rename_i h
      exact .silent fun ⟨h', _⟩ => h h'

/-- A poll leaves the lease and the other stream alone. -/
theorem polled_schedule {s : Service} {i now : Nat} {r : Service × Option Envelope}
    (hp : Polled s i now r) {index : Nat} (hx : index < 2) (hne : i ≠ index) :
    r.1.lease = s.lease ∧ r.1.schedules[index] = s.schedules[index] := by
  cases hp with
  | silent => exact ⟨rfl, rfl⟩
  | sent _ hx' => exact ⟨rfl, Vector.getElem_set_ne hx' hx hne⟩

/-! ## The invariant of every reachable state -/

theorem Inv.new (device : HString 32) (boot : HString 16) (format : Format) (crc : CrcMode) (now : Nat) :
    Inv (new device boot format crc now) where
  idle _ := rfl
  valid _ h := by cases h
  periods _ h := by cases h
  spent h := by cases h
  tokens := Nat.le_refl _

/-- The invariant but for the bucket only looks at the tenure. -/
theorem Inv.of_tenure {s s' : Service} (h : Inv s) (ht : s'.tenure = s.tenure) (hb : s'.tokens ≤ 10) :
    Inv s' := by
  obtain ⟨h1, h2, h3, h4⟩ := tenure_eq_iff.1 ht
  refine ⟨?_, ?_, ?_, ?_, hb⟩
  · rw [h1, h2]; exact h.idle
  · rw [h1]; exact h.valid
  · rw [h1, h2]; exact h.periods
  · rw [h1, h3, h4]; exact h.spent

theorem Inv.endLease {s : Service} (h : Inv s) : Inv s.endLease := by
  cases hl : s.lease with
  | none => rw [endLease_none hl]; exact h
  | some l =>
    have hn := endLease_lease s
    have hb : s.endLease.tokens ≤ 10 := by rw [(endLease_frame s).1]; exact h.tokens
    have hno : ∀ l, s.endLease.lease ≠ some l := fun l h => by rw [hn] at h; cases h
    rcases endLease_some hl with ⟨-, ht⟩ | ⟨he, ht⟩
    · have hx : s.endLease.exhausted = s.exhausted := congrArg Tenure.exhausted ht
      refine ⟨fun _ => congrArg Tenure.schedules ht, fun l h => absurd h (hno l),
        fun l h => absurd h (hno l), fun hx' => ?_, hb⟩
      rw [hx] at hx'
      rw [(h.spent hx').1] at hl; cases hl
    · exact ⟨fun _ => congrArg Tenure.schedules ht, fun l h => absurd h (hno l),
        fun l h => absurd h (hno l), fun _ => ⟨hn, (congrArg Tenure.epoch ht).trans he⟩, hb⟩

theorem refill_tokens (s : Service) (now : Nat) (h : s.tokens ≤ 10) : (s.refill now).tokens ≤ 10 := by
  unfold refill
  simp only
  split
  · exact Nat.min_le_right _ _
  · exact h

theorem tick_tokens (s : Service) (now : Nat) (h : s.tokens ≤ 10) : (s.tick now).tokens ≤ 10 := by
  unfold tick rollback
  refine refill_tokens _ _ ?_
  rw [(expire_frame _ _).1]
  split
  · exact (endLease_frame s).1 ▸ h
  · exact h

theorem Inv.tick {s : Service} (h : Inv s) (now : Nat) : Inv (s.tick now) := by
  have hb := tick_tokens s now h.tokens
  cases hl : s.lapses now with
  | false => exact h.of_tenure (tick_stays hl) hb
  | true =>
    refine h.endLease.of_tenure ?_ hb
    rw [tick_tenure, if_pos hl]

@[simp] theorem reject_frame (s : Service) (crc : Bool) : (s.reject crc).tenure = s.tenure ∧
    (s.reject crc).tokens = s.tokens ∧ (s.reject crc).tokenTime = s.tokenTime ∧
    (s.reject crc).lastTime = s.lastTime ∧ (s.reject crc).identity = s.identity ∧
    (s.reject crc).counters.received = s.counters.received ∧
    (s.reject crc).counters.skipped = s.counters.skipped := by
  unfold reject
  split <;> exact ⟨rfl, rfl, rfl, rfl, rfl, rfl, rfl⟩

/-- No effect touches identity, clock or bucket. -/
theorem effect_clock {s : Service} {request : Envelope} {peer : Peer} {now : Nat}
    {r : Service × Outcome} (he : Effect s request peer now r) :
    r.1.identity = s.identity ∧ r.1.lastTime = s.lastTime ∧ r.1.tokens = s.tokens ∧
      r.1.tokenTime = s.tokenTime := by
  cases he with
  | refused =>
    obtain ⟨-, h2, h3, h4, h5, -⟩ := reject_frame s false
    exact ⟨h5, h4, h2, h3⟩
  | rejected =>
    obtain ⟨-, h2, h3, h4, h5, -⟩ := reject_frame s false
    exact ⟨h5, h4, h2, h3⟩
  | stopped =>
    obtain ⟨h2, h3, h4, -, h5⟩ := endLease_frame s.counted
    exact ⟨h5, h4, h2, h3⟩
  | capabilities => exact ⟨rfl, rfl, rfl, rfl⟩
  | probe => exact ⟨rfl, rfl, rfl, rfl⟩
  | duplicate => exact ⟨rfl, rfl, rfl, rfl⟩
  | acquired => exact ⟨rfl, rfl, rfl, rfl⟩
  | renewed => exact ⟨rfl, rfl, rfl, rfl⟩

theorem Inv.reject {s : Service} (h : Inv s) (crc : Bool) : Inv (s.reject crc) :=
  h.of_tenure (reject_frame s crc).1 ((reject_frame s crc).2.1 ▸ h.tokens)

theorem Inv.counted {s : Service} (h : Inv s) : Inv s.counted := h.of_tenure rfl h.tokens

/-- Every effect of `handle` keeps the invariant. -/
theorem Inv.effect {s : Service} (h : Inv s) {request : Envelope} {peer : Peer} {now : Nat}
    {r : Service × Outcome} (he : Effect s request peer now r) : Inv r.1 := by
  cases he with
  | refused => exact h.reject false
  | capabilities => exact h
  | probe => exact h.counted
  | duplicate => exact h
  | rejected => exact h.reject false
  | acquired ha hk hl hx he hc hv =>
    refine ⟨nofun, fun l hl => ?_, fun l hl i hi => ?_, fun h => ?_, h.tokens⟩
    · cases hl; exact hv
    · cases hl
      match i, hi with
      | 0, _ => rfl
      | 1, _ => rfl
    · rw [show (Service.granted s peer _ _ _ now).exhausted = s.exhausted from rfl, hx] at h; cases h
  | renewed ha hk hl =>
    refine ⟨nofun, fun l' hl' => ?_, fun l' hl' i hi => ?_, fun h' => ?_, h.tokens⟩
    · have := h.valid _ hl
      cases hl'; exact this
    · have := h.periods _ hl i hi
      cases hl'; exact this
    · rw [(h.spent h').1] at hl; cases hl
  | stopped => exact h.counted.endLease

theorem Inv.assess {s : Service} (h : Inv s) (request : Envelope) (peer : Peer) (now : Nat) :
    Inv (s.assess request peer now).1 :=
  h.effect (assess_effect h request peer now)

theorem Inv.handle {s : Service} (h : Inv s) (request : Envelope) (peer : Peer) (now : Nat) :
    Inv (s.handle request peer now).1 := by
  have ha := (h.tick now).assess request peer now
  obtain ⟨ht, -, -, -, -, hb⟩ := handle_frame s request peer now
  exact ha.of_tenure ht (Nat.le_trans hb ha.tokens)

theorem Inv.polled {s : Service} (h : Inv s) {index now : Nat} {r : Service × Option Envelope}
    (hp : Polled s index now r) : Inv r.1 := by
  cases hp with
  | silent => exact h
  | sent hl hx hp hd =>
    refine ⟨fun h' => ?_, h.valid, fun l' hl' i hi => ?_, h.spent, h.tokens⟩
    · rw [show (s.advanced index hx now).lease = s.lease from rfl, hl] at h'; cases h'
    · have := h.periods l' hl' i hi
      simp only [advanced, Vector.getElem_set]
      split
      · rename_i e; subst e; exact this
      · exact this

theorem Inv.publication {s : Service} (h : Inv s) (index now : Nat) : Inv (s.publication index now).1 :=
  (h.tick now).polled (publication_polled index (h.tick now))

theorem Inv.next {s : Service} (h : Inv s) (op : Op) : Inv (machine.next s op) := by
  cases op with
  | handle request peer now => exact h.handle request peer now
  | tick now => exact h.tick now
  | publication index now => exact h.publication index now
  | endLease => exact h.endLease
  | reject crc => exact h.reject crc

theorem Inv.run {s : Service} (h : Inv s) (ops : List Op) : Inv (machine.run s ops) :=
  machine.run_inv (fun _ op h => h.next op) s h ops

theorem next_identity {s : Service} (hi : Inv s) (op : Op) :
    (machine.next s op).identity = s.identity := by
  cases op with
  | handle request peer now =>
    obtain ⟨-, -, c1, -⟩ := handle_frame s request peer now
    obtain ⟨c2, -⟩ := effect_clock (assess_effect (hi.tick now) request peer now)
    exact c1.trans (c2.trans (tick_frame s now).2.2)
  | tick now => exact (tick_frame s now).2.2
  | publication index now =>
    have hp := publication_polled index (hi.tick now)
    show (s.publication index now).1.identity = s.identity
    generalize s.publication index now = r at hp
    cases hp with
    | silent => exact (tick_frame s now).2.2
    | sent => exact (tick_frame s now).2.2
  | endLease => exact (endLease_frame s).2.2.2.2
  | reject crc => exact (reject_frame s crc).2.2.2.2.1

theorem next_lastTime {s : Service} (hi : Inv s) (op : Op) :
    (machine.next s op).lastTime = op.time.getD s.lastTime := by
  cases op with
  | handle request peer now =>
    obtain ⟨-, -, -, c1, -⟩ := handle_frame s request peer now
    obtain ⟨-, c2, -⟩ := effect_clock (assess_effect (hi.tick now) request peer now)
    exact c1.trans (c2.trans (tick_frame s now).1)
  | tick now => exact (tick_frame s now).1
  | publication index now =>
    have hp := publication_polled index (hi.tick now)
    show (s.publication index now).1.lastTime = now
    generalize s.publication index now = r at hp
    cases hp with
    | silent => exact (tick_frame s now).1
    | sent => exact (tick_frame s now).1
  | endLease => exact (endLease_frame s).2.2.1
  | reject crc => exact (reject_frame s crc).2.2.2.1

end Service
end Nucleo.Benchmark
