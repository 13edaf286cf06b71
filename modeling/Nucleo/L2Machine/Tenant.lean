import Nucleo.Core.Holding
import Nucleo.L2Machine.ServiceSteps

/-!
# One tenant's lease as a holding

For a fixed peer and session, the service refines `Core.Holding`: the deadline
is the expiry of the tenant's lease, and a call at a clock that does not go
back waits, grants, extends, lapses or revokes (`next_follows`). Calls of
others only wait. `revokes` tells a lease that was ended from one that ran out.

A control reply with code 1 or 2 names a time the new state's lease lasts to
(`handle_promises`), so it is a promise in the sense of `Holding.Covers`.
-/
namespace Nucleo.Benchmark
namespace Service

/-- The expiry of the lease of `peer` and `session`. -/
def deadline (s : Service) (peer : Peer) (session : HString 16) : Option Nat :=
  s.lease.bind fun l => if l.peer = peer ∧ l.session = session then some l.expiry else none

/-- The call ends the lease of `peer` and `session` by `end()`, by a clock that
goes back, or by a stop. -/
def revokes (s : Service) (peer : Peer) (session : HString 16) : Op → Bool
  | .endLease => s.owner peer session
  | .reject _ => false
  | .tick now | .publication _ now => decide (now < s.lastTime) && s.owner peer session
  | .handle request p now => decide (now < s.lastTime) && s.owner peer session ||
      (s.tick now).owner peer session && (s.outcome request p now).code == some 3

/-- The service as the holding of `peer` and `session`. -/
def holdingOf (s : Service) (peer : Peer) (session : HString 16) (revoked : Bool) : Holding Nat :=
  ⟨s.lastTime, s.deadline peer session, revoked⟩

/-- A lease runs from the last reading for at most its length. -/
def Timed (s : Service) : Prop :=
  ∀ l, s.lease = some l → s.lastTime ≤ l.expiry ∧
    l.expiry ≤ satAdd64 s.lastTime l.configuration.leaseMicros

variable {peer : Peer} {session : HString 16}

theorem deadline_none {s : Service} (h : s.lease = none) : s.deadline peer session = none := by
  unfold deadline; rw [h]; rfl

theorem deadline_some {s : Service} {l : Lease} (h : s.lease = some l) :
    s.deadline peer session = if l.peer = peer ∧ l.session = session then some l.expiry else none := by
  unfold deadline; rw [h]; rfl

theorem deadline_eq_some {s : Service} {d : Nat} : s.deadline peer session = some d ↔
    ∃ l, s.lease = some l ∧ l.peer = peer ∧ l.session = session ∧ l.expiry = d := by
  cases hl : s.lease with
  | none => rw [deadline_none hl]; simp
  | some l =>
    rw [deadline_some hl]
    by_cases hp : l.peer = peer ∧ l.session = session
    · rw [if_pos hp]; simp [hp.1, hp.2]
    · rw [if_neg hp]
      simp only [reduceCtorEq, Option.some.injEq, false_iff, not_exists, not_and]
      rintro l' rfl h1 h2
      exact absurd ⟨h1, h2⟩ hp

theorem deadline_congr {s s' : Service} (h : s'.lease = s.lease) :
    s'.deadline peer session = s.deadline peer session := by
  unfold deadline; rw [h]

theorem owner_iff {s : Service} : s.owner peer session = true ↔
    ∃ l, s.lease = some l ∧ l.peer = peer ∧ l.session = session := by
  refine ⟨owner_true, fun ⟨l, hl, hp, hs⟩ => ?_⟩
  unfold owner
  rw [hl]
  simp [hp, hs]

theorem owner_of_deadline {s : Service} {d : Nat} (h : s.deadline peer session = some d) :
    s.owner peer session = true := by
  obtain ⟨l, hl, hp, hs, -⟩ := deadline_eq_some.1 h
  exact owner_iff.2 ⟨l, hl, hp, hs⟩

/-! ## Leases are timed -/

theorem Timed.of_lease {s s' : Service} (h : s.Timed) (hl : s'.lease = s.lease)
    (ht : s'.lastTime = s.lastTime) : s'.Timed := by
  unfold Timed
  rw [hl, ht]
  exact h

theorem Timed.of_none {s : Service} (h : s.lease = none) : s.Timed := fun l hl => by
  rw [h] at hl; cases hl

theorem Timed.tick {s : Service} (h : s.Timed) {now : Nat} (hnow : s.lastTime ≤ now) :
    (s.tick now).Timed := by
  intro l hl
  obtain ⟨-, hs, -, hlt⟩ := tick_lease_some hl
  have hle := (h l hs).2
  have hmono := satAdd64_mono l.configuration.leaseMicros hnow
  rw [(tick_frame s now).1]
  exact ⟨by omega, by omega⟩

/-- A lease that starts, or starts again, at a reading that fits a `u64`. -/
theorem timed_at {now length : Nat} (hmax : now ≤ u64Max) : now ≤ satAdd64 now length := by
  unfold satAdd64; omega

theorem Timed.effect {s : Service} (h : s.Timed) {request : Envelope} {p : Peer} {now : Nat}
    {r : Service × Outcome} (he : Effect s request p now r) (ht : s.lastTime = now)
    (hmax : now ≤ u64Max) : r.1.Timed := by
  cases he with
  | refused => exact h.of_lease (tenure_eq_iff.1 (reject_frame s false).1).1 (reject_frame s false).2.2.2.1
  | capabilities => exact h
  | probe => exact h.of_lease rfl rfl
  | duplicate => exact h
  | rejected => exact h.of_lease (tenure_eq_iff.1 (reject_frame s false).1).1 (reject_frame s false).2.2.2.1
  | acquired =>
    intro l hl
    cases hl
    exact ⟨by simp only [granted, ht]; exact timed_at hmax, by simp only [granted, ht]; exact Nat.le_refl _⟩
  | renewed =>
    intro l hl
    cases hl
    exact ⟨by simp only [renewed, ht]; exact timed_at hmax, by simp only [renewed, ht]; exact Nat.le_refl _⟩
  | stopped => exact .of_none (endLease_lease _)

theorem Timed.next {s : Service} (h : s.Timed) (hi : Inv s) {op : Op} (ht : Timely Op.time s.lastTime op)
    (hmax : ∀ now, op.time = some now → now ≤ u64Max) : (machine.next s op).Timed := by
  cases op with
  | handle request p now =>
    obtain ⟨c1, -, -, c4, -⟩ := handle_frame s request p now
    exact ((h.tick (ht now rfl)).effect (assess_effect (hi.tick now) request p now) (tick_frame s now).1
      (hmax now rfl)).of_lease (tenure_eq_iff.1 c1).1 c4
  | tick now => exact h.tick (ht now rfl)
  | publication index now =>
    have hp := publication_polled index (hi.tick now)
    show (s.publication index now).1.Timed
    generalize s.publication index now = r at hp
    cases hp with
    | silent => exact h.tick (ht now rfl)
    | sent => exact (h.tick (ht now rfl)).of_lease rfl rfl
  | endLease => exact .of_none (endLease_lease s)
  | reject crc => exact h.of_lease (tenure_eq_iff.1 (reject_frame s crc).1).1 (reject_frame s crc).2.2.2.1

/-! ## The service refines the holding -/

/-- A run of the holding from the one state to the other. -/
def Follows (h h' : Holding Nat) : Prop := ∃ es, (Holding.holding Nat).Run h es h'

theorem Follows.refl (h : Holding Nat) : Follows h h := ⟨[], .nil h⟩

theorem Follows.step {h h' : Holding Nat} {e : Holding.Event Nat} (hs : Holding.Step h e h') :
    Follows h h' := ⟨[e], .cons hs (.nil h')⟩

theorem Follows.trans {h h' h'' : Holding Nat} (h1 : Follows h h') (h2 : Follows h' h'') :
    Follows h h'' := by
  obtain ⟨es, h1⟩ := h1
  obtain ⟨es', h2⟩ := h2
  exact ⟨es ++ es', h1.append h2⟩

theorem follows_of_lease (peer : Peer) (session : HString 16) {s s' : Service} (hl : s'.lease = s.lease)
    (ht : s'.lastTime = s.lastTime) (b : Bool) : Follows (s.holdingOf peer session b) (s'.holdingOf peer session b) := by
  unfold holdingOf
  rw [deadline_congr hl, ht]
  exact .refl _

/-- Ending a lease revokes it, if it is the tenant's. -/
theorem endLease_follows (peer : Peer) (session : HString 16) {s s' : Service} (hl : s'.lease = none)
    (ht : s'.lastTime = s.lastTime) (b : Bool) :
    Follows (s.holdingOf peer session b) (s'.holdingOf peer session (b || s.owner peer session)) := by
  unfold holdingOf
  rw [deadline_none hl, ht]
  cases ho : s.owner peer session with
  | true =>
    rw [Bool.or_true]
    exact .step .revoke
  | false =>
    have hd : s.deadline peer session = none := by
      cases hd : s.deadline peer session with
      | none => rfl
      | some d => rw [owner_of_deadline hd] at ho; cases ho
    rw [Bool.or_false, hd]
    exact .refl _

/-- A tick waits, and lets an expired lease lapse. -/
theorem tick_follows (peer : Peer) (session : HString 16) (s : Service) {now : Nat} (hnow : s.lastTime ≤ now)
    (b : Bool) :
    Follows (s.holdingOf peer session b) ((s.tick now).holdingOf peer session b) := by
  have hwait : Follows (s.holdingOf peer session b) ⟨now, s.deadline peer session, b⟩ :=
    .step (.wait hnow)
  refine hwait.trans ?_
  unfold holdingOf
  rw [(tick_frame s now).1]
  cases hl : s.lapses now with
  | false =>
    rw [deadline_congr (tenure_eq_iff.1 (tick_stays hl)).1]
    exact .refl _
  | true =>
    rw [deadline_none (tick_ends hl)]
    cases hd : s.deadline peer session with
    | none => exact .refl _
    | some d =>
      obtain ⟨l, hs, -, -, rfl⟩ := deadline_eq_some.1 hd
      rw [lapses, hs] at hl
      simp only [Option.any_some, Bool.or_eq_true, decide_eq_true_eq] at hl
      exact .step (.lapse rfl (by simp only; omega))

/-- What `handle` does after its tick: a start grants, a renewal extends, a
stop revokes, and the rest is not seen. -/
theorem effect_follows (peer : Peer) (session : HString 16) {s : Service} (h : s.Timed) {request : Envelope}
    {p : Peer} {now : Nat} {r : Service × Outcome} (he : Effect s request p now r) (ht : s.lastTime = now) (b : Bool) :
    Follows (s.holdingOf peer session b)
      (r.1.holdingOf peer session (b || s.owner peer session && r.2.code == some 3)) := by
  have hreject := follows_of_lease peer session
    (tenure_eq_iff.1 (reject_frame s false).1).1 (reject_frame s false).2.2.2.1 b
  have hflag : ∀ o : Outcome, o.code ≠ some 3 → (b || s.owner peer session && o.code == some 3) = b := by
    intro o ho
    rw [beq_false_of_ne ho, Bool.and_false, Bool.or_false]
  cases he with
  | refused => rw [hflag _ (by simp)]; exact hreject
  | capabilities => rw [hflag _ (by simp)]; exact .refl _
  | probe => rw [hflag _ (by simp)]; exact follows_of_lease peer session rfl rfl b
  | duplicate => rw [hflag _ (by simp)]; exact .refl _
  | rejected ha hc => rw [hflag _ (by simp; omega)]; exact hreject
  | @acquired session' control config ha hk hl =>
    rw [hflag _ (by simp)]
    unfold holdingOf
    rw [deadline_none hl, deadline_some rfl]
    split
    · exact .step (.grant rfl)
    · exact .refl _
  | @renewed l control ha hk hl =>
    rw [hflag _ (by simp)]
    unfold holdingOf
    rw [deadline_some hl, deadline_some rfl]
    simp only
    split
    · refine .step (.extend rfl ?_)
      rw [← ht]
      exact (h l hl).2
    · exact .refl _
  | stopped =>
    have hend := endLease_follows peer session (show s.stopped.lease = none from endLease_lease _)
      (show s.stopped.lastTime = s.lastTime from (endLease_frame _).2.2.1) b
    simpa using hend

/-- **Refinement.** A call at a clock that does not go back is a run of the
tenant's holding. -/
theorem next_follows (peer : Peer) (session : HString 16) {s : Service} (h : s.Timed) (hi : Inv s) {op : Op}
    (ht : Timely Op.time s.lastTime op) (b : Bool) :
    Follows (s.holdingOf peer session b)
      ((machine.next s op).holdingOf peer session (b || s.revokes peer session op)) := by
  cases op with
  | handle request p now =>
    have hle : s.lastTime ≤ now := ht now rfl
    obtain ⟨c1, -, -, c4, -⟩ := handle_frame s request p now
    have htick := tick_follows peer session s hle b
    have heffect := effect_follows peer session (h.tick hle)
      (assess_effect (hi.tick now) request p now) (tick_frame s now).1 b
    have hspend := follows_of_lease peer session (tenure_eq_iff.1 c1).1 c4
      (b || s.revokes peer session (.handle request p now))
    have hflag : s.revokes peer session (.handle request p now) =
        ((s.tick now).owner peer session && (s.outcome request p now).code == some 3) := by
      show (decide (now < s.lastTime) && s.owner peer session || _) = _
      rw [decide_eq_false (by omega), Bool.false_and, Bool.false_or]
    rw [hflag] at hspend ⊢
    exact htick.trans (heffect.trans hspend)
  | tick now =>
    have hle : s.lastTime ≤ now := ht now rfl
    rw [show s.revokes peer session (.tick now) = false by simp [revokes]; omega, Bool.or_false]
    exact tick_follows peer session s hle b
  | publication index now =>
    have hle : s.lastTime ≤ now := ht now rfl
    rw [show s.revokes peer session (.publication index now) = false by simp [revokes]; omega, Bool.or_false]
    have hp := publication_polled index (hi.tick now)
    show Follows _ ((s.publication index now).1.holdingOf peer session b)
    generalize s.publication index now = r at hp
    cases hp with
    | silent => exact tick_follows peer session s hle b
    | sent => exact (tick_follows peer session s hle b).trans (follows_of_lease peer session rfl rfl b)
  | endLease => exact endLease_follows peer session (endLease_lease s) (endLease_frame s).2.2.1 b
  | reject crc =>
    rw [show s.revokes peer session (.reject crc) = false from rfl, Bool.or_false]
    exact follows_of_lease peer session (tenure_eq_iff.1 (reject_frame s crc).1).1 (reject_frame s crc).2.2.2.1 b

/-! ## Replies are promises -/

/-- The remaining time of a reply does not reach past the expiry. -/
theorem remaining_le {s : Service} {l : Lease} (hl : s.lease = some l) (request : Envelope) (p : Peer)
    (session : HString 16) {now : Nat} (hnow : now ≤ l.expiry) :
    now + (s.remaining request p session now).toNat * 1000 ≤ l.expiry := by
  have hmod : ∀ n : Nat, (UInt32.ofNat n).toNat ≤ n := fun n => by
    rw [toNat_ofNat32]; exact Nat.mod_le _ _
  unfold remaining
  rw [hl]
  simp only
  split
  · have := hmod ((l.expiry - now) / 1000)
    omega
  · simpa using hnow

/-- A reply to a control: the request it answers, and the time that codes 1 and
2 name. -/
structure Promises (s : Service) (request : Envelope) (p : Peer) (now : Nat) (reply : Envelope) : Prop where
  session : reply.sessionId = request.sessionId
  id : reply.requestId = request.requestId
  kind : request.kind ≠ some 1 ∧ request.kind ≠ some 5
  lasts : ∀ r ms, reply.result = some r → r.code = some 1 ∨ r.code = some 2 →
    r.leaseRemainingMs = some ms → ∀ session, reply.sessionId = some session →
      ∃ d, s.deadline p session = some d ∧ now + ms.toNat * 1000 ≤ d

theorem effect_promises {s : Service} (hf : s.Timed) {request : Envelope} {p : Peer} {now : Nat}
    {s' : Service} {code : Int} {reply : Envelope}
    (he : Effect s request p now (s', .control code reply)) (ht : s.lastTime = now) (hmax : now ≤ u64Max) :
    Promises s' request p now reply := by
  have hkind : ∀ {session : HString 16} {control : Control}, Asks request session control →
      request.kind ≠ some 1 ∧ request.kind ≠ some 5 := by
    intro session control ha
    have := ha.range
    rw [ha.kind]
    simp only [ne_eq, Option.some.injEq]
    omega
  -- a lease of the requester in the state the reply is made from
  have hlasts : ∀ (s₁ : Service) (l : Lease) (code : Int) (id : UInt32), s₁.lease = some l → l.peer = p →
      now ≤ l.expiry → ∀ r ms,
      (s₁.controlReply request p l.session id code now).result = some r → r.code = some 1 ∨ r.code = some 2 →
      r.leaseRemainingMs = some ms → ∀ session,
      (s₁.controlReply request p l.session id code now).sessionId = some session →
      ∃ d, s₁.deadline p session = some d ∧ now + ms.toNat * 1000 ≤ d := by
    intro s₁ l code id hl hp hnow r ms hr _ hms session hs
    cases hr
    cases hms
    cases hs
    exact ⟨l.expiry, deadline_eq_some.2 ⟨l, hl, hp, rfl, rfl⟩, remaining_le hl request p l.session hnow⟩
  -- a reply whose code is neither 1 nor 2
  have hother : ∀ {s₁ : Service} {session' : HString 16} {id : UInt32} {code : Int}, 3 ≤ code → ∀ r ms,
      (s₁.controlReply request p session' id code now).result = some r → r.code = some 1 ∨ r.code = some 2 →
      r.leaseRemainingMs = some ms → ∀ session,
      (s₁.controlReply request p session' id code now).sessionId = some session →
      ∃ d, s'.deadline p session = some d ∧ now + ms.toNat * 1000 ≤ d := by
    intro s₁ session' id code hc r ms hr hcode
    cases hr
    simp only [Option.some.injEq] at hcode
    omega
  cases he with
  | @duplicate l control ha hl hp =>
    exact ⟨ha.session.symm, ha.id.symm, hkind ha, hlasts s l 2 control.id hl hp (ht ▸ (hf l hl).1)⟩
  | rejected ha hc => exact ⟨ha.session.symm, ha.id.symm, hkind ha, hother (by omega)⟩
  | @acquired session control config ha =>
    exact ⟨ha.session.symm, ha.id.symm, hkind ha,
      hlasts (s.granted p session config control now) _ 1 control.id rfl rfl (timed_at hmax)⟩
  | @renewed l control ha _ hl hp =>
    exact ⟨ha.session.symm, ha.id.symm, hkind ha,
      hlasts (s.renewed l control now)
        { l with last := control, expiry := satAdd64 now l.configuration.leaseMicros } 1 control.id rfl hp
        (timed_at hmax)⟩
  | stopped ha => exact ⟨ha.session.symm, ha.id.symm, hkind ha, hother (by decide)⟩

/-- **Every control reply keeps its promise when it is made.** -/
theorem handle_promises {s : Service} (hi : Inv s) (hf : s.Timed) {request reply : Envelope} {p : Peer}
    {now : Nat} (ht : s.lastTime ≤ now) (hmax : now ≤ u64Max)
    (hr : (s.handle request p now).2 = some reply) (hk : reply.kind = some 12) :
    Promises (s.handle request p now).1 request p now reply := by
  have he := assess_effect (hi.tick now) request p now
  obtain ⟨c1, -⟩ := handle_frame s request p now
  have hlease := (tenure_eq_iff.1 c1).1
  have hspend : ∀ (s₁ : Service) (out : Envelope), (s₁.spend out).2 = some reply → out = reply := by
    intro s₁ out h
    unfold spend at h
    split at h
    · cases h
    · cases h; rfl
  unfold handle at hr
  generalize (s.tick now).assess request p now = r at he hr hlease
  obtain ⟨s', o⟩ := r
  cases o with
  | none => cases hr
  | probe out =>
    cases hr
    cases he
    cases hk
  | capabilities out =>
    cases hspend _ _ hr
    cases he
    cases hk
  | control code out =>
    cases hspend _ _ hr
    obtain ⟨h1, h2, h3, h4⟩ := effect_promises (hf.tick ht) he (tick_frame s now).1 hmax
    refine ⟨h1, h2, h3, fun r ms hres hcode hms session hs => ?_⟩
    rw [deadline_congr hlease]
    exact h4 r ms hres hcode hms session hs

end Service
end Nucleo.Benchmark
