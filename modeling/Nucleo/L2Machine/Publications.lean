import Nucleo.Core.Slots
import Nucleo.L2Machine.ServiceSteps

/-!
# Publications on schedule

`Log` is what an observer of a run writes down: when the current lease was
acquired, with which configuration, and the slot of every publication since.
`Scheduled` says that the service agrees with it although it stores no slot:
a stream is due at the slot after its last one, its sequence number is that
slot's, and the skipped counter is the slots that passed without a message.
Only an acquisition and a poll of the stream itself move a stream.

`publications_on_schedule` is the contract over every run whose readings do
not go back and stay clear of the end of `u64`.
-/
namespace Nucleo.Benchmark
namespace Service

open Slots

/-! ## The log of a lease -/

structure Log where
  start : Nat
  configuration : Configuration
  /-- stream and slot of each publication, newest first -/
  sent : List (Nat × Nat)

namespace Log

/-- The slots published on stream `index`, newest first. -/
def slots (g : Log) (index : Nat) : List Nat := (g.sent.filter (·.1 == index)).map (·.2)

/-- The last slot used on stream `index`. -/
def used (g : Log) (index : Nat) : Nat := (g.slots index).headD 0

def period (g : Log) (index : Nat) : Nat := (g.configuration.period index).toNat

def publish (g : Log) (index now : Nat) : Log :=
  { g with sent := (index, newest g.start (g.period index) now) :: g.sent }

/-- What one call adds: an accepted configure starts a log, a message is noted. -/
def next (g : Log) (s : Service) : Op → Log
  | .handle request peer now =>
    if request.kind = some 2 ∧ (s.outcome request peer now).code = some 1 then
      ⟨now, request.configure.getD {}, []⟩
    else g
  | .publication index now =>
    if (s.publication index now).2.isSome then g.publish index now else g
  | _ => g

@[simp] theorem slots_publish_self (g : Log) (index now : Nat) :
    (g.publish index now).slots index = newest g.start (g.period index) now :: g.slots index := by
  simp [publish, slots]

theorem slots_publish_other (g : Log) {index i : Nat} (h : index ≠ i) (now : Nat) :
    (g.publish index now).slots i = g.slots i := by
  simp [publish, slots, h]

end Log

/-- The log of a run. -/
def log (s : Service) (ops : List Op) : Log :=
  (machine.trace s ops).foldl (fun g e => g.next e.1 e.2.1) ⟨0, {}, []⟩

/-! ## The schedule agrees with the log -/

structure Scheduled (s : Service) (g : Log) : Prop where
  lease : ∀ l, s.lease = some l → l.configuration = g.configuration ∧ g.start ≤ s.lastTime
  streams : ∀ l, s.lease = some l → ∀ i (h : i < 2), 0 < g.period i →
    s.schedules[i].due = slot g.start (g.period i) (g.used i + 1) ∧
    s.schedules[i].sequence = UInt32.ofNat (g.used i)
  sorted : ∀ i, (g.slots i).Pairwise (· > ·)
  total : g.sent.length ≤ g.used 0 + g.used 1
  skipped : s.counters.skipped.toNat = min (g.used 0 + g.used 1 - g.sent.length) u32Max

theorem Scheduled.new (device : HString 32) (boot : HString 16) (format : Format) (crc : CrcMode)
    (now : Nat) : Scheduled (new device boot format crc now) ⟨0, {}, []⟩ where
  lease _ h := by cases h
  streams _ h := by cases h
  sorted _ := .nil
  total := Nat.le_refl _
  skipped := rfl

/-- Calls that leave schedules and skip count alone, or drop the lease. -/
theorem Scheduled.keep {s s' : Service} {g : Log} (h : Scheduled s g)
    (hl : ∀ l', s'.lease = some l' → ∃ l, s.lease = some l ∧ l'.configuration = l.configuration ∧
      s'.schedules = s.schedules)
    (ht : s.lastTime ≤ s'.lastTime) (hc : s'.counters.skipped = s.counters.skipped) :
    Scheduled s' g where
  lease l' h' := by
    obtain ⟨l, h1, h2, -⟩ := hl l' h'
    obtain ⟨h3, h4⟩ := h.lease l h1
    exact ⟨h2.trans h3, Nat.le_trans h4 ht⟩
  streams l' h' i hi hp := by
    obtain ⟨l, h1, -, h2⟩ := hl l' h'
    rw [h2]
    exact h.streams l h1 i hi hp
  sorted := h.sorted
  total := h.total
  skipped := hc ▸ h.skipped

theorem Scheduled.of_tenure {s s' : Service} {g : Log} (h : Scheduled s g) (hten : s'.tenure = s.tenure)
    (ht : s.lastTime ≤ s'.lastTime) (hc : s'.counters.skipped = s.counters.skipped) :
    Scheduled s' g := by
  obtain ⟨h1, h2, -, -⟩ := tenure_eq_iff.1 hten
  exact h.keep (fun l hl => ⟨l, h1 ▸ hl, rfl, h2⟩) ht hc

theorem Scheduled.tick {s : Service} {g : Log} (h : Scheduled s g) {now : Nat} (hn : s.lastTime ≤ now) :
    Scheduled (s.tick now) g := by
  obtain ⟨h1, h2, -⟩ := tick_frame s now
  refine h.keep (fun l hl => ?_) (h1.symm ▸ hn) (by rw [h2])
  obtain ⟨ht, hs, -⟩ := tick_lease_some hl
  exact ⟨l, hs, rfl, (tenure_eq_iff.1 ht).2.1⟩

theorem Scheduled.endLease {s : Service} {g : Log} (h : Scheduled s g) : Scheduled s.endLease g := by
  obtain ⟨-, -, h1, h2, -⟩ := endLease_frame s
  refine h.keep (fun l hl => ?_) (Nat.le_of_eq h1.symm) (by rw [h2])
  rw [endLease_lease] at hl; cases hl

/-- An accepted configure starts both streams at their first slot. -/
theorem Scheduled.granted {s : Service} (peer : Peer) (session : HString 16) {config : Configuration}
    (control : Control) {now : Nat} (hv : configurationValid config = true) (ht : s.lastTime = now)
    (hsat : now + 30000000 ≤ u64Max) :
    Scheduled (s.granted peer session config control now) ⟨now, config, []⟩ where
  lease l h := by cases h; exact ⟨rfl, Nat.le_of_eq ht.symm⟩
  streams l h i hi _ := by
    have hp := period_le hv i
    match i, hi with
    | 0, _ => exact ⟨(satAdd64_eq (by omega)).trans (by simp [slot, Log.used, Log.slots, Log.period]), rfl⟩
    | 1, _ => exact ⟨(satAdd64_eq (by omega)).trans (by simp [slot, Log.used, Log.slots, Log.period]), rfl⟩
  sorted _ := .nil
  total := Nat.le_refl _
  skipped := rfl

/-- **One request.** -/
theorem Scheduled.effect {s : Service} {g : Log} (h : Scheduled s g) {request : Envelope} {peer : Peer}
    {now : Nat} (ht : s.lastTime = now) (hsat : now + 30000000 ≤ u64Max) {r : Service × Outcome}
    (he : Effect s request peer now r) :
    Scheduled r.1 (if request.kind = some 2 ∧ r.2.code = some 1 then
      ⟨now, request.configure.getD {}, []⟩ else g) := by
  have hkind : ∀ {k : Int}, request.kind = some k → k ≠ 2 → ∀ c : Option Int,
      ¬ (request.kind = some 2 ∧ c = some 1) := by
    rintro k hk hne c ⟨h2, -⟩
    rw [hk] at h2; exact hne (Option.some.inj h2)
  cases he with
  | refused =>
    rw [if_neg (by simp)]
    obtain ⟨h1, -, -, h2, -, -, h3⟩ := reject_frame s false
    exact h.of_tenure h1 (Nat.le_of_eq h2.symm) h3
  | capabilities => rw [if_neg (by simp)]; exact h
  | probe => rw [if_neg (by simp)]; exact h.of_tenure rfl (Nat.le_refl _) rfl
  | duplicate => rw [if_neg (by simp)]; exact h
  | rejected ha hc =>
    rw [if_neg (by simp only [Outcome.code_control, Option.some.injEq]; omega)]
    obtain ⟨h1, -, -, h2, -, -, h3⟩ := reject_frame s false
    exact h.of_tenure h1 (Nat.le_of_eq h2.symm) h3
  | acquired ha hk hl hx hep hc hv =>
    rw [if_pos ⟨by rw [ha.kind, hk], rfl⟩, hc]
    exact .granted peer _ _ hv ht hsat
  | @renewed l control ha hk hl =>
    rw [if_neg (hkind ha.kind (by omega) _)]
    exact h.keep (fun l' hl' => ⟨l, hl, by cases hl'; rfl, rfl⟩) (Nat.le_refl _) rfl
  | stopped =>
    rw [if_neg (by simp)]
    exact Scheduled.endLease (s := s.counted) (h.of_tenure rfl (Nat.le_refl _) rfl)

theorem le_headD {l : List Nat} (h : l.Pairwise (· > ·)) : ∀ x ∈ l, x ≤ l.headD 0 := by
  cases h with
  | nil => nofun
  | cons ha _ =>
    intro x hx
    rcases List.mem_cons.1 hx with rfl | hx
    · exact Nat.le_refl _
    · exact Nat.le_of_lt (ha x hx)

/-- What a due poll does to its stream: slot `newest` is used next. -/
theorem advance_eq {p : Publication} {start now used : Nat} (hp : 0 < p.period.toNat)
    (hs : start ≤ now) (hdue : p.due = slot start p.period.toNat (used + 1))
    (hseq : p.sequence = UInt32.ofNat used) (hd : p.due ≤ now)
    (hsat : now + p.period.toNat ≤ u64Max) :
    let k := newest start p.period.toNat now
    (p.advance now).1.due = slot start p.period.toNat (k + 1) ∧
      (p.advance now).1.sequence = UInt32.ofNat k ∧ (p.advance now).1.period = p.period ∧
      (p.advance now).2 = (UInt32.ofNat (k - 1), k - (used + 1)) := by
  intro k
  rw [hdue] at hd
  have hk : used + 1 ≤ k := (slot_le_iff hp hs).1 hd
  have hpass := passed_eq hp hs hd
  have hnext := next_due hp hs hd
  have hadd : UInt32.ofNat used + UInt32.ofNat (k - (used + 1)) = UInt32.ofNat (k - 1) := by
    rw [← UInt32.ofNat_add]; congr 1; omega
  have key : p.advance now = (⟨satAdd64 now (p.period.toNat - (now - slot start p.period.toNat (used + 1)) %
      p.period.toNat), p.period, UInt32.ofNat (k - 1) + 1⟩, UInt32.ofNat (k - 1), k - (used + 1)) := by
    simp only [Publication.advance, hdue, hseq, hpass]
    rw [show newest start p.period.toNat now = k from rfl, hadd]
  rw [key]
  refine ⟨(satAdd64_eq (by omega)).trans hnext, ?_, rfl, rfl⟩
  show UInt32.ofNat (k - 1) + UInt32.ofNat 1 = UInt32.ofNat k
  rw [← UInt32.ofNat_add]
  congr 1; omega

/-- **One poll.** A message uses the newest slot of its stream. -/
theorem Scheduled.polled {s : Service} {g : Log} (hi : Inv s) (h : Scheduled s g) {index now : Nat}
    (ht : s.lastTime = now) (hsat : now + 30000000 ≤ u64Max) {r : Service × Option Envelope}
    (hp : Polled s index now r) : Scheduled r.1 (if r.2.isSome then g.publish index now else g) := by
  cases hp with
  | silent => exact h
  | @sent l hl hx hne hd payload _ =>
    obtain ⟨hconf, hstart⟩ := h.lease l hl
    have hper : s.schedules[index].period.toNat = g.period index := by
      rw [hi.periods l hl index hx, hconf]; rfl
    have hpos : 0 < s.schedules[index].period.toNat :=
      Nat.pos_of_ne_zero fun e => hne (UInt32.toNat_inj.mp e)
    have hbound : g.period index ≤ 10000000 := by
      have := period_le (hi.valid l hl) index
      rw [hconf] at this; exact this
    obtain ⟨hdue, hseq⟩ := h.streams l hl index hx (hper ▸ hpos)
    rw [← hper] at hdue
    obtain ⟨a1, a2, a3, a4⟩ := advance_eq hpos (by omega) hdue hseq hd (by omega)
    have hk : g.used index + 1 ≤ newest g.start (g.period index) now := by
      rw [hdue] at hd
      rw [← hper]
      exact (slot_le_iff hpos (by omega)).1 hd
    rw [hper] at a1 a2 a4
    have hself : (g.publish index now).used index = newest g.start (g.period index) now := by
      rw [Log.used, Log.slots_publish_self]; rfl
    have hother : ∀ i, index ≠ i → (g.publish index now).used i = g.used i := fun i hne => by
      rw [Log.used, Log.slots_publish_other g hne]; rfl
    have hsum : (g.publish index now).used 0 + (g.publish index now).used 1 + g.used index =
        g.used 0 + g.used 1 + newest g.start (g.period index) now := by
      match index, hx with
      | 0, _ => rw [hself, hother 1 (by decide)]; omega
      | 1, _ => rw [hself, hother 0 (by decide)]; omega
    have htot := h.total
    have hlen : (g.publish index now).sent.length = g.sent.length + 1 := rfl
    refine ⟨h.lease, fun l' hl' i hi' hp' => ?_, fun i => ?_, ?_, ?_⟩
    · by_cases e : index = i
      · subst e
        simp only [Option.isSome_some, if_true] at hp' ⊢
        rw [hself]
        simp only [advanced, Vector.getElem_set_self]
        exact ⟨a1, a2⟩
      · simp only [Option.isSome_some, if_true] at hp' ⊢
        rw [hother i e]
        simp only [advanced, Vector.getElem_set_ne hx hi' e]
        exact h.streams l hl i hi' hp'
    · simp only [Option.isSome_some, if_true]
      by_cases e : index = i
      · subst e
        rw [Log.slots_publish_self]
        refine .cons (fun x hx => ?_) (h.sorted index)
        exact Nat.lt_of_le_of_lt (le_headD (h.sorted index) x hx) hk
      · rw [Log.slots_publish_other g e]; exact h.sorted i
    · simp only [Option.isSome_some, if_true]; omega
    · simp only [Option.isSome_some, if_true]
      simp only [advanced, toNat_skip, h.skipped, a4]
      omega

/-- **One call.** -/
theorem Scheduled.next {s : Service} {g : Log} (hi : Inv s) (h : Scheduled s g) {op : Op}
    (ht : Timely Op.time s.lastTime op)
    (hsat : ∀ now, op.time = some now → now + 30000000 ≤ u64Max) :
    Scheduled (machine.next s op) (g.next s op) := by
  cases op with
  | tick now => exact h.tick (ht now rfl)
  | endLease => exact h.endLease
  | reject crc =>
    obtain ⟨h1, -, -, h2, -, -, h3⟩ := reject_frame s crc
    exact h.of_tenure h1 (Nat.le_of_eq h2.symm) h3
  | publication index now =>
    exact (h.tick (ht now rfl)).polled (hi.tick now) (tick_frame s now).1 (hsat now rfl)
      (publication_polled index (hi.tick now))
  | handle request peer now =>
    have he := assess_effect (hi.tick now) request peer now
    have := (h.tick (ht now rfl)).effect (tick_frame s now).1 (hsat now rfl) he
    obtain ⟨f1, f2, -, f3, -⟩ := handle_frame s request peer now
    exact this.of_tenure f1 (Nat.le_of_eq f3.symm) (congrArg Counters.skipped f2)

/-- The readings of `ops` leave room for a lease before the end of `u64`. -/
def Unsaturated (ops : List Op) : Prop := ∀ op ∈ ops, ∀ now, op.time = some now → now + 30000000 ≤ u64Max

instance (ops : List Op) : Decidable (Unsaturated ops) :=
  decidable_of_iff (∀ op ∈ ops, op.time.all (· + 30000000 ≤ u64Max) = true) (by
    unfold Unsaturated
    refine forall_congr' fun op => forall_congr' fun _ => ?_
    cases op.time with
    | none => exact ⟨fun _ _ h => (by cases h), fun _ => rfl⟩
    | some now =>
      rw [Option.all_some, decide_eq_true_eq]
      exact ⟨fun h _ e => Option.some.inj e ▸ h, fun h => h now rfl⟩)

/-- **Whole runs.** -/
theorem Scheduled.run {s : Service} {g : Log} (hi : Inv s) (h : Scheduled s g) {ops : List Op}
    (hm : Mono Op.time s.lastTime ops) (hsat : Unsaturated ops) :
    Scheduled (machine.run s ops) ((machine.trace s ops).foldl (fun g e => g.next e.1 e.2.1) g) := by
  induction ops generalizing s g with
  | nil => exact h
  | cons op ops ih =>
    obtain ⟨ht, hm⟩ := mono_cons.1 hm
    rw [← next_lastTime hi op] at hm
    exact ih (hi.next op) (h.next hi ht (hsat op List.mem_cons_self)) hm
      fun o ho => hsat o (List.mem_cons_of_mem _ ho)

/-! ## What moves a stream -/

/-- A request that leaves a lease left its schedules, or has just acquired it. -/
theorem effect_schedule {s : Service} {request : Envelope} {peer : Peer} {now : Nat}
    {r : Service × Outcome} (he : Effect s request peer now r) (hl : r.1.lease.isSome) :
    (s.lease.isSome ∧ r.1.schedules = s.schedules) ∨
      (s.lease = none ∧ s.exhausted = false ∧ r.1.epoch = s.epoch) := by
  cases he with
  | refused =>
    obtain ⟨h1, h2, -⟩ := tenure_eq_iff.1 (reject_frame s false).1
    exact .inl ⟨h1 ▸ hl, h2⟩
  | rejected =>
    obtain ⟨h1, h2, -⟩ := tenure_eq_iff.1 (reject_frame s false).1
    exact .inl ⟨h1 ▸ hl, h2⟩
  | capabilities => exact .inl ⟨hl, rfl⟩
  | probe => exact .inl ⟨hl, rfl⟩
  | duplicate => exact .inl ⟨hl, rfl⟩
  | renewed _ _ hs => exact .inl ⟨by rw [hs]; rfl, rfl⟩
  | stopped => rw [stopped, endLease_lease] at hl; cases hl
  | acquired _ _ hn hx => exact .inr ⟨hn, hx, rfl⟩

/-- A tick that leaves the epoch and ends the lease has exhausted the service. -/
theorem tick_same_epoch {s : Service} {now : Nat} (hl : s.lease.isSome)
    (he : (s.tick now).epoch = s.epoch) (hn : (s.tick now).lease = none) :
    (s.tick now).exhausted = true := by
  obtain ⟨l, hl⟩ := Option.isSome_iff_exists.1 hl
  have ht := tick_tenure s now
  split at ht
  · obtain ⟨-, -, h3, h4⟩ := tenure_eq_iff.1 ht
    rcases endLease_some hl with ⟨hne, h⟩ | ⟨-, h⟩
    · have h5 : s.endLease.epoch = s.epoch + 1 := congrArg Tenure.epoch h
      have hstep := toNat_succ32 hne
      rw [← h5, ← h3, he] at hstep
      omega
    · exact h4.trans (congrArg Tenure.exhausted h)
  · rw [(tenure_eq_iff.1 ht).1, hl] at hn; cases hn

/-- Within a lease, only a poll of the stream itself touches its schedule. -/
theorem schedule_frame {s : Service} (hi : Inv s) {op : Op} {index : Nat} (hx : index < 2)
    (hop : ∀ now, op ≠ .publication index now) (hl : s.lease.isSome)
    (hl' : (machine.next s op).lease.isSome) (he : (machine.next s op).epoch = s.epoch) :
    (machine.next s op).schedules[index] = s.schedules[index] := by
  have htick : ∀ now, (s.tick now).lease.isSome → (s.tick now).schedules = s.schedules := by
    intro now h
    obtain ⟨l, hl⟩ := Option.isSome_iff_exists.1 h
    exact (tenure_eq_iff.1 (tick_lease_some hl).1).2.1
  have hget : ∀ {v w : Vector Publication 2}, v = w → v[index] = w[index] := by rintro v w rfl; rfl
  cases op with
  | tick now => exact hget (htick now hl')
  | endLease =>
    have hn := endLease_lease s
    rw [show s.endLease = machine.next s .endLease from rfl] at hn
    rw [hn] at hl'; cases hl'
  | reject crc => exact hget (tenure_eq_iff.1 (reject_frame s crc).1).2.1
  | publication i now =>
    obtain ⟨h1, h2⟩ := polled_schedule (publication_polled i (hi.tick now)) hx
      fun e => hop now (by rw [e])
    exact h2.trans (hget (htick now (h1 ▸ hl')))
  | handle request peer now =>
    obtain ⟨f1, f2, f3, -⟩ := tenure_eq_iff.1 (handle_frame s request peer now).1
    have hE := assess_effect (hi.tick now) request peer now
    rcases effect_schedule hE (f1 ▸ hl') with ⟨h1, h2⟩ | ⟨hn, hx', hep⟩
    · exact hget (f2.trans (h2.trans (htick now h1)))
    · -- an acquisition needs the old lease gone, and then the epoch has moved
      have := tick_same_epoch hl ((f3.trans hep).symm.trans he) hn
      rw [this] at hx'; cases hx'

/-! ## The contract -/

/-- **Publications over whole runs.** After any run, for a poll at any later
reading: a message is only returned before the expiry of the lease held, with
its session and epoch; it is returned exactly when an unused slot of the stream
has come, carries the newest slot's sequence number and moves the due time to
the slot after. No slot is used twice, the skipped counter is the number of
slots that passed without a message, and nothing but its own polls moves a
stream during a lease. -/
theorem publications_on_schedule (device : HString 32) (boot : HString 16) (format : Format)
    (crc : CrcMode) (start : Nat) (ops : List Op) (hm : Mono Op.time start ops)
    (hsat : Unsaturated ops) :
    let s := machine.run (new device boot format crc start) ops
    let g := log (new device boot format crc start) ops
    (∀ index now, s.lastTime ≤ now → now + 30000000 ≤ u64Max →
      let r := s.publication index now
      (∀ m, r.2 = some m → ∃ l, s.lease = some l ∧ now < l.expiry ∧
        m.sessionId = some l.session ∧ m.runEpoch = some s.epoch) ∧
      (∀ l, s.lease = some l → now < l.expiry → ∀ h : index < 2, 0 < (l.configuration.period index).toNat →
        let p := (l.configuration.period index).toNat
        let k := newest g.start p now
        (r.2.isSome ↔ ∃ j, g.used index < j ∧ slot g.start p j ≤ now) ∧
        ∀ m, r.2 = some m → m.sequence = some (UInt32.ofNat (k - 1)) ∧
          r.1.schedules[index].due = slot g.start p (k + 1))) ∧
    (∀ index, (g.slots index).Pairwise (· > ·)) ∧
    (g.sent.length ≤ g.used 0 + g.used 1 ∧
      s.counters.skipped.toNat = min (g.used 0 + g.used 1 - g.sent.length) u32Max) ∧
    (∀ op index, ∀ h : index < 2, (∀ now, op ≠ .publication index now) → s.lease.isSome →
      (machine.next s op).lease.isSome → (machine.next s op).epoch = s.epoch →
      (machine.next s op).schedules[index] = s.schedules[index]) := by
  intro s g
  have h0 := Inv.new device boot format crc start
  have hi : Inv s := h0.run ops
  have hsch : Scheduled s g := Scheduled.run h0 (.new device boot format crc start) hm hsat
  refine ⟨fun index now hn hs => ?_, hsch.sorted, ⟨hsch.total, hsch.skipped⟩,
    fun op index h hop hl hl' he => schedule_frame hi h hop hl hl' he⟩
  have hp := publication_polled index (hi.tick now)
  have ht := hsch.tick hn
  intro r
  refine ⟨fun m hm => ?_, fun l hl hlt hx hpos => ?_⟩
  · change Polled _ _ _ r at hp
    generalize r = r at hp hm
    cases hp with
    | silent => cases hm
    | sent hl =>
      cases hm
      obtain ⟨hten, hs', -, hlt⟩ := tick_lease_some hl
      refine ⟨_, hs', hlt, ?_, ?_⟩
      · unfold sample; split <;> rfl
      · rw [← (tenure_eq_iff.1 hten).2.2.1]
        unfold sample; split <;> rfl
  · -- the tick leaves the lease, so the stream is due at the slot after the last used
    intro p k
    have hkeep : s.lapses now = false := by
      unfold lapses
      rw [hl, decide_eq_false (by omega : ¬ now < s.lastTime)]
      simpa using hlt
    have hl' : (s.tick now).lease = some l := (tenure_eq_iff.1 (tick_stays hkeep)).1.trans hl
    obtain ⟨hconf, hstart⟩ := ht.lease l hl'
    rw [(tick_frame s now).1] at hstart
    have hgp : g.period index = p := by rw [Log.period, ← hconf]
    have hper : (s.tick now).schedules[index].period.toNat = p := by
      rw [(hi.tick now).periods l hl' index hx]
    obtain ⟨hdue, hseq⟩ := ht.streams l hl' index hx (hgp ▸ hpos)
    rw [hgp] at hdue
    have hbound : p ≤ 10000000 := period_le (hi.valid l hl) index
    rw [exists_slot_iff, ← hdue]
    change Polled _ _ _ r at hp
    generalize r = r at hp
    cases hp with
    | silent h =>
      refine ⟨⟨by simp, fun hd => absurd ⟨hx, by rw [hl']; rfl, fun e => ?_, hd⟩ h⟩, by simp⟩
      rw [e] at hper
      exact absurd hper (Nat.ne_of_lt hpos)
    | sent hl _ hne hd =>
      obtain ⟨a1, -, -, a4⟩ := advance_eq (hper.symm ▸ hpos) hstart (hper.symm ▸ hdue) hseq hd (by omega)
      rw [hper] at a1 a4
      refine ⟨⟨fun _ => hd, fun _ => rfl⟩, fun m hm => ?_⟩
      cases hm
      refine ⟨?_, ?_⟩
      · rw [a4]; unfold sample; split <;> rfl
      · simp only [advanced, Vector.getElem_set_self]; exact a1

/-- A lease of 2 s with 1 ms and 10 ms streams, polled late once. -/
theorem publications_on_schedule_run :
    let ops := [Op.handle (Sample.configure 1 1) Sample.peer 0, .publication 0 3500,
      .publication 1 10000]
    (log Sample.service ops).sent = [(1, 1), (0, 3)] ∧
      ((machine.run Sample.service ops).counters.skipped.toNat =
        min ((log Sample.service ops).used 0 + (log Sample.service ops).used 1 -
          (log Sample.service ops).sent.length) u32Max) :=
  ⟨by decide +kernel, (publications_on_schedule _ _ _ _ 0 _ (by decide) (by decide)).2.2.1.2⟩

end Service
end Nucleo.Benchmark
