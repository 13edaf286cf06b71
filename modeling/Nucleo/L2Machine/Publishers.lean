import Nucleo.Core.Slots
import Nucleo.L2Machine.Service

/-!
# Publishing on a schedule

`Schedule` is the publication schedule of the normal protocol: due at the slot
after the last one used, it hands out at most the newest slot and says how many
it skipped. `Publisher` is a loop driven by it, its counters shared with the
other loops: `Event` is what the loop meets next, a counter update of somebody
else included. The firmware task (`firmware`) and the host thread (`host`) are
two `Accounting`s of it, the counter updates at its exits.

Results:
* `takeDue_exact`: one call, in terms of the slots consumed before it.
* `Publisher.next_accounted`: every due slot is a send or on the skipped counter.
* `slots_accounted`: the contract of the schedule and of both publishers.
-/
namespace Nucleo
open Slots

/-! ## `schedule.rs` -/

/-- mirrors Rust/messaging/src/schedule.rs:3-6 -/
structure Due where
  sequence : UInt32
  skipped : Nat
  deriving DecidableEq, Repr

structure Schedule where
  periodMs : Nat
  nextMs : Nat
  sequence : UInt32
  deriving DecidableEq, Repr

/-- `u64::saturating_mul`. -/
def satMul64 (a b : Nat) : Nat := min (a * b) u64Max

namespace Schedule

def new (periodMs startedMs : Nat) : Option Schedule :=
  if periodMs ≠ 0 then some ⟨periodMs, satAdd64 startedMs periodMs, 0⟩ else none

/-- mirrors Rust/messaging/src/schedule.rs:25-36 -/
def takeDue (s : Schedule) (nowMs : Nat) : Schedule × Option Due :=
  if nowMs < s.nextMs then (s, none)
  else
    let skipped := (nowMs - s.nextMs) / s.periodMs
    let sequence := s.sequence + UInt32.ofNat skipped
    ({ s with
        sequence := sequence + 1
        nextMs := satAdd64 s.nextMs (satMul64 (satAdd64 skipped 1) s.periodMs) },
      some ⟨sequence, skipped⟩)

def machine : Machine Schedule Nat (Option Due) where
  step := takeDue

/-- The schedule has used the slots up to `k`. -/
structure Used (start period : Nat) (s : Schedule) (k : Nat) : Prop where
  period_eq : s.periodMs = period
  next_eq : s.nextMs = slot start period (k + 1)
  sequence_eq : s.sequence = UInt32.ofNat k

/-- The slot after `now` is a `u64`. -/
def Representable (start period now : Nat) : Prop := slot start period (newest start period now + 1) ≤ u64Max

instance (start period now : Nat) : Decidable (Representable start period now) := Nat.decLe ..

variable {start period now k : Nat} {s : Schedule}

theorem Used.new (hsat : slot start period 1 ≤ u64Max) (h : Schedule.new period start = some s) :
    Used start period s 0 ∧ 0 < period := by
  unfold Schedule.new at h
  split at h
  · cases h
    have hadd : start + period ≤ u64Max := by simpa [slot] using hsat
    refine ⟨⟨rfl, ?_, rfl⟩, Nat.pos_of_ne_zero ‹_›⟩
    simp [satAdd64_eq hadd, slot]
  · cases h

/-- Before the next slot nothing is due. -/
theorem Used.wait (h : Used start period s k) (hd : now < slot start period (k + 1)) :
    s.takeDue now = (s, none) := if_pos (h.next_eq ▸ hd)

/-- After it the newest slot is. -/
theorem Used.take (h : Used start period s k) (hp : 0 < period) (hsat : Representable start period now)
    (hd : slot start period (k + 1) ≤ now) :
    (s.takeDue now).2 = some ⟨UInt32.ofNat (newest start period now - 1), newest start period now - (k + 1)⟩ ∧
      Used start period (s.takeDue now).1 (newest start period now) ∧ k + 1 ≤ newest start period now := by
  have hs : start ≤ now := Nat.le_trans (Nat.le_add_right _ _) hd
  have hk : k + 1 ≤ newest start period now := (slot_le_iff hp hs).1 hd
  have hpass := passed_eq hp hs hd
  unfold Representable at hsat
  generalize newest start period now = j at hk hpass hsat ⊢
  -- the slots from the due one to the one after the newest
  have hslot : slot start period (k + 1) + (j - (k + 1) + 1) * period = slot start period (j + 1) := by
    have hj : j + 1 = (k + 1) + (j - (k + 1) + 1) := by omega
    unfold slot
    rw [hj, Nat.add_mul (k + 1), Nat.add_assoc]
  have hle : j - (k + 1) + 1 ≤ (j - (k + 1) + 1) * period := Nat.le_mul_of_pos_right _ hp
  have hone : satAdd64 (j - (k + 1)) 1 = j - (k + 1) + 1 := satAdd64_eq (by omega)
  have hmul : satMul64 (j - (k + 1) + 1) period = (j - (k + 1) + 1) * period := Nat.min_eq_left (by omega)
  have hadd : satAdd64 (slot start period (k + 1)) ((j - (k + 1) + 1) * period) = slot start period (j + 1) := by
    rw [satAdd64_eq (by omega), hslot]
  have hseq : UInt32.ofNat k + UInt32.ofNat (j - (k + 1)) = UInt32.ofNat (j - 1) := by
    rw [← UInt32.ofNat_add]
    congr 1
    omega
  have hseq' : UInt32.ofNat (j - 1) + 1 = UInt32.ofNat j := by
    have : (1 : UInt32) = UInt32.ofNat 1 := rfl
    rw [this, ← UInt32.ofNat_add]
    congr 1
    omega
  have hstep : s.takeDue now = (⟨period, slot start period (j + 1), UInt32.ofNat j⟩,
      some ⟨UInt32.ofNat (j - 1), j - (k + 1)⟩) := by
    unfold takeDue
    rw [h.period_eq, h.next_eq, h.sequence_eq, if_neg (Nat.not_lt.2 hd), hpass]
    simp only [hone, hmul, hadd, hseq, hseq']
  rw [hstep]
  exact ⟨rfl, ⟨rfl, rfl, rfl⟩, hk⟩

/-- One call after `c` slots were consumed. -/
structure Exact (start period c now : Nat) (r : Schedule × Option Due) : Prop where
  /-- Something is due exactly when an unconsumed slot has come. -/
  some_iff : r.2.isSome = true ↔ ∃ j, c < j ∧ slot start period j ≤ now
  /-- Then it is the newest one. -/
  due : ∀ d, r.2 = some d → ∃ j, c < j ∧ slot start period j ≤ now ∧ now < slot start period (j + 1) ∧
    d.sequence = UInt32.ofNat (j - 1) ∧ r.1.nextMs = slot start period (j + 1) ∧ c + (d.skipped + 1) = j

/-- **One call.** -/
theorem takeDue_exact (h : Used start period s k) (hp : 0 < period) (hsat : Representable start period now) :
    Exact start period k now (s.takeDue now) := by
  by_cases hd : now < slot start period (k + 1)
  · rw [h.wait hd]
    refine ⟨?_, fun d hd' => by cases hd'⟩
    rw [exists_slot_iff]
    simpa using hd
  · have hd : slot start period (k + 1) ≤ now := Nat.not_lt.1 hd
    have hs : start ≤ now := Nat.le_trans (Nat.le_add_right _ _) hd
    obtain ⟨hout, hused, hk⟩ := h.take hp hsat hd
    refine ⟨?_, fun d hd' => ?_⟩
    · rw [hout, exists_slot_iff]
      simpa using hd
    · rw [hout] at hd'
      cases hd'
      refine ⟨newest start period now, hk, (slot_le_iff hp hs).2 (Nat.le_refl _), ?_, rfl, hused.next_eq, ?_⟩
      · rw [← Nat.not_le, slot_le_iff hp hs]
        omega
      · simp only
        omega

/-- The slots that the returned values account for. -/
def consumed (s : Schedule) (times : List Nat) : Nat :=
  ((machine.trace s times).map fun e => (e.2.2.map fun d : Due => d.skipped + 1).getD 0).sum

/-- **Whole runs.** -/
theorem Used.run (h : Used start period s k) (hp : 0 < period) {times : List Nat}
    (hsat : ∀ t ∈ times, Representable start period t) :
    Used start period (machine.run s times) (k + consumed s times) := by
  induction times generalizing s k with
  | nil => exact h
  | cons t times ih =>
    have hrest : ∀ t ∈ times, Representable start period t := fun t ht => hsat t (List.mem_cons_of_mem _ ht)
    have hsum : consumed s (t :: times) =
        ((s.takeDue t).2.map fun d : Due => d.skipped + 1).getD 0 + consumed (s.takeDue t).1 times := rfl
    rw [Machine.run_cons, hsum, ← Nat.add_assoc]
    by_cases hd : t < slot start period (k + 1)
    · have hstep : machine.next s t = s := congrArg Prod.fst (h.wait hd)
      have hzero : (((s, none) : Schedule × Option Due).2.map fun d : Due => d.skipped + 1).getD 0 = 0 := rfl
      rw [hstep, h.wait hd, hzero]
      exact ih h hrest
    · obtain ⟨hout, hused, hk⟩ := h.take hp (hsat t List.mem_cons_self) (Nat.not_lt.1 hd)
      have hj : k + (newest start period t - (k + 1) + 1) = newest start period t := by omega
      rw [hout, Option.map_some, Option.getD_some, hj]
      exact ih hused hrest

end Schedule

/-! ## Shared counters -/

namespace Counters

/-- mirrors Rust/messaging/src/service.rs:102-107 -/
def sent (c : Counters) (socket : Fin 3) (success : Bool) : Counters :=
  { c with
    active := c.active.set socket (!success)
    sendErrors := if success then c.sendErrors else satAdd32 c.sendErrors 1 }

/-- `c.active[index] = true`. -/
def activate (c : Counters) (index : Fin 3) : Counters := { c with active := c.active.set index true }

end Counters

/-- The counters of the host.
mirrors Rust/tools/message-demo/src/main.rs:40-47 -/
structure HostCounters where
  received : UInt32 := 0
  rejected : UInt32 := 0
  sendErrors : UInt32 := 0
  activeSendError : Bool := false
  activeStreamError : Vector Bool 2 := Vector.replicate 2 false
  skipped : UInt32 := 0
  deriving DecidableEq

/-! ## A publishing loop -/

/-- The counter updates of a loop, each of them one critical section. -/
structure Accounting (C : Type) where
  skipped : C → UInt32
  /-- The link went down before the deadline. -/
  down : C → C
  /-- A slot is due. -/
  late : Due → C → C
  /-- It is given up before it is sent: no link, or no encoding. -/
  missed : Due → C → C
  sent : Due → Bool → C → C

/-- `publish`, stream `index`.
mirrors Rust/src/servers/embassy_messaging.rs:282-355 -/
def firmware (index : Fin 3) : Accounting Counters where
  skipped := Counters.skipped
  down c := c.activate index
  late due c :=
    let c := c.skip due.skipped
    if 0 < due.skipped then c.activate index else c
  missed _ c := (c.skip 1).activate index
  sent due sent c :=
    let c := c.sent index sent
    let c := if sent then c else c.skip 1
    if 0 < due.skipped then c.activate index else c

/-- `Publisher::start`, stream `index`.
mirrors Rust/tools/message-demo/src/streams.rs:128-190 -/
def host (index : Fin 2) : Accounting HostCounters where
  skipped := HostCounters.skipped
  down c := c
  late due c :=
    let c := { c with skipped := satAdd32 c.skipped (UInt32.ofNat (min due.skipped u32Max)) }
    if due.skipped ≠ 0 then { c with activeStreamError := c.activeStreamError.set index true } else c
  missed _ c := { c with
    skipped := satAdd32 c.skipped 1
    activeStreamError := c.activeStreamError.set index true }
  sent due success c :=
    let c := { c with activeStreamError := c.activeStreamError.set index (!success || due.skipped ≠ 0) }
    if success then c
    else { c with skipped := satAdd32 c.skipped 1, sendErrors := satAdd32 c.sendErrors 1 }

/-- What happens to a loop. -/
inductive Event (C : Type)
  /-- Another loop left the counters so. -/
  | other (counters : C)
  | down
  | wake (now : Nat)
  | missed
  | sent (success : Bool)

/-- A loop between two of its critical sections. `sends`, `added` and `slots` are
what an observer counts: successful sends, what the loop added to the skipped
counter, and the slots consumed. -/
structure Publisher (C : Type) where
  schedule : Schedule
  counters : C
  pending : Option Due := none
  sends : Nat := 0
  added : Nat := 0
  slots : Nat := 0

namespace Publisher

variable {C : Type}

/-- One update of the loop's own. -/
def update (A : Accounting C) (p : Publisher C) (f : C → C) : Publisher C :=
  { p with
    counters := f p.counters
    added := p.added + ((A.skipped (f p.counters)).toNat - (A.skipped p.counters).toNat) }

/-- An event that the loop does not wait for is none. -/
def step (A : Accounting C) (p : Publisher C) : Event C → Publisher C × Option Due
  | .other counters => ({ p with counters }, none)
  | .down => if p.pending.isNone then (p.update A A.down, none) else (p, none)
  | .wake now =>
    if p.pending.isNone then
      let r := p.schedule.takeDue now
      match r.2 with
      | none => ({ p with schedule := r.1 }, none)
      | some due => ({ p with schedule := r.1, pending := some due, slots := p.slots + (due.skipped + 1) }.update A
          (A.late due), some due)
    else (p, none)
  | .missed =>
    match p.pending with
    | none => (p, none)
    | some due => ({ p with pending := none }.update A (A.missed due), none)
  | .sent success =>
    match p.pending with
    | none => (p, none)
    | some due => ({ p with pending := none, sends := p.sends + success.toNat }.update A (A.sent due success), none)

def machine (A : Accounting C) : Machine (Publisher C) (Event C) (Option Due) where
  step := step A

/-- A loop that starts with the counters of others. -/
def start (schedule : Schedule) (counters : C) : Publisher C := { schedule, counters }

/-! ### Every slot is accounted for -/

/-- What an exit does to the skipped counter. -/
structure Lawful (A : Accounting C) : Prop where
  down : ∀ c, A.skipped (A.down c) = A.skipped c
  late : ∀ due c, A.skipped (A.late due c) = satAdd32 (A.skipped c) (UInt32.ofNat (min due.skipped u32Max))
  missed : ∀ due c, A.skipped (A.missed due c) = satAdd32 (A.skipped c) 1
  success : ∀ due c, A.skipped (A.sent due true c) = A.skipped c
  failure : ∀ due c, A.skipped (A.sent due false c) = satAdd32 (A.skipped c) 1

theorem firmware_lawful (index : Fin 3) : Lawful (firmware index) where
  down _ := rfl
  late due c := by
    simp only [firmware]
    split <;> rfl
  missed _ _ := rfl
  success due c := by
    simp only [firmware]
    split <;> rfl
  failure due c := by
    simp only [firmware]
    split <;> rfl

theorem host_lawful (index : Fin 2) : Lawful (host index) where
  down _ := rfl
  late due c := by
    simp only [host]
    split <;> rfl
  missed _ _ := rfl
  success _ _ := rfl
  failure _ _ := rfl

/-- Below its maximum the counter counts. -/
theorem satAdd32_exact {a : UInt32} {n : Nat}
    (h : (satAdd32 a (UInt32.ofNat (min n u32Max))).toNat < u32Max) :
    (satAdd32 a (UInt32.ofNat (min n u32Max))).toNat - a.toNat = n := by
  rw [toNat_satAdd32, toNat_ofNat32_le (Nat.min_le_right _ _)] at h ⊢
  omega

theorem satAdd32_one_exact {a : UInt32} (h : (satAdd32 a 1).toNat < u32Max) :
    (satAdd32 a 1).toNat - a.toNat = 1 := @satAdd32_exact a 1 h

/-- The slots up to `slots` are used, and each is a send, on the skipped counter or pending. -/
structure Accounted (start period : Nat) (p : Publisher C) : Prop where
  used : Schedule.Used start period p.schedule p.slots
  balance : p.slots = p.sends + p.added + p.pending.isSome.toNat

variable {A : Accounting C} {since period : Nat} {p : Publisher C}

/-- The clock reading of a wake is within `u64`. -/
def InTime (since period : Nat) : Event C → Prop
  | .wake now => Schedule.Representable since period now
  | _ => True

instance (since period : Nat) (e : Event C) : Decidable (InTime since period e) := by
  unfold InTime
  split <;> infer_instance

/-- **One event.** -/
theorem next_accounted (hA : Lawful A) (hp : 0 < period) (h : Accounted since period p) (e : Event C)
    (ht : InTime since period e)
    (hsat : (A.skipped ((machine A).next p e).counters).toNat < u32Max) :
    Accounted since period ((machine A).next p e) := by
  obtain ⟨hused, hbalance⟩ := h
  unfold Machine.next machine at hsat ⊢
  cases e with
  | other counters => exact ⟨hused, hbalance⟩
  | down =>
    cases hpending : p.pending with
    | some due => simpa [step, hpending] using ⟨hused, hbalance⟩
    | none =>
      refine ⟨by simpa [step, hpending, update] using hused, ?_⟩
      simpa [step, hpending, update, hA.down] using hbalance
  | wake now =>
    cases hpending : p.pending with
    | some due => simpa [step, hpending] using ⟨hused, hbalance⟩
    | none =>
      by_cases hd : now < slot since period (p.slots + 1)
      · have hwait := hused.wait hd
        refine ⟨by simpa [step, hpending, hwait] using hused, ?_⟩
        simpa [step, hpending, hwait] using hbalance
      · obtain ⟨hout, hnext, hk⟩ := hused.take hp ht (Nat.not_lt.1 hd)
        generalize newest since period now = j at hout hnext hk
        have hslots : p.slots + (j - (p.slots + 1) + 1) = j := by omega
        simp only [step, hpending, Option.isNone_none, if_true, hout, update, hA.late, hslots] at hsat ⊢
        have hadded := satAdd32_exact hsat
        refine ⟨hnext, ?_⟩
        simp only [hadded, Option.isSome_some, Bool.toNat_true]
        simp only [hpending, Option.isSome_none, Bool.toNat_false] at hbalance
        omega
  | missed =>
    cases hpending : p.pending with
    | none => simpa [step, hpending] using ⟨hused, hbalance⟩
    | some due =>
      simp only [step, hpending, update, hA.missed] at hsat ⊢
      have hadded := satAdd32_one_exact hsat
      refine ⟨hused, ?_⟩
      simp only [hpending, Option.isSome_some, Bool.toNat_true] at hbalance
      simp only [hadded, Option.isSome_none, Bool.toNat_false]
      omega
  | sent success =>
    cases hpending : p.pending with
    | none => simpa [step, hpending] using ⟨hused, hbalance⟩
    | some due =>
      simp only [hpending, Option.isSome_some, Bool.toNat_true] at hbalance
      cases success with
      | true =>
        refine ⟨by simpa [step, hpending, update] using hused, ?_⟩
        simp only [step, hpending, update, hA.success, Bool.toNat_true, Option.isSome_none, Bool.toNat_false]
        omega
      | false =>
        simp only [step, hpending, update, hA.failure] at hsat ⊢
        have hadded := satAdd32_one_exact hsat
        refine ⟨hused, ?_⟩
        simp only [hadded, Option.isSome_none, Bool.toNat_false]
        omega

/-- Times within `u64`, the skipped counter below its maximum. -/
def Clear (A : Accounting C) (since period : Nat) (p : Publisher C) (events : List (Event C)) : Prop :=
  ∀ e ∈ (machine A).trace p events, InTime since period e.2.1 ∧
    (A.skipped ((machine A).next e.1 e.2.1).counters).toNat < u32Max

instance (A : Accounting C) (since period : Nat) (p : Publisher C) (events : List (Event C)) :
    Decidable (Clear A since period p events) := inferInstanceAs (Decidable (∀ _ ∈ _, _))

/-- **Whole runs.** -/
theorem run_accounted (hA : Lawful A) (hp : 0 < period) (h : Accounted since period p) {events : List (Event C)}
    (hc : Clear A since period p events) : Accounted since period ((machine A).run p events) := by
  induction events generalizing p with
  | nil => exact h
  | cons e events ih =>
    obtain ⟨ht, hsat⟩ := hc _ List.mem_cons_self
    exact ih (next_accounted hA hp h e ht hsat) fun e he => hc e (List.mem_cons_of_mem _ he)

end Publisher

/-! ## The contract -/

/-- Between two slots what the loop consumed is what it sent and what it added to the counter. -/
def Publisher.Balanced {C : Type} (start period : Nat) (p : Publisher C) : Prop :=
  Schedule.Used start period p.schedule p.slots ∧ (p.pending = none → p.slots = p.sends + p.added)

theorem Publisher.Accounted.balanced {C : Type} {start period : Nat} {p : Publisher C}
    (h : p.Accounted start period) : p.Balanced start period := by
  refine ⟨h.used, fun hpending => ?_⟩
  have := h.balance
  rw [hpending] at this
  exact this

/-- **No slot is lost.** A schedule hands out the newest due slot, whenever it is asked, and
counts the slots before it; and the firmware task and the host thread, whatever fails and
whatever the other loops do to the counters, send each slot or count it as skipped. -/
theorem slots_accounted (start period : Nat) (s : Schedule) (hnew : Schedule.new period start = some s)
    (hstart : slot start period 1 ≤ u64Max) :
    (∀ times now, (∀ t ∈ times ++ [now], Schedule.Representable start period t) →
      Schedule.Exact start period (Schedule.consumed s times) now
        ((Schedule.machine.run s times).takeDue now)) ∧
    (∀ index counters events, Publisher.Clear (firmware index) start period (.start s counters) events →
      ((Publisher.machine (firmware index)).run (.start s counters) events).Balanced start period) ∧
    (∀ index counters events, Publisher.Clear (host index) start period (.start s counters) events →
      ((Publisher.machine (host index)).run (.start s counters) events).Balanced start period) := by
  obtain ⟨hused, hp⟩ := Schedule.Used.new hstart hnew
  refine ⟨?_, ?_, ?_⟩
  · intro times now hsat
    have hrun := hused.run hp fun t ht => hsat t (List.mem_append_left _ ht)
    rw [Nat.zero_add] at hrun
    exact Schedule.takeDue_exact hrun hp (hsat now (by simp))
  · intro index counters events hc
    exact (Publisher.run_accounted (Publisher.firmware_lawful index) hp ⟨hused, rfl⟩ hc).balanced
  · intro index counters events hc
    exact (Publisher.run_accounted (Publisher.host_lawful index) hp ⟨hused, rfl⟩ hc).balanced

/-- Four slots at once, the send of the last of them fails, the next slot finds no link. -/
theorem slots_accounted_late :
    let s : Schedule := ⟨100, 100, 0⟩
    let events : List (Event Counters) := [.wake 450, .sent false, .other { skipped := 9 }, .wake 500, .missed]
    let p := (Publisher.machine (firmware 1)).run (.start s {}) events
    Schedule.Exact 0 100 (Schedule.consumed s [99, 450]) 500 ((Schedule.machine.run s [99, 450]).takeDue 500) ∧
      p.Balanced 0 100 ∧ p.slots = 5 ∧ p.sends = 0 ∧ p.added = 5 := by
  obtain ⟨hschedule, hfirmware, -⟩ := slots_accounted 0 100 ⟨100, 100, 0⟩ rfl (by decide)
  exact ⟨hschedule [99, 450] 500 (by decide), hfirmware 1 {} _ (by decide +kernel), by decide +kernel⟩

end Nucleo
