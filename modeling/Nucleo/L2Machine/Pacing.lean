import Nucleo.L2Machine.ProbeTracker

/-!
# The schedule of a pacer

Slot `n` of a pacer is due from `start + n / hz` seconds on, a rational time.
`due` finds the newest slot that is due with a floor, `next_due_ns` the first
nanosecond of the next one with a ceiling. Both are compared with the exact
schedule `DueBy`.

Results:
* `due_spec`, `due_returns`: what one call does, in terms of the schedule, and when it returns.
* `nextDue_least`: `next_due_ns` is the first nanosecond of the next slot.
* `due_nextDue`: a call at that time takes that slot and skips none.
* `pacer_schedule`: all of it for every run.
-/
namespace Nucleo.Metrics.Pacer

open Json (Str)

/-! ## The schedule -/

/-- Slot `slot` is due at `now`: `(now - start) / 10⁹ ≥ slot / hz`. -/
def DueBy (start hz slot now : Nat) : Prop := start ≤ now ∧ slot * 1000000000 ≤ (now - start) * hz

/-- The slots due at `now` are those up to the newest one. -/
theorem dueBy_iff {start hz slot now : Nat} (h : start ≤ now) :
    DueBy start hz slot now ↔ slot ≤ (now - start) * hz / 1000000000 := by
  rw [DueBy, Nat.le_div_iff_mul_le (by omega)]
  simp [h]

theorem DueBy.le {start hz slot slot' now : Nat} (h : DueBy start hz slot now) (hle : slot' ≤ slot) :
    DueBy start hz slot' now :=
  ⟨h.1, Nat.le_trans (Nat.mul_le_mul_right _ hle) h.2⟩

/-! ## Counts -/

/-- A count by its name. -/
def n (p : Pacer) (key : String) : Int := p.counts.get (Str.lit key)

@[simp] theorem n_count_self (p : Pacer) (key : String) (amount : Int) :
    (p.count key amount).n key = p.n key + amount := Tally.get_add_self _ _ _

theorem n_count_other (p : Pacer) {key k : String} (h : Str.lit k ≠ Str.lit key) (amount : Int) :
    (p.count key amount).n k = p.n k := Tally.get_add_other _ h _

/-- The clock and the schedule are not counts. -/
@[simp] theorem n_mk (p : Pacer) (start hz lastNow nextSlot : Nat) (key : String) :
    (Pacer.mk start hz lastNow nextSlot p.counts).n key = p.n key := rfl

@[simp] theorem start_count (p : Pacer) (key : String) (amount : Int) : (p.count key amount).start = p.start := rfl
@[simp] theorem hz_count (p : Pacer) (key : String) (amount : Int) : (p.count key amount).hz = p.hz := rfl
@[simp] theorem lastNow_count (p : Pacer) (key : String) (amount : Int) :
    (p.count key amount).lastNow = p.lastNow := rfl
@[simp] theorem nextSlot_count (p : Pacer) (key : String) (amount : Int) :
    (p.count key amount).nextSlot = p.nextSlot := rfl

/-- Every planned slot has one outcome. -/
structure Tallied (p : Pacer) : Prop where
  planned : p.n "planned_slots" = p.nextSlot
  outcome : p.n "planned_slots" = p.n "scheduling_skips" + p.n "window_skips" + p.n "send_opportunities"

/-! ## One call -/

/-- What a call at `now` does with the pacer. -/
inductive Due (p : Pacer) (now : Nat) (windowAvailable : Bool) : Pacer → Bool → Prop
  | early (h : ¬ DueBy p.start p.hz p.nextSlot now) : Due p now windowAvailable { p with lastNow := now } false
  /-- The newest slot that is due is taken; the older ones are skipped. -/
  | take (p' : Pacer) (skipped : Nat)
      (due : DueBy p.start p.hz (p.nextSlot + skipped) now)
      (newest : ¬ DueBy p.start p.hz (p.nextSlot + skipped + 1) now)
      (frame : p'.start = p.start ∧ p'.hz = p.hz ∧ p'.lastNow = now)
      (next : p'.nextSlot = p.nextSlot + skipped + 1)
      (planned : p'.n "planned_slots" = p.n "planned_slots" + (skipped + 1))
      (skips : p'.n "scheduling_skips" = p.n "scheduling_skips" + skipped)
      (window : p'.n "window_skips" = p.n "window_skips" + if windowAvailable then 0 else 1)
      (sends : p'.n "send_opportunities" = p.n "send_opportunities" + if windowAvailable then 1 else 0) :
      Due p now windowAvailable p' windowAvailable

/-- **What `due` does**, for a rate that is not zero. -/
theorem due_spec {p p' : Pacer} (hz : p.hz ≠ 0) {now : Int} {windowAvailable granted : Bool}
    (h : p.due now windowAvailable = .ok (p', granted)) :
    ∃ t : Nat, now = t ∧ p.lastNow ≤ t ∧ Due p t windowAvailable p' granted := by
  unfold due at h
  cases hc : clock p.lastNow now with
  | error e =>
    rw [hc] at h
    cases h
  | ok t =>
    obtain ⟨hnow, -, hlast⟩ := clock_ok.1 hc
    refine ⟨t, hnow, hlast, ?_⟩
    rw [hc] at h
    simp only [bind, Except.bind, hz, false_or] at h
    split at h
    · rename_i hstart
      cases h
      exact .early fun hdue => absurd hdue.1 (by omega)
    · rename_i hstart
      have hiff := fun slot => @dueBy_iff p.start p.hz slot t (Nat.le_of_not_lt hstart)
      split at h
      · rename_i hless
        cases h
        exact .early fun hdue => by have := (hiff _).1 hdue; omega
      · rename_i hge
        have htake : ∀ p' granted, granted = windowAvailable → p'.start = p.start → p'.hz = p.hz →
            p'.lastNow = t → p'.nextSlot = (t - p.start) * p.hz / 1000000000 + 1 →
            p'.n "planned_slots" = p.n "planned_slots" +
              ((t - p.start) * p.hz / 1000000000 + 1 - p.nextSlot : Nat) →
            p'.n "scheduling_skips" = p.n "scheduling_skips" +
              (((t - p.start) * p.hz / 1000000000 + 1 - p.nextSlot : Nat) - 1) →
            p'.n "window_skips" = p.n "window_skips" + (if windowAvailable then 0 else 1) →
            p'.n "send_opportunities" = p.n "send_opportunities" + (if windowAvailable then 1 else 0) →
            Due p t windowAvailable p' granted := by
          intro p' granted hg hs hh hl hn hp hk hw ho
          subst hg
          refine .take p' ((t - p.start) * p.hz / 1000000000 - p.nextSlot) ?_ ?_ ⟨hs, hh, hl⟩ ?_ ?_ ?_ hw ho
          · exact (hiff _).2 (by omega)
          · exact fun hdue => by have := (hiff _).1 hdue; omega
          · omega
          · omega
          · omega
        cases windowAvailable with
        | true =>
          cases h
          apply htake <;> simp (disch := decide) [n_count_other]
        | false =>
          cases h
          apply htake <;> simp (disch := decide) [n_count_other]

/-- The clock reading of a pacer that a call left. -/
theorem Due.lastNow {p p' : Pacer} {now : Nat} {windowAvailable granted : Bool}
    (h : Due p now windowAvailable p' granted) : p'.lastNow = now := by
  cases h with
  | early => rfl
  | take p' skipped due newest frame => exact frame.2.2

/-- **A call returns** when its time is not before the last one and below 2⁶³. -/
theorem due_returns {p : Pacer} {now : Int} (hlast : p.lastNow ≤ now) (hmax : now < 2 ^ 63) (windowAvailable : Bool) :
    ∃ p' granted, p.due now windowAvailable = .ok (p', granted) := by
  obtain ⟨t, rfl⟩ := Int.eq_ofNat_of_zero_le (Int.le_trans (Int.natCast_nonneg _) hlast)
  have hclock : clock p.lastNow t = .ok t := clock_ok.2 ⟨rfl, by omega, by omega⟩
  cases hd : p.due t windowAvailable with
  | ok r => exact ⟨r.1, r.2, rfl⟩
  | error e =>
    unfold due at hd
    rw [hclock] at hd
    simp only [bind, Except.bind] at hd
    repeat' split at hd
    all_goals cases hd

/-! ## The next slot -/

/-- **`next_due_ns` is the first nanosecond of the next slot.** -/
theorem nextDue_least {p : Pacer} (hz : p.hz ≠ 0) :
    ∃ t, p.nextDueNs = some t ∧ IsLeast {now | DueBy p.start p.hz p.nextSlot now} t := by
  refine ⟨_, if_neg hz, ?_, fun now hnow => ?_⟩
  · refine ⟨Nat.le_add_right _ _, ?_⟩
    have hdiv := Nat.lt_div_mul_add (a := p.nextSlot * 1000000000 + p.hz - 1) (Nat.pos_of_ne_zero hz)
    rw [Nat.add_sub_cancel_left]
    omega
  · obtain ⟨hstart, hdue⟩ := hnow
    have hless : (p.nextSlot * 1000000000 + p.hz - 1) / p.hz ≤ now - p.start := by
      apply Nat.le_of_lt_succ
      rw [Nat.div_lt_iff_lt_mul (Nat.pos_of_ne_zero hz), Nat.succ_mul]
      omega
    omega

/-- At its first nanosecond, a slot of at most 10 kHz is the newest one. -/
theorem least_newest {start hz slot t : Nat} (hhz : hz ≤ 10000)
    (h : IsLeast {now | DueBy start hz slot now} t) : ¬ DueBy start hz (slot + 1) t := by
  intro hnext
  obtain ⟨hstart, hnext⟩ := hnext
  rw [Nat.succ_mul] at hnext
  by_cases ht : t = start
  · rw [ht, Nat.sub_self, Nat.zero_mul] at hnext
    omega
  · have hsplit : (t - start) * hz = (t - 1 - start) * hz + hz := by
      rw [← Nat.add_one_mul]
      congr 1
      omega
    have hearlier : DueBy start hz slot (t - 1) := ⟨by omega, by linarith⟩
    have := h.2 hearlier
    omega

/-! ## Runs -/

/-- What holds after any calls. The next slot is not due at the last reading. -/
structure Inv (start hz : Nat) (p : Pacer) : Prop where
  waiting : p.lastNow = 0 ∨ ¬ DueBy start hz p.nextSlot p.lastNow
  tallied : p.Tallied
  start : p.start = start
  hz : p.hz = hz

theorem new_inv {startNs hz : Int} {p : Pacer} (h : new startNs hz = .ok p) :
    startNs = p.start ∧ hz = p.hz ∧ hz ≤ 10000 ∧ Inv p.start p.hz p ∧ p.n "send_opportunities" = 0 := by
  obtain ⟨start, hs, h⟩ := except_bind_ok.1 h
  obtain ⟨rate, hi, h⟩ := except_bind_ok.1 h
  obtain ⟨hrate, -, hmax⟩ := (integer_ok (by omega)).1 hi
  cases h
  exact ⟨(stamp_ok.1 hs).1, hrate, hmax, ⟨.inl rfl, ⟨rfl, rfl⟩, rfl, rfl⟩, rfl⟩

/-- What a call that returned did, as the run needs it. -/
theorem Inv.due {start hz : Nat} {p p' : Pacer} (h : Inv start hz p) (hhz : hz ≠ 0) {now : Nat}
    {windowAvailable granted : Bool} (hdue : Due p now windowAvailable p' granted) :
    Inv start hz p' ∧
      (granted = true ↔ windowAvailable = true ∧ DueBy start hz p.nextSlot now) ∧
      (granted = true → p.nextSlot < p'.nextSlot ∧ DueBy start hz (p'.nextSlot - 1) now) ∧
      p.nextSlot ≤ p'.nextSlot ∧
      p'.n "send_opportunities" = p.n "send_opportunities" + if granted then 1 else 0 := by
  obtain ⟨-, htallied, rfl, rfl⟩ := h
  cases hdue with
  | early hearly =>
    refine ⟨⟨.inr hearly, ⟨htallied.planned, htallied.outcome⟩, rfl, rfl⟩, ?_, by simp, Nat.le_refl _, by simp⟩
    simp [hearly]
  | take p' skipped hdue hnewest hframe hnext hplanned hskips hwindow hsends =>
    obtain ⟨hstart, hrate, hlast⟩ := hframe
    have htallied' : p'.Tallied := by
      have hp := htallied.planned
      have ho := htallied.outcome
      refine ⟨by omega, ?_⟩
      cases windowAvailable <;> simp at hwindow hsends <;> omega
    refine ⟨⟨.inr ?_, htallied', hstart, hrate⟩, ?_, fun _ => ⟨by omega, ?_⟩, by omega, hsends⟩
    · rw [hnext, hlast]
      exact hnewest
    · simp [hdue.le (Nat.le_add_right _ _)]
    · rw [hnext, Nat.add_sub_cancel]
      exact hdue

/-- The calls of a run, and the slot of each send it grants: the newest one. -/
def calls (p : Pacer) : List (Int × Bool) → Except String (Pacer × List Nat)
  | [] => .ok (p, [])
  | (now, windowAvailable) :: rest => do
    let (p, granted) ← p.due now windowAvailable
    let (p', slots) ← calls p rest
    .ok (p', if granted then (p.nextSlot - 1) :: slots else slots)

theorem calls_cons {p p' : Pacer} {now : Int} {windowAvailable : Bool} {rest : List (Int × Bool)} {slots : List Nat}
    (h : p.calls ((now, windowAvailable) :: rest) = .ok (p', slots)) :
    ∃ p₁ granted slots₁, p.due now windowAvailable = .ok (p₁, granted) ∧ p₁.calls rest = .ok (p', slots₁) ∧
      slots = if granted then (p₁.nextSlot - 1) :: slots₁ else slots₁ := by
  unfold calls at h
  cases hd : p.due now windowAvailable with
  | error e =>
    rw [hd] at h
    cases h
  | ok r =>
    rw [hd] at h
    simp only [bind, Except.bind] at h
    split at h
    · cases h
    · rename_i r₁ hr₁
      cases h
      exact ⟨r.1, r.2, r₁.2, rfl, hr₁, rfl⟩

/-- Times that a pacer takes: they do not go back and stay below 2⁶³. -/
structure Nondecreasing (cs : List (Int × Bool)) : Prop where
  sorted : (cs.map Prod.fst).Pairwise (· ≤ ·)
  stamps : ∀ c ∈ cs, 0 ≤ c.1 ∧ c.1 < 2 ^ 63

/-- **Calls at such times return**, and leave the last of them in the clock. -/
theorem calls_return {p : Pacer} (hz : p.hz ≠ 0) {cs : List (Int × Bool)} (h : Nondecreasing cs)
    (hlast : ∀ c ∈ cs, p.lastNow ≤ c.1) :
    ∃ p' slots, p.calls cs = .ok (p', slots) ∧ p'.hz = p.hz ∧ ∀ now : Int, p.lastNow ≤ now →
      (∀ c ∈ cs, c.1 ≤ now) → p'.lastNow ≤ now := by
  induction cs generalizing p with
  | nil => exact ⟨p, [], rfl, rfl, fun _ hnow _ => hnow⟩
  | cons c rest ih =>
    obtain ⟨hsorted, hstamps⟩ := h
    rw [List.map_cons, List.pairwise_cons] at hsorted
    rw [List.forall_mem_cons] at hstamps hlast
    obtain ⟨p₁, granted, hd⟩ := due_returns hlast.1 hstamps.1.2 c.2
    obtain ⟨t, ht, -, hdue⟩ := due_spec hz hd
    have hfirst : (p₁.lastNow : Int) = c.1 := by rw [hdue.lastNow, ht]
    have hrate : p₁.hz = p.hz := by
      cases hdue with
      | early => rfl
      | take p' skipped due newest frame => exact frame.2.1
    have hrest : ∀ c' ∈ rest, (p₁.lastNow : Int) ≤ c'.1 := fun c' hc' => by
      rw [hfirst]
      exact hsorted.1 c'.1 (List.mem_map_of_mem hc')
    obtain ⟨p', slots, hcalls, hrate', hclock⟩ := ih (by rw [hrate]; exact hz) ⟨hsorted.2, hstamps.2⟩ hrest
    refine ⟨p', if granted then (p₁.nextSlot - 1) :: slots else slots, ?_, hrate'.trans hrate, fun now _ hall => ?_⟩
    · obtain ⟨now, windowAvailable⟩ := c
      simp only [calls, hd, hcalls, bind, Except.bind]
    · rw [List.forall_mem_cons] at hall
      exact hclock now (hfirst ▸ hall.1) hall.2

/-- **Every run keeps the invariant and grants each slot once, in order.** -/
theorem calls_inv {start hz : Nat} (hhz : hz ≠ 0) {p p' : Pacer} (h : Inv start hz p) {cs : List (Int × Bool)}
    {slots : List Nat} (hcalls : p.calls cs = .ok (p', slots)) :
    Inv start hz p' ∧ p.nextSlot ≤ p'.nextSlot ∧ slots.Pairwise (· < ·) ∧
      (∀ slot ∈ slots, p.nextSlot ≤ slot ∧ slot < p'.nextSlot) ∧
      p'.n "send_opportunities" = p.n "send_opportunities" + slots.length ∧ slots.length ≤ cs.length := by
  induction cs generalizing p slots with
  | nil =>
    cases hcalls
    exact ⟨h, Nat.le_refl _, .nil, by simp, by simp, Nat.le_refl _⟩
  | cons c rest ih =>
    obtain ⟨p₁, granted, slots₁, hd, hrest, rfl⟩ := calls_cons hcalls
    obtain ⟨t, -, -, hdue⟩ := due_spec (by rw [h.hz]; exact hhz) hd
    obtain ⟨hinv, -, hslot, hle, hsends⟩ := h.due hhz hdue
    obtain ⟨hinv', hle', hsorted, hbetween, hsends', hlength⟩ := ih hinv hrest
    cases granted with
    | false =>
      refine ⟨hinv', by omega, hsorted, fun slot hs => ?_, ?_, ?_⟩
      · have := hbetween slot hs
        omega
      · simp at hsends ⊢
        omega
      · simp
        omega
    | true =>
      have hnew := (hslot rfl).1
      refine ⟨hinv', by omega, ?_, fun slot hs => ?_, ?_, ?_⟩
      · refine List.pairwise_cons.2 ⟨fun slot hs => ?_, hsorted⟩
        have := (hbetween slot hs).1
        omega
      · rcases List.mem_cons.1 hs with rfl | hs
        · omega
        · have := hbetween slot hs
          omega
      · simp at hsends ⊢
        omega
      · simp
        omega

/-- **Sleeping until `next_due_ns`**: the clock is not past it, and the call
there takes that slot, skipping none. -/
theorem due_nextDue {start hz : Nat} {p : Pacer} (h : Inv start hz p) (hhz : hz ≠ 0) (hmax : hz ≤ 10000) {t : Nat}
    (ht : IsLeast {now | DueBy start hz p.nextSlot now} t) :
    p.lastNow ≤ t ∧ (t < 2 ^ 63 → ∀ windowAvailable, ∃ p', p.due t windowAvailable = .ok (p', windowAvailable) ∧
      p'.nextSlot = p.nextSlot + 1 ∧ p'.n "scheduling_skips" = p.n "scheduling_skips") := by
  obtain ⟨hwaiting, -, rfl, rfl⟩ := h
  have hlast : p.lastNow ≤ t := by
    rcases hwaiting with hzero | hnot
    · omega
    · by_contra hlt
      have hless : t - p.start ≤ p.lastNow - p.start := by omega
      exact hnot ⟨Nat.le_trans ht.1.1 (by omega), Nat.le_trans ht.1.2 (Nat.mul_le_mul_right _ hless)⟩
  refine ⟨hlast, fun hrange windowAvailable => ?_⟩
  obtain ⟨p', granted, hd⟩ := @due_returns p t (by omega) (by omega) windowAvailable
  obtain ⟨now, hnow, -, hdue⟩ := due_spec hhz hd
  obtain rfl : t = now := by omega
  cases hdue with
  | early hearly => exact absurd ht.1 hearly
  | take p' skipped hdue hnewest hframe hnext hplanned hskips hwindow hsends =>
    have hzero : skipped = 0 := by
      by_contra hpos
      exact least_newest hmax ht (hdue.le (by omega))
    subst hzero
    exact ⟨p', hd, hnext, by simpa using hskips⟩

/-- The schedule in integers, as the code computes it. -/
theorem dueBy_int {start hz slot : Nat} {now : Int} (h0 : 0 ≤ now) :
    DueBy start hz slot now.toNat ↔ (start : Int) ≤ now ∧ (slot : Int) * 1000000000 ≤ (now - start) * hz := by
  obtain ⟨t, rfl⟩ := Int.eq_ofNat_of_zero_le h0
  simp only [DueBy, Int.toNat_natCast]
  constructor
  · intro h
    obtain ⟨hstart, hdue⟩ := h
    refine ⟨by omega, ?_⟩
    zify [hstart] at hdue
    exact hdue
  · intro h
    obtain ⟨hstart, hdue⟩ := h
    have hle : start ≤ t := by omega
    refine ⟨hle, ?_⟩
    zify [hle]
    exact hdue

/-- A pacer with a rate is built from every start that is a stamp. -/
theorem new_returns {startNs hz : Int} (hstart : 0 ≤ startNs ∧ startNs < 2 ^ 63) (hhz : 1 ≤ hz ∧ hz ≤ 10000) :
    ∃ p, new startNs hz = .ok p ∧ p.lastNow = 0 := by
  obtain ⟨start, rfl⟩ := Int.eq_ofNat_of_zero_le hstart.1
  obtain ⟨rate, rfl⟩ := Int.eq_ofNat_of_zero_le (show 0 ≤ hz by omega)
  have hs : stamp start = .ok start := stamp_ok.2 ⟨rfl, by omega⟩
  have hi : integer rate 0 10000 "command_hz" = .ok rate := (integer_ok (Int.le_refl 0)).2 ⟨rfl, by omega, by omega⟩
  refine ⟨{ start, hz := rate }, ?_, rfl⟩
  unfold new
  rw [hs, except_ok_bind, hi, except_ok_bind]

/-- **A pacer follows its schedule.** At every start, rate and nondecreasing
times all calls return. After them the counts add up to the slots passed, each
send has a slot of its own, a further call is granted exactly when the window
is open and the next slot is due, and `next_due_ns` is the first time that it
is, at which a call takes it. -/
theorem pacer_schedule {startNs hz : Int} (hstart : 0 ≤ startNs ∧ startNs < 2 ^ 63) (hhz : 1 ≤ hz ∧ hz ≤ 10000)
    {cs : List (Int × Bool)} (htimes : Nondecreasing cs) :
    ∃ p₀ p slots, new startNs hz = .ok p₀ ∧ p₀.calls cs = .ok (p, slots) ∧
    (p.n "planned_slots" = p.n "scheduling_skips" + p.n "window_skips" + p.n "send_opportunities" ∧
      p.n "planned_slots" = p.nextSlot) ∧
    (slots.Pairwise (· < ·) ∧ (∀ slot ∈ slots, slot < p.nextSlot) ∧
      p.n "send_opportunities" = slots.length ∧ slots.length ≤ cs.length) ∧
    (∀ now windowAvailable, Nondecreasing (cs ++ [(now, windowAvailable)]) →
      ∃ p' granted, p.due now windowAvailable = .ok (p', granted) ∧
        (granted = true ↔ windowAvailable = true ∧ startNs ≤ now ∧
          (p.nextSlot : Int) * 1000000000 ≤ (now - startNs) * hz) ∧
        (granted = true → p.nextSlot < p'.nextSlot ∧
          ((p'.nextSlot - 1 : Nat) : Int) * 1000000000 ≤ (now - startNs) * hz)) ∧
    ∃ t : Nat, p.nextDueNs = some t ∧
      IsLeast {now : Int | startNs ≤ now ∧ (p.nextSlot : Int) * 1000000000 ≤ (now - startNs) * hz} t ∧
      p.lastNow ≤ t ∧
      (t < 2 ^ 63 → ∀ windowAvailable, ∃ p', p.due t windowAvailable = .ok (p', windowAvailable) ∧
        p'.nextSlot = p.nextSlot + 1 ∧ p'.n "scheduling_skips" = p.n "scheduling_skips") := by
  obtain ⟨p₀, hnew, hlast₀⟩ := new_returns hstart hhz
  obtain ⟨rfl, rfl, hmax, hinv₀, hsends₀⟩ := new_inv hnew
  have hzero : p₀.hz ≠ 0 := by omega
  obtain ⟨p, slots, hcalls, -, hclock⟩ := calls_return hzero htimes fun c hc => by
    rw [hlast₀]
    exact (htimes.stamps c hc).1
  obtain ⟨hinv, -, hsorted, hbetween, hsends, hlength⟩ := calls_inv hzero hinv₀ hcalls
  have hz : p.hz ≠ 0 := by rw [hinv.hz]; exact hzero
  refine ⟨p₀, p, slots, hnew, hcalls, ⟨hinv.tallied.outcome, hinv.tallied.planned⟩,
    ⟨hsorted, fun slot hs => (hbetween slot hs).2, ?_, hlength⟩, ?_, ?_⟩
  · rw [hsends, hsends₀, Int.zero_add]
  · intro now windowAvailable hnow
    have hstamp := hnow.stamps (now, windowAvailable) (by simp)
    have hbefore : ∀ c ∈ cs, c.1 ≤ now := fun c hc => by
      have hpair := hnow.sorted
      rw [List.map_append, List.pairwise_append] at hpair
      exact hpair.2.2 c.1 (List.mem_map_of_mem hc) now (by simp)
    have hlast := hclock now (by rw [hlast₀]; exact hstamp.1) hbefore
    obtain ⟨p', granted, hd⟩ := due_returns hlast hstamp.2 windowAvailable
    obtain ⟨t, rfl, -, hdue⟩ := due_spec hz hd
    obtain ⟨-, hiff, hslot, -⟩ := hinv.due hzero hdue
    have hint := fun slot => @dueBy_int p₀.start p₀.hz slot t (Int.natCast_nonneg t)
    simp only [Int.toNat_natCast] at hint
    rw [hint] at hiff
    refine ⟨p', granted, hd, hiff, fun hg => ?_⟩
    obtain ⟨hless, hdue'⟩ := hslot hg
    exact ⟨hless, ((hint _).1 hdue').2⟩
  · obtain ⟨t, ht, hleast⟩ := nextDue_least hz
    rw [hinv.start, hinv.hz] at hleast
    obtain ⟨hlast, hcall⟩ := due_nextDue hinv hzero (by omega) hleast
    refine ⟨t, ht, ⟨?_, fun now hnow => ?_⟩, hlast, hcall⟩
    · have := (dueBy_int (Int.natCast_nonneg t)).1 hleast.1
      exact this
    · have h0 : 0 ≤ now := Int.le_trans (Int.natCast_nonneg _) hnow.1
      have := hleast.2 ((dueBy_int h0).2 hnow)
      omega

/-- 3 Hz from 0: the first slot is sent, the window is full at the second, the
third passes unseen and the fourth is sent. -/
theorem three_hertz : ∃ p₀ p, new 0 3 = .ok p₀ ∧
    p₀.calls [(0, true), (333333334, false), (1000000000, true)] = .ok (p, [0, 3]) ∧ p.nextSlot = 4 ∧
    p.n "planned_slots" = p.n "scheduling_skips" + p.n "window_skips" + p.n "send_opportunities" := by
  obtain ⟨p₀, p, slots, hnew, hcalls, hcounts, -⟩ := @pacer_schedule 0 3 (by decide) (by decide)
    [(0, true), (333333334, false), (1000000000, true)] ⟨by decide, by decide⟩
  cases hnew
  cases hcalls
  exact ⟨_, _, rfl, rfl, rfl, hcounts.1⟩

end Nucleo.Metrics.Pacer
