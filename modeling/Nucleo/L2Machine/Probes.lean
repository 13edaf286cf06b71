import Nucleo.Core.Assoc
import Nucleo.L2Machine.Histogram
import Nucleo.L2Machine.ProbeTracker

/-!
# Every probe has one fate

The calls of a `ProbeTracker` that do not raise, with the fate of each request
beside the tracker: `Fates` lists what was sent, answered in time, expired and
left over, from the calls alone.

Results:
* `tick_spec`, `sent_spec`, `answer_spec`, `reply_spec`, `finish_spec`: what a
  call does.
* `run_inv`: the invariant `Inv` of every run.
* `probe_conservation`: the counters are the lengths of the fates, no request
  has two of them, and the bounded tables keep their bounds.
-/
namespace Nucleo.Metrics.ProbeTracker

open Json (Str)

variable {I : Type}

/-! ## Remembering -/

/-- A count by its name. -/
def n (t : ProbeTracker I) (key : String) : Int := t.counts.get (Str.lit key)

/-- Requests remembered as timed out. -/
def timeouts (recent : List (Nat × Recent)) : Nat := recent.countP (·.2 = .timeout)

theorem timeouts_setRecent_le (recent : List (Nat × Recent)) (requestId : Nat) (state : Recent) :
    timeouts (setRecent recent requestId state) ≤ timeouts recent + if state = .timeout then 1 else 0 := by
  unfold timeouts
  induction recent with
  | nil => cases state <;> simp [setRecent]
  | cons e recent ih =>
    simp only [setRecent]
    split
    · simp only [List.countP_cons, decide_eq_true_eq]
      omega
    · simp only [List.countP_cons]
      omega

/-- A timeout that turns out to be a late reply is one timeout less. -/
theorem timeouts_setRecent_late {recent : List (Nat × Recent)} {requestId : Nat}
    (h : recent.lookup requestId = some .timeout) :
    timeouts (setRecent recent requestId .late) + 1 = timeouts recent := by
  unfold timeouts
  induction recent with
  | nil => cases h
  | cons e recent ih =>
    obtain ⟨id, state⟩ := e
    rw [List.lookup_cons] at h
    by_cases hid : id = requestId
    · subst hid
      simp only [beq_self_eq_true] at h
      cases h
      simp [setRecent]
    · rw [beq_false_of_ne (Ne.symm hid)] at h
      simp only [setRecent, if_neg hid, List.countP_cons]
      have := ih h
      omega

theorem setRecent_length_late {recent : List (Nat × Recent)} {requestId : Nat} {state : Recent}
    (h : recent.lookup requestId = some state) (state' : Recent) :
    (setRecent recent requestId state').length = recent.length := by
  induction recent with
  | nil => cases h
  | cons e recent ih =>
    obtain ⟨id, s⟩ := e
    rw [List.lookup_cons] at h
    by_cases hid : id = requestId
    · simp [setRecent, hid]
    · rw [beq_false_of_ne (Ne.symm hid)] at h
      simp [setRecent, hid, ih h]

/-- Eviction drops the oldest entries and counts them. -/
theorem evict_spec (excess : Nat) (t : ProbeTracker I) : ∃ counts,
    evict excess t = { t with recent := t.recent.drop excess, counts } ∧
      ∀ key, key ≠ Str.lit "history_evictions" → counts.get key = t.counts.get key := by
  induction excess generalizing t with
  | zero => exact ⟨t.counts, rfl, fun _ _ => rfl⟩
  | succ excess ih =>
    obtain ⟨counts, heq, hkeys⟩ := ih ({ t with recent := t.recent.tail }.count "history_evictions" 1)
    refine ⟨counts, ?_, fun key hkey => ?_⟩
    · rw [evict, heq]
      simp [count]
    · rw [hkeys key hkey]
      exact Tally.get_add_other _ hkey _

/-- `_remember` touches the history and its eviction count only. -/
theorem remember_spec (t : ProbeTracker I) (requestId : Nat) (state : Recent) : ∃ recent counts,
    t.remember requestId state = { t with recent, counts } ∧ recent.length ≤ t.history ∧
      timeouts recent ≤ timeouts t.recent + (if state = .timeout then 1 else 0) ∧
      ∀ key, key ≠ Str.lit "history_evictions" → counts.get key = t.counts.get key := by
  obtain ⟨counts, heq, hkeys⟩ := evict_spec ((setRecent t.recent requestId state).length - t.history)
    { t with recent := setRecent t.recent requestId state }
  refine ⟨_, counts, heq, ?_, ?_, hkeys⟩
  · rw [List.length_drop]
    change (setRecent t.recent requestId state).length - _ ≤ _
    omega
  · exact Nat.le_trans (List.Sublist.countP_le (List.drop_sublist _ _)) (timeouts_setRecent_le _ _ _)

/-! ## Expiry -/

/-- The deadline of a pending request has passed. -/
def due (deadlineNs now : Nat) (p : Nat × Nat) : Bool := p.2 + deadlineNs ≤ now

/-- The loop of `tick` takes the requests at the front whose deadline has passed. -/
theorem expire_spec (now : Nat) (pending : List (Nat × Nat)) (t : ProbeTracker I) : ∃ recent counts,
    expire now pending t =
        { t with pending := pending.dropWhile (due t.deadlineNs now), recent, counts } ∧
      (t.recent.length ≤ t.history → recent.length ≤ t.history) ∧
      timeouts recent ≤ timeouts t.recent + (pending.takeWhile (due t.deadlineNs now)).length ∧
      counts.get (Str.lit "deadline_misses") =
        t.counts.get (Str.lit "deadline_misses") + (pending.takeWhile (due t.deadlineNs now)).length ∧
      ∀ key, key ≠ Str.lit "history_evictions" → key ≠ Str.lit "deadline_misses" →
        counts.get key = t.counts.get key := by
  induction pending generalizing t with
  | nil => exact ⟨t.recent, t.counts, rfl, id, by simp, by simp, fun _ _ _ => rfl⟩
  | cons p pending ih =>
    obtain ⟨requestId, sent⟩ := p
    by_cases hdue : now < sent + t.deadlineNs
    · have hnot : due t.deadlineNs now (requestId, sent) = false := by simp [due, hdue]
      refine ⟨t.recent, t.counts, ?_, id, ?_, ?_, fun _ _ _ => rfl⟩
      · simp [expire, hdue, hnot]
      · simp [hnot]
      · simp [hnot]
    · have hyes : due t.deadlineNs now (requestId, sent) = true := by simp [due]; omega
      obtain ⟨recent₁, counts₁, heq₁, hlen₁, htime₁, hkeys₁⟩ := remember_spec t requestId .timeout
      obtain ⟨recent, counts, heq, hlen, htime, hmiss, hkeys⟩ :=
        ih ((t.remember requestId .timeout).count "deadline_misses" 1)
      rw [heq₁] at heq hlen htime hmiss hkeys
      simp only [count] at heq hlen htime hmiss hkeys
      refine ⟨recent, counts, ?_, fun _ => hlen hlen₁, ?_, ?_, fun key hev hmi => ?_⟩
      · simp only [expire, if_neg hdue, List.dropWhile_cons, hyes, if_true]
        rw [heq₁]
        exact heq
      · simp only [List.takeWhile_cons, hyes, if_true, List.length_cons]
        simp only [if_true] at htime₁
        omega
      · rw [hmiss, Tally.get_add_self, hkeys₁ _ (by decide)]
        simp only [List.takeWhile_cons, hyes, if_true, List.length_cons]
        push_cast
        ring
      · rw [hkeys key hev hmi, Tally.get_add_other _ hmi, hkeys₁ key hev]

/-- What a call's `tick` does at the reading `now`. -/
structure Ticked (t : ProbeTracker I) (now : Nat) (t' : ProbeTracker I) : Prop where
  frame : ∃ recent counts, t' = { t with
    lastNow := now, pending := t.pending.dropWhile (due t.deadlineNs now), recent, counts }
  recent : t.recent.length ≤ t.history → t'.recent.length ≤ t.history
  timeouts : timeouts t'.recent ≤ timeouts t.recent + (t.pending.takeWhile (due t.deadlineNs now)).length
  misses : t'.n "deadline_misses" = t.n "deadline_misses" + (t.pending.takeWhile (due t.deadlineNs now)).length
  others : ∀ key, key ≠ Str.lit "history_evictions" → key ≠ Str.lit "deadline_misses" →
    t'.counts.get key = t.counts.get key

/-- **What `tick` does.** -/
theorem tick_spec {t t' : ProbeTracker I} {now : Int} (h : t.tick now = .ok t') :
    ∃ k : Nat, now = k ∧ k < 2 ^ 63 ∧ t.lastNow ≤ k ∧ Ticked t k t' := by
  unfold tick at h
  cases hc : clock t.lastNow now with
  | error e =>
    rw [hc] at h
    cases h
  | ok k =>
    rw [hc] at h
    obtain ⟨hnow, hmax, hlast⟩ := clock_ok.1 hc
    cases h
    refine ⟨k, hnow, by omega, hlast, ?_⟩
    obtain ⟨recent, counts, heq, hlen, htime, hmiss, hkeys⟩ := expire_spec k t.pending { t with lastNow := k }
    rw [heq]
    exact ⟨⟨recent, counts, rfl⟩, hlen, htime, hmiss, hkeys⟩

/-! ## Sending -/

/-- **What `sent` does**: after the tick, the request joins the end of the window. -/
theorem sent_spec {t t' : ProbeTracker I} {requestId now datagramBytes : Int}
    (h : t.sent requestId now datagramBytes = (t', .ok ())) :
    ∃ (id bytes : Nat) (t₁ : ProbeTracker I), requestId = id ∧ t.lastId < id ∧ t.tick now = .ok t₁ ∧
      t₁.pending.length < t₁.limit ∧
      t' = { t₁ with
        pending := t₁.pending ++ [(id, t₁.lastNow)]
        lastId := id
        highWater := max t₁.highWater (t₁.pending.length + 1)
        counts := (t₁.counts.add (Str.lit "sent") 1).add (Str.lit "sent_bytes") bytes } := by
  unfold sent at h
  split at h
  · cases h
  · rename_i id hid
    split at h
    · cases h
    · rename_i bytes hbytes
      split at h
      · cases h
      · rename_i t₁ ht₁
        unfold register at h
        split at h
        · cases h
        · rename_i hopen
          obtain ⟨hid, hmin, -⟩ := (integer_ok (by omega)).1 hid
          simp only [not_or, Nat.not_le] at hopen
          cases h
          refine ⟨id, bytes, t₁, hid, by omega, ht₁, hopen.2, ?_⟩
          simp [count]

/-! ## Replies -/

/-- What becomes of a counted reply. -/
inductive Classified (t : ProbeTracker I) (requestId : Nat) : ProbeTracker I → String → Prop
  | same (outcome : String) (h : outcome ∈ ["invalid_reply", "foreign_reply", "after_close", "duplicate_reply",
      "outside_history_or_unsent"]) : Classified t requestId t outcome
  | late (h : t.recent.lookup requestId = some .timeout) :
      Classified t requestId { t with recent := setRecent t.recent requestId .late } "late_reply"
  | timely (sent : Nat) (t' : ProbeTracker I) (h : t.pending.lookup requestId = some sent)
      (hanswer : t.answer requestId sent = (t', .ok "timely_reply")) : Classified t requestId t' "timely_reply"

/-- **What `answer` does** to the measurements. -/
theorem answer_spec {t t' : ProbeTracker I} {requestId sent : Nat} {outcome : String}
    (h : t.answer requestId sent = (t', .ok outcome)) : outcome = "timely_reply" ∧
      ∃ recent counts rtt intervalRtt, t' = { t with
          pending := t.pending.filter fun p => p.1 ≠ requestId, recent, counts, rtt, intervalRtt } ∧
        t.rtt.add (t.lastNow - sent) = .ok rtt ∧ t.intervalRtt.add (t.lastNow - sent) = .ok intervalRtt ∧
        recent.length ≤ t.history ∧ timeouts recent ≤ timeouts t.recent ∧
        ∀ key, key ≠ Str.lit "history_evictions" → counts.get key = t.counts.get key := by
  obtain ⟨recent, counts, heq, hlen, htime, hkeys⟩ :=
    remember_spec { t with pending := t.pending.filter fun p => p.1 ≠ requestId } requestId .replied
  unfold answer at h
  rw [heq] at h
  simp only at h
  split at h
  · cases h
  · rename_i rtt hrtt
    split at h
    · cases h
    · rename_i intervalRtt hinterval
      cases h
      exact ⟨rfl, recent, counts, rtt, intervalRtt, rfl, hrtt, hinterval, hlen, htime, hkeys⟩

theorem Classified.pending {t t' : ProbeTracker I} {requestId : Nat} {outcome : String}
    (h : Classified t requestId t' outcome) (htimely : outcome = "timely_reply") :
    ∃ sent, t.pending.lookup requestId = some sent := by
  cases h with
  | same _ hother =>
    subst htimely
    exact absurd hother (by decide)
  | late _ => exact absurd htimely (by decide)
  | timely sent _ hlookup _ => exact ⟨sent, hlookup⟩

theorem classify_spec [DecidableEq I] {t t' : ProbeTracker I} {identity : I} {requestId : Nat} {kind : Int}
    {valid : Bool} {outcome : String} (h : t.classify identity requestId kind valid = (t', .ok outcome)) :
    Classified t requestId t' outcome := by
  unfold classify at h
  split at h
  · cases h
    exact .same _ (by simp)
  · split at h
    · cases h
      exact .same _ (by simp)
    · split at h
      · cases h
        exact .same _ (by simp)
      · split at h
        · rename_i sent hsent
          obtain ⟨rfl, -⟩ := answer_spec h
          exact .timely sent t' hsent h
        · split at h
          · rename_i hrecent
            cases h
            exact .late hrecent
          · cases h
            exact .same _ (by simp)
          · cases h
            exact .same _ (by simp)

/-- **What `reply` does**: after the tick the datagram is counted and classified. -/
theorem reply_spec [DecidableEq I] {t t' : ProbeTracker I} {identity : I} {requestId : Nat}
    {kind now datagramBytes : Int} {valid : Bool} {outcome : String}
    (h : t.reply identity requestId kind now datagramBytes valid = (t', .ok outcome)) :
    ∃ (bytes : Nat) (t₁ t₂ : ProbeTracker I), t.tick now = .ok t₁ ∧
      Classified ((t₁.count "received_datagrams" 1).count "received_bytes" bytes) requestId t₂ outcome ∧
      t' = t₂.count outcome 1 := by
  unfold reply at h
  split at h
  · cases h
  · rename_i t₁ ht₁
    split at h
    · cases h
    · rename_i bytes hbytes
      simp only at h
      split at h
      · cases h
      · rename_i t₂ outcome' hclass
        cases h
        exact ⟨bytes, t₁, t₂, ht₁, classify_spec hclass, rfl⟩

/-! ## Stopping -/

/-- **What `finish` does**: what is left pending is unresolved. -/
theorem finish_spec {t t' : ProbeTracker I} {now : Int} {interrupted : Bool}
    (h : t.finish now interrupted = (t', .ok ())) :
    ∃ t₁, t.tick now = .ok t₁ ∧ (interrupted = false → t₁.pending = []) ∧
      t' = { (if interrupted then { t₁.count "unresolved_at_stop" t₁.pending.length with pending := [] } else t₁) with
        closed := true } := by
  unfold finish at h
  split at h
  · cases h
  · rename_i t₁ ht₁
    split at h
    · cases h
    · rename_i hdrained
      cases h
      refine ⟨t₁, ht₁, fun hi => ?_, rfl⟩
      by_contra hpending
      exact hdrained ⟨hpending, hi⟩

/-! ## Runs -/

inductive Call (I : Type)
  | sent (requestId now datagramBytes : Int)
  | reply (identity : I) (requestId : Nat) (kind now datagramBytes : Int) (valid : Bool)
  | tick (now : Int)
  | snapshot (resetInterval : Bool)
  | finish (now : Int) (interrupted : Bool)

/-- A call that does not raise, and the outcome of a reply. -/
inductive Step [DecidableEq I] (t : ProbeTracker I) : Call I → Option String → ProbeTracker I → Prop
  | sent {requestId now datagramBytes : Int} {t' : ProbeTracker I}
      (h : t.sent requestId now datagramBytes = (t', .ok ())) : Step t (.sent requestId now datagramBytes) none t'
  | reply {identity : I} {requestId : Nat} {kind now datagramBytes : Int} {valid : Bool} {t' : ProbeTracker I}
      {outcome : String} (h : t.reply identity requestId kind now datagramBytes valid = (t', .ok outcome)) :
      Step t (.reply identity requestId kind now datagramBytes valid) (some outcome) t'
  | tick {now : Int} {t' : ProbeTracker I} (h : t.tick now = .ok t') : Step t (.tick now) none t'
  | snapshot (resetInterval : Bool) : Step t (.snapshot resetInterval) none
      (if resetInterval then { t with intervalRtt := {} } else t)
  | finish {now : Int} {interrupted : Bool} {t' : ProbeTracker I}
      (h : t.finish now interrupted = (t', .ok ())) : Step t (.finish now interrupted) none t'

/-- What became of the requests, from the calls: those sent, those answered in
time with their round trips, those whose deadline passed and those pending when
the run was stopped. -/
structure Fates where
  sent : List Nat := []
  timely : List Nat := []
  rtts : List Nat := []
  missed : List Nat := []
  unresolved : List Nat := []

/-- The pending requests whose deadline has passed at `now`. -/
def expired (t : ProbeTracker I) (now : Int) : List Nat :=
  (t.pending.filter fun p => p.2 + t.deadlineNs ≤ now).map (·.1)

/-- The other pending requests. -/
def alive (t : ProbeTracker I) (now : Int) : List Nat :=
  (t.pending.filter fun p => now < p.2 + t.deadlineNs).map (·.1)

/-- The round trip of a pending request that is answered at `now`. -/
def roundTrip (t : ProbeTracker I) (requestId : Nat) (now : Int) : List Nat :=
  (t.pending.lookup requestId).toList.map fun sent : Nat => (now - sent).toNat

def Fates.miss (g : Fates) (ids : List Nat) : Fates := { g with missed := g.missed ++ ids }

/-- The fates after a call. -/
def Fates.after (g : Fates) (t : ProbeTracker I) (outcome : Option String) : Call I → Fates
  | .sent requestId now _ => { g.miss (t.expired now) with sent := g.sent ++ [requestId.toNat] }
  | .reply _ requestId _ now _ _ =>
    if outcome = some "timely_reply" then
      { g.miss (t.expired now) with
        timely := g.timely ++ [requestId]
        rtts := g.rtts ++ t.roundTrip requestId now }
    else g.miss (t.expired now)
  | .tick now => g.miss (t.expired now)
  | .snapshot _ => g
  | .finish now interrupted =>
    if interrupted then { g.miss (t.expired now) with unresolved := g.unresolved ++ t.alive now }
    else g.miss (t.expired now)

/-- A run of calls that do not raise. -/
inductive Run [DecidableEq I] (t₀ : ProbeTracker I) : ProbeTracker I → Fates → Prop
  | start : Run t₀ t₀ {}
  | call {t t' : ProbeTracker I} {g : Fates} {c : Call I} {outcome : Option String} :
      Run t₀ t g → Step t c outcome t' → Run t₀ t' (g.after t outcome c)

/-! ## The invariant -/

/-- The window and the history: pending requests in the order of their IDs and
of their times, both tables within their bounds. -/
structure Window (limit deadlineNs history : Nat) (t : ProbeTracker I) : Prop where
  limit_eq : t.limit = limit
  deadline_eq : t.deadlineNs = deadlineNs
  history_eq : t.history = history
  pending_le : t.pending.length ≤ limit
  recent_le : t.recent.length ≤ history
  increasing : t.pending.Pairwise fun p q => p.1 < q.1
  ids : ∀ p ∈ t.pending, p.1 ≤ t.lastId
  ordered : t.pending.Pairwise fun p q => p.2 ≤ q.2
  times : ∀ p ∈ t.pending, p.2 ≤ t.lastNow
  clock : t.lastNow < 2 ^ 63

/-- The counters and the fates. -/
structure Booked (deadlineNs : Nat) (t : ProbeTracker I) (g : Fates) : Prop where
  sent : t.n "sent" = g.sent.length
  timely : t.n "timely_reply" = g.timely.length
  missed : t.n "deadline_misses" = g.missed.length
  unresolved : t.n "unresolved_at_stop" = g.unresolved.length
  late : t.n "late_reply" + timeouts t.recent ≤ t.n "deadline_misses"
  increasing_sent : g.sent.Pairwise (· < ·)
  last : ∀ id ∈ g.sent, id ≤ t.lastId
  fates : g.sent.Perm (g.timely ++ g.missed ++ g.unresolved ++ t.pending.map (·.1))
  rtt : t.rtt = .of g.rtts
  interval : ∃ xs, t.intervalRtt = .of xs
  rtts : g.rtts.length = g.timely.length
  fast : ∀ x ∈ g.rtts, x < deadlineNs

structure Inv (limit deadlineNs history : Nat) (t : ProbeTracker I) (g : Fates) : Prop
    extends Window limit deadlineNs history t, Booked deadlineNs t g

variable {limit deadlineNs history : Nat}

/-- In the order of their times, the requests to take are at the front. -/
theorem dropWhile_due {pending : List (Nat × Nat)} (h : pending.Pairwise fun p q => p.2 ≤ q.2) (now : Nat) :
    pending.dropWhile (due deadlineNs now) = pending.filter fun p => !due deadlineNs now p := by
  induction pending with
  | nil => rfl
  | cons p pending ih =>
    obtain ⟨hp, hpending⟩ := List.pairwise_cons.1 h
    by_cases hdue : due deadlineNs now p = true
    · simp [hdue, ih hpending]
    · have hall : ∀ q ∈ pending, due deadlineNs now q = false := by
        intro q hq
        have := hp q hq
        simp [due] at hdue ⊢
        omega
      have hkeep : pending.filter (fun p => !due deadlineNs now p) = pending :=
        List.filter_eq_self.2 fun q hq => by simp [hall q hq]
      simp [hdue, hkeep]

theorem takeWhile_due {pending : List (Nat × Nat)} (h : pending.Pairwise fun p q => p.2 ≤ q.2) (now : Nat) :
    pending.takeWhile (due deadlineNs now) = pending.filter (due deadlineNs now) := by
  induction pending with
  | nil => rfl
  | cons p pending ih =>
    obtain ⟨hp, hpending⟩ := List.pairwise_cons.1 h
    by_cases hdue : due deadlineNs now p = true
    · simp [hdue, ih hpending]
    · have hall : ∀ q ∈ pending, ¬ due deadlineNs now q = true := by
        intro q hq
        have := hp q hq
        simp [due] at hdue ⊢
        omega
      simp [hdue, List.filter_eq_nil_iff.2 hall]

/-- The pending requests are those that expire and the others. -/
theorem pending_split (t : ProbeTracker I) (now : Int) :
    (t.pending.map (·.1)).Perm (t.expired now ++ t.alive now) := by
  unfold expired alive
  rw [← List.map_append]
  apply List.Perm.map
  have h := (List.filter_append_perm (fun p : Nat × Nat => decide ((p.2 : Int) + t.deadlineNs ≤ now)) t.pending).symm
  have hnot : (fun p : Nat × Nat => !decide ((p.2 : Int) + t.deadlineNs ≤ now)) =
      fun p => decide (now < p.2 + t.deadlineNs) := by
    funext p
    simp [← decide_not]
  rwa [hnot] at h

theorem expired_due (t : ProbeTracker I) (now : Nat) :
    t.expired now = (t.pending.filter (due t.deadlineNs now)).map (·.1) := by
  unfold expired
  congr 2
  funext p
  simp only [due, decide_eq_decide]
  omega

theorem alive_due (t : ProbeTracker I) (now : Nat) :
    t.alive now = (t.pending.filter fun p => !due t.deadlineNs now p).map (·.1) := by
  unfold alive
  congr 2
  funext p
  simp only [due, ← decide_not, decide_eq_decide]
  omega

/-- IDs that go up are in the window once. -/
theorem lookup_iff {pending : List (Nat × Nat)} (h : pending.Pairwise fun p q => p.1 < q.1) {id sent : Nat} :
    pending.lookup id = some sent ↔ (id, sent) ∈ pending := by
  have hnodup : (pending.map Prod.fst).Nodup := List.pairwise_map.2 (h.imp fun hlt => Nat.ne_of_lt hlt)
  exact ⟨Assoc.mem_of_lookup, Assoc.lookup_of_mem hnodup⟩

/-! ## Keeping it -/

/-- After the tick of a call the rest is within its deadline. -/
structure Current (t : ProbeTracker I) (now : Nat) : Prop where
  reading : t.lastNow = now
  young : ∀ p ∈ t.pending, now < p.2 + t.deadlineNs

/-- **The tick keeps the invariant**: what it takes is missed. -/
theorem Inv.tick {t t' : ProbeTracker I} {g : Fates} (h : Inv limit deadlineNs history t g) {now : Nat}
    (hclock : now < 2 ^ 63) (hlast : t.lastNow ≤ now) (ht : Ticked t now t') :
    Inv limit deadlineNs history t' (g.miss (t.expired now)) ∧ Current t' now ∧ t'.pending.Sublist t.pending ∧
      t'.pending.map (·.1) = t.alive now := by
  obtain ⟨⟨recent, counts, rfl⟩, hrecent, htimeouts, hmisses, hothers⟩ := ht
  rw [takeWhile_due h.ordered] at htimeouts hmisses
  have hdrop := @dropWhile_due t.deadlineNs _ h.ordered now
  have hsub : (t.pending.dropWhile (due t.deadlineNs now)).Sublist t.pending := List.dropWhile_sublist _
  have hexpired : (t.expired now).length = (t.pending.filter (due t.deadlineNs now)).length := by
    rw [expired_due, List.length_map]
  have hids : (t.pending.dropWhile (due t.deadlineNs now)).map (·.1) = t.alive now := by rw [hdrop, alive_due]
  refine ⟨{
    limit_eq := h.limit_eq
    deadline_eq := h.deadline_eq
    history_eq := h.history_eq
    pending_le := Nat.le_trans hsub.length_le h.pending_le
    recent_le := by
      rw [← h.history_eq]
      exact hrecent (by rw [h.history_eq]; exact h.recent_le)
    increasing := h.increasing.sublist hsub
    ids := fun p hp => h.ids p (hsub.subset hp)
    ordered := h.ordered.sublist hsub
    times := fun p hp => Nat.le_trans (h.times p (hsub.subset hp)) hlast
    clock := hclock
    sent := (hothers _ (by decide) (by decide)).trans h.sent
    timely := (hothers _ (by decide) (by decide)).trans h.timely
    missed := by
      rw [hmisses, h.missed, Fates.miss, List.length_append, hexpired]
      push_cast
      rfl
    unresolved := (hothers _ (by decide) (by decide)).trans h.unresolved
    late := by
      have hlate : counts.get (Str.lit "late_reply") = t.counts.get (Str.lit "late_reply") :=
        hothers _ (by decide) (by decide)
      have hmiss : counts.get (Str.lit "deadline_misses") =
          t.counts.get (Str.lit "deadline_misses") + (t.expired now).length := by
        rw [hexpired]
        exact hmisses
      have htime : timeouts recent ≤ timeouts t.recent + (t.expired now).length := by
        rw [hexpired]
        exact htimeouts
      have := h.late
      simp only [n] at this ⊢
      omega
    increasing_sent := h.increasing_sent
    last := h.last
    fates := by
      refine h.fates.trans ?_
      rw [hids]
      simp only [Fates.miss, List.append_assoc]
      refine List.Perm.append_left _ (List.Perm.append_left _ ?_)
      refine (List.Perm.append_left _ (pending_split t now)).trans ?_
      rw [← List.append_assoc, ← List.append_assoc]
      exact List.Perm.append_right _ List.perm_append_comm
    rtt := h.rtt
    interval := h.interval
    rtts := h.rtts
    fast := h.fast }, ⟨rfl, fun p hp => ?_⟩, hsub, hids⟩
  rw [hdrop] at hp
  simpa [due] using (List.mem_filter.1 hp).2

/-- The counts that the fates are held against. -/
def booked : List Str :=
  [Str.lit "sent", Str.lit "timely_reply", Str.lit "deadline_misses", Str.lit "unresolved_at_stop"]

/-- Other counts, the history and the interval may change. -/
theorem Inv.recount {t : ProbeTracker I} {g : Fates} (h : Inv limit deadlineNs history t g)
    {recent : List (Nat × Recent)} {counts : Tally} {intervalRtt : Histogram} (closed : Bool)
    (hkeys : ∀ key ∈ booked, counts.get key = t.counts.get key) (hrecent : recent.length ≤ history)
    (hlate : counts.get (Str.lit "late_reply") + timeouts recent ≤ t.counts.get (Str.lit "deadline_misses"))
    (hinterval : ∃ xs, intervalRtt = .of xs) :
    Inv limit deadlineNs history { t with recent, counts, intervalRtt, closed } g where
  limit_eq := h.limit_eq
  deadline_eq := h.deadline_eq
  history_eq := h.history_eq
  pending_le := h.pending_le
  recent_le := hrecent
  increasing := h.increasing
  ids := h.ids
  ordered := h.ordered
  times := h.times
  clock := h.clock
  sent := (hkeys _ (by simp [booked])).trans h.sent
  timely := (hkeys _ (by simp [booked])).trans h.timely
  missed := (hkeys _ (by simp [booked])).trans h.missed
  unresolved := (hkeys _ (by simp [booked])).trans h.unresolved
  late := by
    have hmiss := hkeys (Str.lit "deadline_misses") (by simp [booked])
    simp only [n]
    rw [hmiss]
    exact hlate
  increasing_sent := h.increasing_sent
  last := h.last
  fates := h.fates
  rtt := h.rtt
  interval := hinterval
  rtts := h.rtts
  fast := h.fast

/-- Counting under a key that is neither booked nor that of late replies. -/
theorem Inv.counted {t : ProbeTracker I} {g : Fates} (h : Inv limit deadlineNs history t g) {key : String}
    (hkey : Str.lit key ∉ booked) (hlate : Str.lit key ≠ Str.lit "late_reply") (amount : Int) :
    Inv limit deadlineNs history (t.count key amount) g := by
  have hne : ∀ k ∈ booked, k ≠ Str.lit key := fun k hk he => hkey (by rw [← he]; exact hk)
  refine h.recount t.closed (fun k hk => Tally.get_add_other _ (hne k hk) _) h.recent_le ?_ h.interval
  rw [Tally.get_add_other _ (Ne.symm hlate)]
  exact h.late

theorem Current.counted {t : ProbeTracker I} {now : Nat} (h : Current t now) (key : String) (amount : Int) :
    Current (t.count key amount) now := ⟨h.reading, h.young⟩

/-- A send touches two counters. -/
theorem get_of_sent (counts : Tally) (bytes : Int) {key : Str} (hbytes : key ≠ Str.lit "sent_bytes")
    (hsent : key ≠ Str.lit "sent") :
    ((counts.add (Str.lit "sent") 1).add (Str.lit "sent_bytes") bytes).get key = counts.get key := by
  rw [Tally.get_add_other _ hbytes, Tally.get_add_other _ hsent]

/-- A send. -/
theorem Inv.sent_step {t : ProbeTracker I} {g : Fates} (h : Inv limit deadlineNs history t g) {id bytes highWater : Nat}
    (hid : t.lastId < id) (hroom : t.pending.length < t.limit) :
    Inv limit deadlineNs history { t with
        pending := t.pending ++ [(id, t.lastNow)]
        lastId := id
        highWater
        counts := (t.counts.add (Str.lit "sent") 1).add (Str.lit "sent_bytes") bytes }
      { g with sent := g.sent ++ [id] } where
  limit_eq := h.limit_eq
  deadline_eq := h.deadline_eq
  history_eq := h.history_eq
  pending_le := by
    rw [List.length_append, List.length_singleton, ← h.limit_eq]
    exact hroom
  recent_le := h.recent_le
  increasing := by
    refine List.pairwise_append.2 ⟨h.increasing, List.pairwise_singleton _ _, fun p hp q hq => ?_⟩
    rw [List.mem_singleton.1 hq]
    exact Nat.lt_of_le_of_lt (h.ids p hp) hid
  ids p hp := by
    rcases List.mem_append.1 hp with hp | hp
    · exact Nat.le_of_lt (Nat.lt_of_le_of_lt (h.ids p hp) hid)
    · rw [List.mem_singleton.1 hp]
  ordered := by
    refine List.pairwise_append.2 ⟨h.ordered, List.pairwise_singleton _ _, fun p hp q hq => ?_⟩
    rw [List.mem_singleton.1 hq]
    exact h.times p hp
  times p hp := by
    rcases List.mem_append.1 hp with hp | hp
    · exact h.times p hp
    · rw [List.mem_singleton.1 hp]
  clock := h.clock
  sent := by
    have := h.sent
    simp only [n] at this ⊢
    rw [Tally.get_add_other _ (by decide), Tally.get_add_self, this]
    simp
  timely := by
    have := h.timely
    simp only [n] at this ⊢
    rw [get_of_sent _ _ (by decide) (by decide), this]
  missed := by
    have := h.missed
    simp only [n] at this ⊢
    rw [get_of_sent _ _ (by decide) (by decide), this]
  unresolved := by
    have := h.unresolved
    simp only [n] at this ⊢
    rw [get_of_sent _ _ (by decide) (by decide), this]
  late := by
    have := h.late
    simp only [n] at this ⊢
    rw [get_of_sent _ _ (by decide) (by decide), get_of_sent _ _ (by decide) (by decide)]
    exact this
  increasing_sent := by
    refine List.pairwise_append.2 ⟨h.increasing_sent, List.pairwise_singleton _ _, fun a ha b hb => ?_⟩
    rw [List.mem_singleton.1 hb]
    exact Nat.lt_of_le_of_lt (h.last a ha) hid
  last a ha := by
    rcases List.mem_append.1 ha with ha | ha
    · exact Nat.le_of_lt (Nat.lt_of_le_of_lt (h.last a ha) hid)
    · rw [List.mem_singleton.1 ha]
  fates := by
    rw [List.map_append, ← List.append_assoc]
    exact List.Perm.append_right _ h.fates
  rtt := h.rtt
  interval := h.interval
  rtts := h.rtts
  fast := h.fast

/-- An answered request leaves the window, alone. -/
theorem answered_perm {pending : List (Nat × Nat)} (h : pending.Pairwise fun p q => p.1 < q.1) {id sent : Nat}
    (hid : (id, sent) ∈ pending) :
    (pending.map (·.1)).Perm (id :: (pending.filter fun p => p.1 ≠ id).map (·.1)) := by
  have hnodup : (pending.map (·.1)).Nodup := List.pairwise_map.2 (h.imp fun hlt => Nat.ne_of_lt hlt)
  have hrest : ((pending.filter fun p => p.1 ≠ id).map (·.1)).Nodup :=
    hnodup.sublist (List.filter_sublist.map _)
  refine (List.perm_ext_iff_of_nodup hnodup (List.nodup_cons.2 ⟨?_, hrest⟩)).2 fun a => ?_
  · simp
  · constructor
    · intro ha
      obtain ⟨p, hp, rfl⟩ := List.mem_map.1 ha
      by_cases he : p.1 = id
      · simp [he]
      · exact List.mem_cons_of_mem _ (List.mem_map.2 ⟨p, List.mem_filter.2 ⟨hp, by simpa using he⟩, rfl⟩)
    · intro ha
      rcases List.mem_cons.1 ha with rfl | ha
      · exact List.mem_map.2 ⟨_, hid, rfl⟩
      · obtain ⟨p, hp, rfl⟩ := List.mem_map.1 ha
        exact List.mem_map.2 ⟨p, (List.mem_filter.1 hp).1, rfl⟩

/-- A reply in time. -/
theorem Inv.answered {t t' : ProbeTracker I} {g : Fates} (h : Inv limit deadlineNs history t g) {now : Nat}
    (hcurrent : Current t now) {id sent : Nat} (hid : t.pending.lookup id = some sent)
    (hanswer : t.answer id sent = (t', .ok "timely_reply")) :
    Inv limit deadlineNs history (t'.count "timely_reply" 1)
      { g with timely := g.timely ++ [id], rtts := g.rtts ++ [now - sent] } := by
  have hmem := (lookup_iff h.increasing).1 hid
  have hyoung : now < sent + t.deadlineNs := hcurrent.young _ hmem
  have hsent : sent ≤ now := hcurrent.reading ▸ h.times _ hmem
  have hclock : now < 2 ^ 63 := hcurrent.reading ▸ h.clock
  obtain ⟨-, recent, counts, rtt, intervalRtt, rfl, hrtt, hinterval, hrecent, htimeouts, hkeys⟩ := answer_spec hanswer
  have hvalue : (t.lastNow : Int) - sent = (now - sent : Nat) := by
    rw [hcurrent.reading]
    omega
  obtain ⟨xs, hxs⟩ := h.interval
  rw [h.rtt, hvalue, Histogram.add_of _ _ (by omega)] at hrtt
  rw [hxs, hvalue, Histogram.add_of _ _ (by omega)] at hinterval
  have hsub : (t.pending.filter fun p => p.1 ≠ id).Sublist t.pending := List.filter_sublist
  have hcount : ∀ key, key ≠ Str.lit "history_evictions" → key ≠ Str.lit "timely_reply" →
      (counts.add (Str.lit "timely_reply") 1).get key = t.counts.get key := fun key hev hti => by
    rw [Tally.get_add_other _ hti, hkeys key hev]
  exact {
    limit_eq := h.limit_eq
    deadline_eq := h.deadline_eq
    history_eq := h.history_eq
    pending_le := Nat.le_trans hsub.length_le h.pending_le
    recent_le := by
      rw [← h.history_eq]
      exact hrecent
    increasing := h.increasing.sublist hsub
    ids := fun p hp => h.ids p (hsub.subset hp)
    ordered := h.ordered.sublist hsub
    times := fun p hp => h.times p (hsub.subset hp)
    clock := h.clock
    sent := (hcount _ (by decide) (by decide)).trans h.sent
    timely := by
      have htimely : counts.get (Str.lit "timely_reply") = g.timely.length :=
        (hkeys _ (by decide)).trans h.timely
      simp only [n, count]
      rw [Tally.get_add_self, htimely]
      simp
    missed := (hcount _ (by decide) (by decide)).trans h.missed
    unresolved := (hcount _ (by decide) (by decide)).trans h.unresolved
    late := by
      have hlate := hcount (Str.lit "late_reply") (by decide) (by decide)
      have hmiss := hcount (Str.lit "deadline_misses") (by decide) (by decide)
      have := h.late
      simp only [n, count] at this ⊢
      omega
    increasing_sent := h.increasing_sent
    last := h.last
    fates := by
      refine h.fates.trans ?_
      simp only [List.append_assoc]
      refine List.Perm.append_left _ ?_
      refine (List.Perm.append_left _ (List.Perm.append_left _ (answered_perm h.increasing hmem))).trans ?_
      rw [← List.append_assoc]
      exact List.perm_middle.trans (by simp [count])
    rtt := (Except.ok.inj hrtt).symm
    interval := ⟨_, (Except.ok.inj hinterval).symm⟩
    rtts := by
      rw [List.length_append, List.length_append, h.rtts]
      rfl
    fast := fun x hx => by
      rcases List.mem_append.1 hx with hx | hx
      · exact h.fast x hx
      · rw [List.mem_singleton.1 hx, ← h.deadline_eq]
        omega }

/-- A stop with requests pending. -/
theorem Inv.stopped {t : ProbeTracker I} {g : Fates} (h : Inv limit deadlineNs history t g) :
    Inv limit deadlineNs history { t.count "unresolved_at_stop" t.pending.length with pending := [], closed := true }
      { g with unresolved := g.unresolved ++ t.pending.map (·.1) } where
  limit_eq := h.limit_eq
  deadline_eq := h.deadline_eq
  history_eq := h.history_eq
  pending_le := Nat.zero_le _
  recent_le := h.recent_le
  increasing := .nil
  ids p hp := by simp at hp
  ordered := .nil
  times p hp := by simp at hp
  clock := h.clock
  sent := (Tally.get_add_other _ (by decide) _).trans h.sent
  timely := (Tally.get_add_other _ (by decide) _).trans h.timely
  missed := (Tally.get_add_other _ (by decide) _).trans h.missed
  unresolved := by
    have := h.unresolved
    simp only [n, count] at this ⊢
    rw [Tally.get_add_self, this]
    simp
  late := by
    have := h.late
    simp only [n, count] at this ⊢
    rw [Tally.get_add_other _ (by decide), Tally.get_add_other _ (by decide)]
    exact this
  increasing_sent := h.increasing_sent
  last := h.last
  fates := by simpa using h.fates
  rtt := h.rtt
  interval := h.interval
  rtts := h.rtts
  fast := h.fast

/-- What the classification of a reply keeps. -/
theorem Inv.classified {t t' : ProbeTracker I} {g : Fates} (h : Inv limit deadlineNs history t g) {now : Nat}
    (hcurrent : Current t now) {id : Nat} {outcome : String} (hc : Classified t id t' outcome) :
    Inv limit deadlineNs history (t'.count outcome 1)
      (if outcome = "timely_reply" then
        { g with timely := g.timely ++ [id], rtts := g.rtts ++ t.roundTrip id now } else g) := by
  cases hc with
  | same outcome hother =>
    simp only [List.mem_cons, List.not_mem_nil, or_false] at hother
    rcases hother with rfl | rfl | rfl | rfl | rfl <;> exact h.counted (by decide) (by decide) 1
  | late hlookup =>
    have hless := timeouts_setRecent_late hlookup
    have hrecount := @Inv.recount I limit deadlineNs history t g h (setRecent t.recent id .late)
      (t.counts.add (Str.lit "late_reply") 1) t.intervalRtt t.closed
      (fun k hk => Tally.get_add_other _ (by intro he; subst he; revert hk; decide) _)
      (by rw [setRecent_length_late hlookup]; exact h.recent_le) ?_ h.interval
    · exact hrecount
    · have := h.late
      simp only [n] at this
      rw [Tally.get_add_self]
      omega
  | timely sent t' hlookup hanswer =>
    have hround : t.roundTrip id now = [now - sent] := by
      have hmem := (lookup_iff h.increasing).1 hlookup
      have hsent : sent ≤ now := hcurrent.reading ▸ h.times _ hmem
      simp only [roundTrip, hlookup, Option.toList_some, List.map_cons, List.map_nil, List.cons.injEq, and_true]
      omega
    rw [if_pos rfl, hround]
    exact h.answered hcurrent hlookup hanswer

/-- The window of a call is that before its tick, for requests within their deadline. -/
theorem roundTrip_tick {t t₁ : ProbeTracker I} (h : t.pending.Pairwise fun p q => p.1 < q.1)
    (hsub : t₁.pending.Sublist t.pending) {id sent : Nat} (hid : t₁.pending.lookup id = some sent) (now : Nat) :
    t.roundTrip id now = t₁.roundTrip id now := by
  have hmem := (lookup_iff (h.sublist hsub)).1 hid
  rw [roundTrip, roundTrip, hid, (lookup_iff h).2 (hsub.subset hmem)]

/-- **Every call keeps the invariant.** -/
theorem Inv.step [DecidableEq I] {t t' : ProbeTracker I} {g : Fates} (h : Inv limit deadlineNs history t g)
    {c : Call I} {outcome : Option String} (hstep : Step t c outcome t') :
    Inv limit deadlineNs history t' (g.after t outcome c) := by
  cases hstep with
  | @tick now t' ht =>
    obtain ⟨k, rfl, hclock, hlast, hticked⟩ := tick_spec ht
    exact (h.tick hclock hlast hticked).1
  | @sent requestId now bytes t' hs =>
    obtain ⟨id, bytes, t₁, rfl, hid, ht, hroom, rfl⟩ := sent_spec hs
    obtain ⟨k, rfl, hclock, hlast, hticked⟩ := tick_spec ht
    obtain ⟨h₁, -⟩ := h.tick hclock hlast hticked
    have hid₁ : t₁.lastId < id := by
      obtain ⟨⟨recent, counts, rfl⟩, -⟩ := hticked
      exact hid
    exact h₁.sent_step hid₁ hroom
  | @reply identity id kind now bytes valid t' outcome hr =>
    obtain ⟨bytes, t₁, t₂, ht, hclass, rfl⟩ := reply_spec hr
    obtain ⟨k, rfl, hclock, hlast, hticked⟩ := tick_spec ht
    obtain ⟨h₁, hcurrent, hsub, -⟩ := h.tick hclock hlast hticked
    have hdatagrams : Inv limit deadlineNs history (t₁.count "received_datagrams" 1) (g.miss (t.expired k)) :=
      h₁.counted (by decide) (by decide) 1
    have h₂ : Inv limit deadlineNs history ((t₁.count "received_datagrams" 1).count "received_bytes" bytes)
        (g.miss (t.expired k)) := hdatagrams.counted (by decide) (by decide) bytes
    have h₃ := h₂.classified ((hcurrent.counted "received_datagrams" 1).counted "received_bytes" bytes) hclass
    by_cases htimely : outcome = "timely_reply"
    · subst htimely
      obtain ⟨sent, hlookup⟩ := hclass.pending rfl
      simp only [Fates.after, if_true] at h₃ ⊢
      rw [roundTrip_tick h.increasing hsub hlookup]
      exact h₃
    · have hnot : some outcome ≠ some "timely_reply" := fun he => htimely (Option.some.inj he)
      simp only [Fates.after, if_neg hnot]
      rw [if_neg htimely] at h₃
      exact h₃
  | snapshot resetInterval =>
    cases resetInterval with
    | false => exact h
    | true => exact h.recount t.closed (fun _ _ => rfl) h.recent_le h.late ⟨[], Histogram.of_nil.symm⟩
  | @finish now interrupted t' hf =>
    obtain ⟨t₁, ht, hdrained, rfl⟩ := finish_spec hf
    obtain ⟨k, rfl, hclock, hlast, hticked⟩ := tick_spec ht
    obtain ⟨h₁, -, -, halive⟩ := h.tick hclock hlast hticked
    cases interrupted with
    | false => exact h₁.recount true (fun _ _ => rfl) h₁.recent_le h₁.late h₁.interval
    | true =>
      have h₂ := h₁.stopped
      rw [halive] at h₂
      exact h₂

/-- **Every run keeps the invariant.** -/
theorem run_inv [DecidableEq I] {t₀ t : ProbeTracker I} {g : Fates} (h₀ : Inv limit deadlineNs history t₀ {})
    (hrun : Run t₀ t g) : Inv limit deadlineNs history t g := by
  induction hrun with
  | start => exact h₀
  | call _ hstep ih => exact ih.step hstep

theorem new_inv {identity : I} {limit deadlineNs history : Int} {t : ProbeTracker I}
    (h : new identity limit deadlineNs history = .ok t) :
    limit = t.limit ∧ deadlineNs = t.deadlineNs ∧ history = t.history ∧
      Inv t.limit t.deadlineNs t.history t {} := by
  obtain ⟨hlimit, hdeadline, hhistory, ht⟩ := new_spec h
  refine ⟨hlimit, hdeadline, hhistory, ?_⟩
  rw [ht]
  exact {
    limit_eq := rfl
    deadline_eq := rfl
    history_eq := rfl
    pending_le := Nat.zero_le _
    recent_le := Nat.zero_le _
    increasing := .nil
    ids := by simp
    ordered := .nil
    times := by simp
    clock := by simp
    sent := rfl
    timely := rfl
    missed := rfl
    unresolved := rfl
    late := Int.le_refl _
    increasing_sent := .nil
    last := by simp
    fates := .nil
    rtt := Histogram.of_nil.symm
    interval := ⟨[], Histogram.of_nil.symm⟩
    rtts := rfl
    fast := by simp }

/-! ## Conservation -/

/-- A reply that is not in time leaves the totals where the tick of its call put them. -/
theorem reply_keeps [DecidableEq I] {t t' : ProbeTracker I} {identity : I} {requestId : Nat}
    {kind now datagramBytes : Int} {valid : Bool} {outcome : String}
    (h : t.reply identity requestId kind now datagramBytes valid = (t', .ok outcome))
    (houtcome : outcome ≠ "timely_reply") :
    ∃ t₁, t.tick now = .ok t₁ ∧ t'.n "timely_reply" = t.n "timely_reply" ∧
      t'.n "deadline_misses" = t₁.n "deadline_misses" ∧ t'.rtt = t.rtt := by
  obtain ⟨bytes, t₁, t₂, ht, hclass, rfl⟩ := reply_spec h
  obtain ⟨k, -, -, -, hticked⟩ := tick_spec ht
  have htimely : t₁.n "timely_reply" = t.n "timely_reply" := hticked.others _ (by decide) (by decide)
  have hrtt : t₁.rtt = t.rtt := by
    obtain ⟨⟨recent, counts, rfl⟩, -⟩ := hticked
    rfl
  have hcounted : ∀ key, Str.lit key ≠ Str.lit "received_datagrams" → Str.lit key ≠ Str.lit "received_bytes" →
      ((t₁.count "received_datagrams" 1).count "received_bytes" bytes).n key = t₁.n key := fun key hd hb => by
    simp only [n, count]
    rw [Tally.get_add_other _ hb, Tally.get_add_other _ hd]
  have hboth : ∀ key, Str.lit key ≠ Str.lit "received_datagrams" → Str.lit key ≠ Str.lit "received_bytes" →
      Str.lit key ≠ Str.lit outcome → (t₂.count outcome 1).n key = t₁.n key ∧ t₂.rtt = t₁.rtt := by
    intro key hd hb ho
    have hlast : (t₂.count outcome 1).n key = t₂.n key := Tally.get_add_other _ ho _
    cases hclass with
    | same _ _ => exact ⟨hlast.trans (hcounted key hd hb), rfl⟩
    | late _ => exact ⟨hlast.trans (hcounted key hd hb), rfl⟩
    | timely _ _ _ _ => exact absurd rfl houtcome
  have hother : Str.lit "timely_reply" ≠ Str.lit outcome ∧ Str.lit "deadline_misses" ≠ Str.lit outcome := by
    cases hclass with
    | same _ hmem =>
      simp only [List.mem_cons, List.not_mem_nil, or_false] at hmem
      rcases hmem with rfl | rfl | rfl | rfl | rfl <;> decide
    | late _ => decide
    | timely _ _ _ _ => exact absurd rfl houtcome
  obtain ⟨ht₂, hr⟩ := hboth "timely_reply" (by decide) (by decide) hother.1
  exact ⟨t₁, ht, ht₂.trans htimely, (hboth _ (by decide) (by decide) hother.2).1, hr.trans hrtt⟩

/-- **Probe conservation.** After any calls that do not raise: every request
sent is answered in time, missed, unresolved or pending, and only one of these;
the histogram is that of the timely round trips, all below the deadline; late
replies are timeouts; the tables are ordered and bounded. A late or duplicate
reply leaves the totals alone, and a tick leaves nothing past its deadline. -/
theorem probe_conservation [DecidableEq I] {identity : I} {limit deadlineNs history : Int} {t₀ t : ProbeTracker I}
    {g : Fates} (hnew : new identity limit deadlineNs history = .ok t₀) (hrun : Run t₀ t g) :
    t.n "sent" = t.n "timely_reply" + t.n "deadline_misses" + t.pending.length + t.n "unresolved_at_stop" ∧
    (t.rtt = .of g.rtts ∧ (t.rtt.count : Int) = t.n "timely_reply" ∧ ∀ x ∈ g.rtts, (x : Int) < deadlineNs) ∧
    t.n "late_reply" ≤ t.n "deadline_misses" ∧
    (g.sent.Perm (g.timely ++ g.missed ++ g.unresolved ++ t.pending.map (·.1)) ∧
      (g.timely ++ g.missed ++ g.unresolved ++ t.pending.map (·.1)).Nodup ∧
      t.n "sent" = g.sent.length ∧ t.n "timely_reply" = g.timely.length ∧
      t.n "deadline_misses" = g.missed.length ∧ t.n "unresolved_at_stop" = g.unresolved.length) ∧
    (∀ identity requestId kind now datagramBytes valid t' outcome,
      t.reply identity requestId kind now datagramBytes valid = (t', .ok outcome) →
      outcome = "late_reply" ∨ outcome = "duplicate_reply" →
      ∃ t₁, t.tick now = .ok t₁ ∧ t'.n "timely_reply" = t.n "timely_reply" ∧
        t'.n "deadline_misses" = t₁.n "deadline_misses" ∧ t'.rtt = t.rtt) ∧
    (t.pending.Pairwise (fun p q => p.2 ≤ q.2) ∧ (t.pending.length : Int) ≤ limit ∧
      (t.recent.length : Int) ≤ history) ∧
    (∀ now t', t.tick now = .ok t' → ∀ p ∈ t'.pending, now - p.2 < deadlineNs) := by
  obtain ⟨rfl, rfl, rfl, h₀⟩ := new_inv hnew
  have h := run_inv h₀ hrun
  have hnodup : g.sent.Nodup := h.increasing_sent.imp fun hlt => Nat.ne_of_lt hlt
  refine ⟨?_, ⟨h.rtt, ?_, fun x hx => ?_⟩, ?_, ⟨h.fates, h.fates.nodup hnodup, h.sent, h.timely, h.missed,
    h.unresolved⟩, ?_, ⟨h.ordered, ?_, ?_⟩, ?_⟩
  · have hlength := h.fates.length_eq
    simp only [List.length_append, List.length_map] at hlength
    rw [h.sent, h.timely, h.missed, h.unresolved]
    omega
  · rw [h.rtt, h.timely, ← h.rtts]
    rfl
  · have := h.fast x hx
    omega
  · have := h.late
    omega
  · intro identity requestId kind now datagramBytes valid t' outcome hreply houtcome
    refine reply_keeps hreply ?_
    rcases houtcome with rfl | rfl <;> decide
  · have := h.pending_le
    omega
  · have := h.recent_le
    omega
  · intro now t' ht p hp
    obtain ⟨k, rfl, hclock, hlast, hticked⟩ := tick_spec ht
    obtain ⟨h', hcurrent, -⟩ := h.tick hclock hlast hticked
    have := hcurrent.young p hp
    rw [h'.deadline_eq] at this
    omega

/-- Two requests: one answered in time, one answered at its deadline. -/
theorem probe_conservation_two : ∃ t₀ t : ProbeTracker Unit, ∃ g, new () 2 1000000 1 = .ok t₀ ∧ Run t₀ t g ∧
    g.timely = [1] ∧ g.missed = [2] ∧ t.n "late_reply" = 1 ∧
    t.n "sent" = t.n "timely_reply" + t.n "deadline_misses" + t.pending.length + t.n "unresolved_at_stop" := by
  have hnew : new () 2 1000000 1 = .ok { identity := (), limit := 2, deadlineNs := 1000000, history := 1 } := rfl
  have r₁ := @Run.start Unit _ { identity := (), limit := 2, deadlineNs := 1000000, history := 1 }
  have r₂ := r₁.call (@Step.sent Unit _ _ 1 0 64 _ rfl)
  have r₃ := r₂.call (@Step.sent Unit _ _ 2 500 64 _ rfl)
  have r₄ := r₃.call (@Step.reply Unit _ _ () 1 15 999999 64 true _ "timely_reply" rfl)
  have r₅ := r₄.call (@Step.reply Unit _ _ () 2 15 1000500 64 true _ "late_reply" rfl)
  exact ⟨_, _, _, hnew, r₅, rfl, rfl, rfl, (probe_conservation hnew r₅).1⟩

end Nucleo.Metrics.ProbeTracker
