import Nucleo.L3Protocol.IntervalEvidence

/-!
# The accounts of a load session

A load run as the client drives it: one probe tracker, one pacer and any
number of stream trackers, used in any order and reported in between. A call
may raise; what it had already written stays.

Results:
* `StreamTracker.Sound.next`, `Session.Sound.act`: what every call keeps.
* `Session.run_sound`: the trackers and the file of a whole session.
* `finish_closed`: what a final record says, when `finish` succeeds.
-/
namespace Nucleo.Metrics

open Json (Str)

/-! ## Counts -/

namespace Tally

/-- A `Counter` that was only ever added to. -/
structure Sound (t : Tally) : Prop where
  keys : (t.map Prod.fst).Nodup
  nonneg : ∀ e ∈ t, 0 ≤ e.2

theorem sound_nil : Sound [] := ⟨.nil, by simp⟩

theorem keys_add (t : Tally) (key : Str) (amount : Int) :
    (t.add key amount).map Prod.fst = if key ∈ t.map Prod.fst then t.map Prod.fst else t.map Prod.fst ++ [key] := by
  induction t with
  | nil => rfl
  | cons e t ih =>
    obtain ⟨k, v⟩ := e
    by_cases hk : k = key
    · simp [add, hk]
    · have hne : key ≠ k := Ne.symm hk
      simp only [add, if_neg hk, List.map_cons, ih, List.mem_cons, hne, false_or]
      split <;> rfl

theorem mem_add {t : Tally} {key : Str} {amount : Int} {e : Str × Int} (h : e ∈ t.add key amount) :
    e ∈ t ∨ e.2 = amount ∨ ∃ v, (key, v) ∈ t ∧ e.2 = v + amount := by
  induction t with
  | nil =>
    obtain rfl := List.mem_singleton.1 h
    exact .inr (.inl rfl)
  | cons e' t ih =>
    obtain ⟨k, v⟩ := e'
    unfold add at h
    split at h
    · rename_i hk
      subst hk
      rcases List.mem_cons.1 h with rfl | h
      · exact .inr (.inr ⟨v, List.mem_cons_self, rfl⟩)
      · exact .inl (List.mem_cons_of_mem _ h)
    · rcases List.mem_cons.1 h with rfl | h
      · exact .inl List.mem_cons_self
      · rcases ih h with h | h | ⟨w, hw, he⟩
        · exact .inl (List.mem_cons_of_mem _ h)
        · exact .inr (.inl h)
        · exact .inr (.inr ⟨w, List.mem_cons_of_mem _ hw, he⟩)

theorem Sound.add {t : Tally} (h : t.Sound) (key : Str) {amount : Int} (h0 : 0 ≤ amount) :
    (t.add key amount).Sound := by
  refine ⟨?_, fun e he => ?_⟩
  · rw [keys_add]
    split
    · exact h.keys
    · rename_i hnot
      refine List.nodup_append.2 ⟨h.keys, List.nodup_singleton _, fun a ha b hb heq => hnot ?_⟩
      rw [← List.mem_singleton.1 hb, ← heq]
      exact ha
  · rcases mem_add he with he | he | ⟨v, hv, he⟩
    · exact h.nonneg e he
    · omega
    · have := h.nonneg _ hv
      omega

end Tally

/-! ## Probes -/

namespace ProbeTracker

variable {I : Type}

theorem sound_count {t : ProbeTracker I} (h : t.counts.Sound) (key : String) {amount : Int} (h0 : 0 ≤ amount) :
    (t.count key amount).counts.Sound := h.add _ h0

theorem sound_evict (excess : Nat) {t : ProbeTracker I} (h : t.counts.Sound) : (evict excess t).counts.Sound := by
  induction excess generalizing t with
  | zero => exact h
  | succ excess ih => exact ih (@sound_count I { t with recent := t.recent.tail } h _ 1 (by decide))

theorem sound_remember {t : ProbeTracker I} (h : t.counts.Sound) (requestId : Nat) (state : Recent) :
    (t.remember requestId state).counts.Sound :=
  @sound_evict I _ { t with recent := setRecent t.recent requestId state } h

theorem sound_expire (now : Nat) (pending : List (Nat × Nat)) {t : ProbeTracker I} (h : t.counts.Sound) :
    (expire now pending t).counts.Sound := by
  induction pending generalizing t with
  | nil => exact h
  | cons p pending ih =>
    unfold expire
    split
    · exact h
    · exact ih (sound_count (sound_remember h _ _) _ (by decide))

theorem sound_tick {t t' : ProbeTracker I} {now : Int} (h : t.counts.Sound) (ht : t.tick now = .ok t') :
    t'.counts.Sound := by
  obtain ⟨k, -, ht⟩ := except_bind_ok.1 ht
  cases ht
  exact @sound_expire I k t.pending { t with lastNow := k } h

theorem sound_answer {t t' : ProbeTracker I} {requestId sent : Nat} {outcome : String} (h : t.counts.Sound)
    (ha : t.answer requestId sent = (t', .ok outcome)) : t'.counts.Sound := by
  have hremember :=
    @sound_remember I { t with pending := t.pending.filter fun p => p.1 ≠ requestId } h requestId .replied
  unfold answer at ha
  simp only at ha
  split at ha
  · cases ha
  · split at ha
    · cases ha
    · cases ha
      exact hremember

theorem sound_classified {t t' : ProbeTracker I} {requestId : Nat} {outcome : String} (h : t.counts.Sound)
    (hc : Classified t requestId t' outcome) : t'.counts.Sound := by
  cases hc with
  | same => exact h
  | late => exact h
  | timely sent t' _ ha => exact sound_answer h ha

/-- A send that raises has at most ticked. -/
theorem sent_raised {t t' : ProbeTracker I} {requestId now datagramBytes : Int} {e : String}
    (h : t.sent requestId now datagramBytes = (t', .error e)) : t' = t ∨ t.tick now = .ok t' := by
  unfold sent at h
  split at h
  · cases h
    exact .inl rfl
  · split at h
    · cases h
      exact .inl rfl
    · split at h
      · cases h
        exact .inl rfl
      · rename_i t₁ ht₁
        unfold register at h
        split at h
        · cases h
          exact .inr ht₁
        · cases h

/-- The two histograms take every round trip of the window. -/
theorem Inv.answer_ok {limit deadlineNs history : Nat} {t : ProbeTracker I} {g : Fates}
    (h : Inv limit deadlineNs history t g) {id sent : Nat} (hid : t.pending.lookup id = some sent) :
    ∃ t', t.answer id sent = (t', .ok "timely_reply") := by
  have hsent := h.times _ ((lookup_iff h.increasing).1 hid)
  have hclock := h.clock
  obtain ⟨recent, counts, heq, -⟩ :=
    remember_spec { t with pending := t.pending.filter fun p => p.1 ≠ id } id .replied
  obtain ⟨rtt, hrtt⟩ := @Histogram.add_ok t.rtt (t.lastNow - sent : Int) (by omega) (by omega)
  obtain ⟨intervalRtt, hinterval⟩ := @Histogram.add_ok t.intervalRtt (t.lastNow - sent : Int) (by omega) (by omega)
  unfold answer
  rw [heq]
  simp only [hrtt, hinterval]
  exact ⟨_, rfl⟩

/-- A reply that raises has at most ticked. -/
theorem Inv.reply_raised [DecidableEq I] {limit deadlineNs history : Nat} {t t' : ProbeTracker I} {g : Fates}
    (h : Inv limit deadlineNs history t g) {identity : I} {requestId : Nat} {kind now datagramBytes : Int} {valid : Bool}
    {e : String} (hr : t.reply identity requestId kind now datagramBytes valid = (t', .error e)) :
    t' = t ∨ t.tick now = .ok t' := by
  unfold reply at hr
  split at hr
  · cases hr
    exact .inl rfl
  · rename_i t₁ ht₁
    split at hr
    · cases hr
      exact .inr ht₁
    · rename_i bytes hbytes
      obtain ⟨k, rfl, hclock, hlast, hticked⟩ := tick_spec ht₁
      obtain ⟨h₁, -⟩ := h.tick hclock hlast hticked
      have h₂ : Inv limit deadlineNs history ((t₁.count "received_datagrams" 1).count "received_bytes" bytes) _ :=
        (h₁.counted (by decide) (by decide) 1).counted (by decide) (by decide) bytes
      simp only at hr
      -- the answer to a pending request does not raise, nor does any other outcome
      split at hr
      · rename_i t₂ e₂ hclass
        unfold classify at hclass
        split at hclass
        · cases hclass
        · split at hclass
          · cases hclass
          · split at hclass
            · cases hclass
            · split at hclass
              · rename_i sent hlookup
                obtain ⟨t₃, ht₃⟩ := h₂.answer_ok hlookup
                rw [ht₃] at hclass
                cases hclass
              · split at hclass <;> cases hclass
      · cases hr

/-- The accounts of the probes before the run is stopped. -/
structure Sound (t : ProbeTracker I) : Prop where
  inv : ∃ limit deadlineNs history g, Inv limit deadlineNs history t g ∧ g.unresolved = []
  counts : t.counts.Sound

theorem new_sound {identity : I} {limit deadlineNs history : Int} {t : ProbeTracker I}
    (h : new identity limit deadlineNs history = .ok t) : t.Sound := by
  obtain ⟨-, -, -, hinv⟩ := new_inv h
  refine ⟨⟨_, _, _, {}, hinv, rfl⟩, ?_⟩
  rw [(new_spec h).2.2.2]
  exact Tally.sound_nil

theorem Sound.tick [DecidableEq I] {t t' : ProbeTracker I} (h : t.Sound) {now : Int} (ht : t.tick now = .ok t') :
    t'.Sound := by
  obtain ⟨limit, deadlineNs, history, g, hinv, hnone⟩ := h.inv
  exact ⟨⟨limit, deadlineNs, history, _, hinv.step (.tick ht), hnone⟩, sound_tick h.counts ht⟩

theorem Sound.sent [DecidableEq I] {t : ProbeTracker I} (h : t.Sound) (requestId now datagramBytes : Int) :
    (t.sent requestId now datagramBytes).1.Sound := by
  cases hs : t.sent requestId now datagramBytes with
  | mk t' result =>
    cases result with
    | error e =>
      rcases sent_raised hs with rfl | ht
      · exact h
      · exact h.tick ht
    | ok u =>
      obtain ⟨limit, deadlineNs, history, g, hinv, hnone⟩ := h.inv
      refine ⟨⟨limit, deadlineNs, history, _, hinv.step (.sent hs), hnone⟩, ?_⟩
      obtain ⟨id, bytes, t₁, -, -, ht, -, rfl⟩ := sent_spec hs
      exact ((sound_tick h.counts ht).add _ (by decide)).add _ (Int.natCast_nonneg _)

theorem Sound.reply [DecidableEq I] {t : ProbeTracker I} (h : t.Sound) (identity : I) (requestId : Nat)
    (kind now datagramBytes : Int) (valid : Bool) :
    (t.reply identity requestId kind now datagramBytes valid).1.Sound := by
  obtain ⟨limit, deadlineNs, history, g, hinv, hnone⟩ := h.inv
  cases hr : t.reply identity requestId kind now datagramBytes valid with
  | mk t' result =>
    cases result with
    | error e =>
      rcases hinv.reply_raised hr with rfl | ht
      · exact h
      · exact h.tick ht
    | ok outcome =>
      refine ⟨⟨limit, deadlineNs, history, _, hinv.step (.reply hr), ?_⟩, ?_⟩
      · simp only [Fates.after]
        split <;> exact hnone
      · obtain ⟨bytes, t₁, t₂, ht, hclass, rfl⟩ := reply_spec hr
        have hcounted := sound_count (sound_count (sound_tick h.counts ht) "received_datagrams" Int.one_nonneg)
          "received_bytes" (Int.natCast_nonneg bytes)
        exact @sound_count I t₂ (sound_classified hcounted hclass) outcome 1 (by decide)

/-- A snapshot may start the histogram of the interval again. -/
theorem Sound.reset {t : ProbeTracker I} (h : t.Sound) : ({ t with intervalRtt := {} } : ProbeTracker I).Sound := by
  obtain ⟨limit, deadlineNs, history, g, hinv, hnone⟩ := h.inv
  exact ⟨⟨limit, deadlineNs, history, g, hinv.recount t.closed (fun _ _ => rfl) hinv.recent_le hinv.late
    ⟨[], Histogram.of_nil.symm⟩, hnone⟩, h.counts⟩

end ProbeTracker

/-- What the client counts itself: an outcome of the codec, a send that failed
and the like, never what the tracker books. -/
structure OwnKey where
  key : Str
  own : key ∉ Str.lit "late_reply" :: ProbeTracker.booked

namespace ProbeTracker

variable {I : Type}

theorem Sound.own {t : ProbeTracker I} (h : t.Sound) (k : OwnKey) :
    ({ t with counts := t.counts.add k.key 1 } : ProbeTracker I).Sound := by
  obtain ⟨limit, deadlineNs, history, g, hinv, hnone⟩ := h.inv
  obtain ⟨hlate, hbooked⟩ := not_or.1 (mt List.mem_cons.2 k.own)
  have hkeys : ∀ key ∈ booked, (t.counts.add k.key 1).get key = t.counts.get key := fun key hk =>
    Tally.get_add_other _ (fun he => hbooked (by rw [← he]; exact hk)) _
  refine ⟨⟨limit, deadlineNs, history, g, hinv.recount t.closed hkeys hinv.recent_le ?_ hinv.interval, hnone⟩,
    h.counts.add _ (by decide)⟩
  rw [Tally.get_add_other _ (Ne.symm hlate)]
  exact hinv.late

theorem Sound.health {t : ProbeTracker I} (h : t.Sound) (health : Json) :
    ({ t with lastHealth := health } : ProbeTracker I).Sound := by
  obtain ⟨limit, deadlineNs, history, g, hinv, hnone⟩ := h.inv
  refine ⟨⟨limit, deadlineNs, history, g, ?_, hnone⟩, h.counts⟩
  obtain ⟨hwindow, hbooked⟩ := hinv
  exact ⟨⟨hwindow.1, hwindow.2, hwindow.3, hwindow.4, hwindow.5, hwindow.6, hwindow.7, hwindow.8, hwindow.9, hwindow.10⟩,
    ⟨hbooked.1, hbooked.2, hbooked.3, hbooked.4, hbooked.5, hbooked.6, hbooked.7, hbooked.8, hbooked.9, hbooked.10,
      hbooked.11, hbooked.12⟩⟩

/-- What a final record says of the probes. -/
structure Closed (ranks : Ranks) (s : Snapshot) : Prop where
  counts : s.counts.Sound
  sent : s.counts.get (Str.lit "sent") =
    s.counts.get (Str.lit "timely_reply") + s.counts.get (Str.lit "deadline_misses")
  rtt : ∃ xs : List Nat, s.rtt = (Histogram.of xs).snapshot ranks ∧
    s.counts.get (Str.lit "timely_reply") = xs.length
  outstanding : s.outstanding = 0
  closed : s.closed = true

/-- **A run that is not interrupted leaves nothing open.** -/
theorem Sound.finish [DecidableEq I] {t t' : ProbeTracker I} (h : t.Sound) {now : Int}
    (hf : t.finish now false = (t', .ok ())) (ranks : Ranks) : Closed ranks (t'.snapshot ranks) := by
  obtain ⟨limit, deadlineNs, history, g, hinv, hnone⟩ := h.inv
  have hinv' := hinv.step (.finish hf)
  obtain ⟨t₁, ht, hdrained, rfl⟩ := finish_spec hf
  have hpending : t₁.pending = [] := hdrained rfl
  have hunresolved : (g.after t none (.finish now false)).unresolved = [] := hnone
  have hlength := hinv'.fates.length_eq
  have hsent : t₁.counts.get (Str.lit "sent") = _ := hinv'.sent
  have htimely : t₁.counts.get (Str.lit "timely_reply") = _ := hinv'.timely
  have hmissed : t₁.counts.get (Str.lit "deadline_misses") = _ := hinv'.missed
  have hrtt : t₁.rtt = _ := hinv'.rtt
  have hrtts := hinv'.rtts
  generalize g.after t none (.finish now false) = fates at *
  refine ⟨sound_tick h.counts ht, ?_, ⟨fates.rtts, congrArg (Histogram.snapshot · ranks) hrtt, ?_⟩, ?_, rfl⟩
  · change t₁.counts.get (Str.lit "sent") =
      t₁.counts.get (Str.lit "timely_reply") + t₁.counts.get (Str.lit "deadline_misses")
    rw [hsent, htimely, hmissed]
    simp [hunresolved, hpending] at hlength
    omega
  · rw [hrtts]
    exact htimely
  · exact congrArg List.length hpending

end ProbeTracker

/-! ## Streams -/

namespace StreamTracker

variable {I : Type}

/-- The accounts of a stream. -/
structure Sound (t : StreamTracker I) : Prop where
  timed : t.Timed
  inv : ∃ log, Matches t log
  counts : ∀ key, 0 ≤ t.counts key
  freshness : ∀ kind, 0 ≤ t.freshnessNs kind
  cursor : ∀ cursor, t.freshnessCursor = some cursor → cursor ≤ t.lastNow

theorem new_accounts {identity : I} {kind staleNs window : Int} {startNs : Option Int} {t : StreamTracker I}
    (h : new identity kind staleNs window startNs = .ok t) : t.Sound := by
  obtain ⟨htimed, hmatches⟩ := new_sound h
  obtain ⟨s, w, -, -, -, -, -, ⟨-, rfl⟩ | ⟨start, -, -, rfl⟩⟩ := new_ok h
  · exact ⟨htimed, ⟨_, hmatches⟩, fun _ => Int.le_refl 0, fun _ => Int.le_refl 0, nofun⟩
  · refine ⟨htimed, ⟨_, hmatches⟩, fun _ => Int.le_refl 0, fun _ => Int.le_refl 0, fun cursor hc => ?_⟩
    cases hc
    exact Nat.le_refl _

theorem add_nonneg {K : Type} [DecidableEq K] {c : Counter K} (h : ∀ key, 0 ≤ c key) (key : K) {amount : Int}
    (h0 : 0 ≤ amount) (k : K) : 0 ≤ c.add key amount k := by
  have := h k
  unfold Counter.add
  split <;> omega

/-- A piece of time is not negative. -/
theorem Sound.elapsed {t : StreamTracker I} (h : t.Sound) {now : Nat} (hle : t.lastNow ≤ now) (kind : Freshness) :
    0 ≤ t.elapsed now kind := by
  unfold StreamTracker.elapsed
  cases hcursor : t.freshnessCursor with
  | none => exact h.freshness kind
  | some cursor =>
    have hcursor := h.cursor cursor hcursor
    dsimp only
    split
    · exact h.freshness kind
    · cases t.lastProgress with
      | none => exact add_nonneg h.freshness _ (by omega) kind
      | some progress => exact add_nonneg (add_nonneg h.freshness _ (Int.le_max_left _ _)) _ (by omega) kind

theorem Sound.tick {t : StreamTracker I} (h : t.Sound) {now : Nat} (hle : t.lastNow ≤ now) (hmax : now ≤ 2 ^ 63 - 1) :
    (t.tick now).Sound := by
  obtain ⟨log, hmatches⟩ := h.inv
  refine ⟨h.timed.tick hle hmax, ⟨log, hmatches.tick now⟩, h.counts, h.elapsed hle, fun cursor hc => ?_⟩
  cases hc
  exact Nat.le_refl _

/-- What leaves the window has no more bits than positions. -/
theorem Matches.evictedGaps_nonneg {t : StreamTracker I} {log : Log} (h : Matches t log) (advance : Nat) :
    0 ≤ t.evictedGaps advance := by
  have hlt : t.bits >>> (t.window - advance) < 2 ^ (t.width - (t.window - advance)) := by
    refine Bits.lt_two_pow_iff.2 fun i hi => ?_
    rw [Nat.testBit_shiftRight]
    exact Bits.lt_two_pow_iff.1 h.bits_lt _ (by omega)
  have hcount := Bits.bitCount_le hlt
  have hwidth := h.width_le
  unfold evictedGaps
  omega

theorem Matches.pendingGaps_nonneg {t : StreamTracker I} {log : Log} (h : Matches t log) : 0 ≤ t.pendingGaps := by
  have hcount := Bits.bitCount_le h.bits_lt
  unfold pendingGaps
  omega

theorem received_nonneg {t : StreamTracker I} (h : t.Sound) (bytes : Nat) (key : StreamCount) :
    0 ≤ t.received bytes key :=
  add_nonneg (add_nonneg h.counts _ (by decide)) _ (Int.natCast_nonneg _) key

theorem Sound.move [DecidableEq I] {t t' : StreamTracker I} {c : Call I} {answer : Except String Answer}
    (h : t.Sound) (hm : Move t c answer t') : t'.Sound := by
  have htimed := hm.timed h.timed
  obtain ⟨log, hmatches⟩ := h.inv
  have hinv : ∃ log, Matches t' log := ⟨_, hm.matches hmatches⟩
  have hreceived := received_nonneg h
  cases hm with
  | raised | snapshot | again => exact h
  | idle => exact ⟨htimed, hinv, add_nonneg (hreceived _) _ (by decide), h.freshness, h.cursor⟩
  | baseline | reordered => exact ⟨htimed, hinv, add_nonneg (hreceived _) _ (by decide), h.freshness, h.cursor⟩
  | progress =>
    exact ⟨htimed, hinv, add_nonneg (add_nonneg (hreceived _) _ (hmatches.evictedGaps_nonneg _)) _ (by decide),
      h.freshness, h.cursor⟩
  | finish => exact ⟨htimed, hinv, add_nonneg h.counts _ hmatches.pendingGaps_nonneg, h.freshness, h.cursor⟩

/-- **Every call keeps the accounts of a stream.** -/
theorem Sound.next [DecidableEq I] {t : StreamTracker I} (h : t.Sound) (c : Call I) : (machine.next t c).Sound := by
  rcases next_cases h.timed c with ⟨-, hsame, -⟩ | ⟨now, -, hle, hmax, hm⟩
  · rw [hsame]
    exact h
  · exact (h.tick hle hmax).move hm

/-- What a final record says of a stream. -/
structure Closed (s : Snapshot) : Prop where
  counts : ∀ key, 0 ≤ s.counts key
  freshness : ∀ kind, 0 ≤ s.freshnessNs kind
  closed : s.closed = true
  pendingGaps : s.pendingGaps = 0

/-- **The snapshot of a closed stream.** -/
theorem Sound.snapshot_closed [DecidableEq I] {t t' : StreamTracker I} (h : t.Sound) (hc : t.closed = true)
    {ranks : Ranks} {now : Int} {s : Snapshot} (hs : t.snapshot ranks now = (t', .ok s)) : Closed s := by
  have hsound : t'.Sound := by
    have hnext := h.next (.snapshot ranks now)
    have hstate : machine.next t (.snapshot ranks now) = t' := congrArg Prod.fst hs
    rwa [hstate] at hnext
  unfold snapshot at hs
  cases ha : t.advanceFreshness now with
  | error e =>
    rw [ha] at hs
    cases hs
  | ok t₁ =>
    rw [ha] at hs
    cases hs
    have hclosed : t'.closed = true := by
      obtain ⟨k, -, ha⟩ := except_bind_ok.1 ha
      cases ha
      exact hc
    obtain ⟨log, hmatches⟩ := hsound.inv
    obtain ⟨hbits, hwidth⟩ := hmatches.closed hclosed
    exact ⟨hsound.counts, hsound.freshness, hclosed, by simp [pendingGaps, hbits, hwidth]⟩

/-- `finish` closes what it does not raise on. -/
theorem finish_closes {t t' : StreamTracker I} {now : Int} (h : t.finish now = (t', .ok ())) : t'.closed = true := by
  unfold finish at h
  split at h
  · cases h
  · split at h
    · rename_i hc
      cases h
      exact hc
    · cases h
      rfl

end StreamTracker

/-! ## Sessions -/

variable {I : Type}

/-- A call of the client, on the trackers or on the report. -/
inductive Op (I : Type)
  | sent (requestId now datagramBytes : Int)
  | reply (identity : I) (requestId : Nat) (kind now datagramBytes : Int) (valid : Bool)
  | tick (now : Int)
  /-- `snapshot(reset_interval)` -/
  | reset
  | count (key : OwnKey)
  | health (health : Json)
  | due (now : Int) (windowAvailable : Bool)
  | stream (index : Nat) (call : StreamTracker.Call I)
  | interval (now : Int)
  | diagnostic (now : Int) (values : List (Str × Json))

/-- The report and what it reports on. -/
structure Session (I : Type) where
  report : RunReport
  trackers : Trackers I

namespace Session

/-- The session with other probes. -/
def withProbes (s : Session I) (probes : ProbeTracker I) : Session I :=
  { s with trackers := { s.trackers with probes } }

/-- One call, whether it raises or not. -/
def act [DecidableEq I] (lib : Floats) (ranks : Ranks) (s : Session I) : Op I → Session I
  | .sent requestId now datagramBytes => s.withProbes (s.trackers.probes.sent requestId now datagramBytes).1
  | .reply identity requestId kind now datagramBytes valid =>
    s.withProbes (s.trackers.probes.reply identity requestId kind now datagramBytes valid).1
  | .tick now =>
    match s.trackers.probes.tick now with
    | .error _ => s
    | .ok probes => s.withProbes probes
  | .reset => s.withProbes { s.trackers.probes with intervalRtt := {} }
  | .count k => s.withProbes { s.trackers.probes with counts := s.trackers.probes.counts.add k.key 1 }
  | .health health => s.withProbes { s.trackers.probes with lastHealth := health }
  | .due now windowAvailable =>
    match s.trackers.pacing.due now windowAvailable with
    | .error _ => s
    | .ok (pacing, _) => { s with trackers := { s.trackers with pacing } }
  | .stream index call =>
    { s with trackers := { s.trackers with
      streams := s.trackers.streams.modify index fun t => StreamTracker.machine.next t call } }
  | .interval now =>
    let (report, trackers) := (s.report.interval lib ranks now s.trackers).1
    ⟨report, trackers⟩
  | .diagnostic now values =>
    match s.report.diagnostic now values with
    | .error _ => s
    | .ok report => { s with report }

def run [DecidableEq I] (lib : Floats) (ranks : Ranks) (s : Session I) (ops : List (Op I)) : Session I :=
  ops.foldl (act lib ranks) s

/-- New trackers and a new report. -/
structure Opened (s : Session I) : Prop where
  report : ∃ metadata startNs, RunReport.new metadata startNs = .ok s.report
  probes : ∃ identity limit deadlineNs history,
    ProbeTracker.new identity limit deadlineNs history = .ok s.trackers.probes
  pacing : ∃ startNs hz, Pacer.new startNs hz = .ok s.trackers.pacing
  streams : ∀ t ∈ s.trackers.streams, ∃ identity kind staleNs window startNs,
    StreamTracker.new identity kind staleNs window startNs = .ok t

/-- What every call keeps. -/
structure Sound (s : Session I) : Prop where
  probes : s.trackers.probes.Sound
  streams : ∀ t ∈ s.trackers.streams, t.Sound
  report : ∃ records : List Json, s.report.jsonl = records.flatMap RunReport.line

theorem Opened.sound {s : Session I} (h : s.Opened) : s.Sound := by
  obtain ⟨⟨metadata, startNs, hr⟩, ⟨identity, limit, deadlineNs, history, hp⟩, -, hs⟩ := h
  refine ⟨ProbeTracker.new_sound hp, fun t ht => ?_, ?_⟩
  · obtain ⟨identity, kind, staleNs, window, startNs, hnew⟩ := hs t ht
    exact StreamTracker.new_accounts hnew
  · obtain ⟨start, -, hr⟩ := except_bind_ok.1 hr
    refine ⟨[RunReport.manifest metadata start], ?_⟩
    rw [← Except.ok.inj hr]
    simp [RunReport.write]

end Session

/-- The streams after their snapshots, those that raised with them. -/
theorem snapshots_sound [DecidableEq I] (ranks : Ranks) (now : Int) {streams : List (StreamTracker I)}
    (h : ∀ t ∈ streams, t.Sound) (done : List (Str × Json)) :
    ∀ t ∈ (RunReport.snapshots ranks now done streams).1, t.Sound := by
  induction streams generalizing done with
  | nil => simp [RunReport.snapshots]
  | cons s streams ih =>
    have hrest : ∀ t ∈ streams, t.Sound := fun t ht => h t (List.mem_cons_of_mem _ ht)
    have hnext : (s.snapshot ranks now).1.Sound := (h s List.mem_cons_self).next (.snapshot ranks now)
    unfold RunReport.snapshots
    split
    · rename_i s' e he
      rw [he] at hnext
      intro t ht
      rcases List.mem_cons.1 ht with rfl | ht
      · exact hnext
      · exact hrest t ht
    · rename_i s' snapshot hs
      rw [hs] at hnext
      intro t ht
      rcases List.mem_cons.1 ht with rfl | ht
      · exact hnext
      · exact ih hrest _ t ht

namespace Session

variable [DecidableEq I] {lib : Floats} {ranks : Ranks} {s : Session I}

omit [DecidableEq I] in
theorem Sound.withProbes (h : s.Sound) {probes : ProbeTracker I} (hp : probes.Sound) : (s.withProbes probes).Sound :=
  ⟨hp, h.streams, h.report⟩

omit [DecidableEq I] in
theorem written {r : RunReport} (h : ∃ records : List Json, r.jsonl = records.flatMap RunReport.line) (record : Json) :
    ∃ records : List Json, (r.write record).jsonl = records.flatMap RunReport.line := by
  obtain ⟨records, hr⟩ := h
  exact ⟨records ++ [record], by simp [RunReport.write, hr]⟩

theorem Sound.interval (h : s.Sound) (now : Int) : (s.act lib ranks (.interval now)).Sound := by
  simp only [act]
  unfold RunReport.interval
  split
  · exact h
  · rename_i k hk
    split
    · exact h
    · split
      · exact h
      · rename_i probes hp
        have hprobes := h.probes.tick hp
        have hstreams := snapshots_sound ranks k h.streams []
        split
        · rename_i streams e hs
          rw [hs] at hstreams
          exact ⟨hprobes, hstreams, h.report⟩
        · rename_i streams fields hs
          rw [hs] at hstreams
          exact ⟨hprobes.reset, hstreams, written h.report _⟩

/-- **Every call keeps the accounts.** -/
theorem Sound.act (h : s.Sound) (op : Op I) : (s.act lib ranks op).Sound := by
  cases op with
  | sent requestId now datagramBytes => exact h.withProbes (h.probes.sent _ _ _)
  | reply identity requestId kind now datagramBytes valid => exact h.withProbes (h.probes.reply _ _ _ _ _ _)
  | tick now =>
    simp only [Session.act]
    split
    · exact h
    · rename_i probes hp
      exact h.withProbes (h.probes.tick hp)
  | reset => exact h.withProbes h.probes.reset
  | count k => exact h.withProbes (h.probes.own k)
  | health health => exact h.withProbes (h.probes.health health)
  | due now windowAvailable =>
    simp only [Session.act]
    split
    · exact h
    · exact ⟨h.probes, h.streams, h.report⟩
  | stream index call =>
    refine ⟨h.probes, fun t ht => ?_, h.report⟩
    obtain ⟨i, hi, ht⟩ := List.mem_iff_getElem.1 ht
    simp only [Session.act, List.getElem_modify] at ht
    simp only [Session.act, List.length_modify] at hi
    have hmem := h.streams _ (List.getElem_mem hi)
    split at ht
    · rw [← ht]
      exact hmem.next call
    · rw [← ht]
      exact hmem
  | interval now => exact h.interval now
  | diagnostic now values =>
    simp only [Session.act]
    split
    · exact h
    · rename_i report hr
      obtain ⟨k, -, hr⟩ := except_bind_ok.1 hr
      split at hr
      · cases hr
      · cases hr
        exact ⟨h.probes, h.streams, written h.report _⟩

/-- **Every session keeps the accounts.** -/
theorem run_sound (h : s.Opened) (ops : List (Op I)) : (s.run lib ranks ops).Sound := by
  have hsound := h.sound
  clear h
  induction ops generalizing s with
  | nil => exact hsound
  | cons op ops ih => exact ih (hsound.act op)

end Session

/-! ## The final record -/

/-- What is assigned is in the dictionary, and the rest was there. -/
theorem mem_assign {fields : List (Str × Json)} {key : Str} {value : Json} {f : Str × Json}
    (h : f ∈ assign fields key value) : f = (key, value) ∨ f ∈ fields := by
  induction fields with
  | nil => exact .inl (List.mem_singleton.1 h)
  | cons e fields ih =>
    obtain ⟨k, v⟩ := e
    unfold assign at h
    split at h
    · rcases List.mem_cons.1 h with rfl | h
      · exact .inl rfl
      · exact .inr (List.mem_cons_of_mem _ h)
    · rcases List.mem_cons.1 h with rfl | h
      · exact .inr List.mem_cons_self
      · exact (ih h).imp_right (List.mem_cons_of_mem _)

variable [DecidableEq I]

theorem finishAll_closed {now : Int} {streams streams' : List (StreamTracker I)} (h : ∀ t ∈ streams, t.Sound)
    (hf : RunReport.finishAll now streams = (streams', .ok ())) : ∀ t ∈ streams', t.Sound ∧ t.closed = true := by
  induction streams generalizing streams' with
  | nil =>
    cases hf
    simp
  | cons s streams ih =>
    have hnext : (s.finish now).1.Sound := (h s List.mem_cons_self).next (.finish now)
    unfold RunReport.finishAll at hf
    split at hf
    · cases hf
    · rename_i s' hs
      cases hrest : RunReport.finishAll now streams with
      | mk rest result =>
        rw [hrest] at hf
        cases hf
        rw [hs] at hnext
        intro t ht
        rcases List.mem_cons.1 ht with rfl | ht
        · exact ⟨hnext, StreamTracker.finish_closes hs⟩
        · exact ih (fun t ht => h t (List.mem_cons_of_mem _ ht)) hrest t ht

theorem snapshots_closed {ranks : Ranks} {now : Int} {streams streams' : List (StreamTracker I)}
    {done fields : List (Str × Json)} (h : ∀ t ∈ streams, t.Sound ∧ t.closed = true)
    (hdone : ∀ f ∈ done, ∃ s : StreamTracker.Snapshot, f.2 = s.json ∧ StreamTracker.Closed s)
    (hs : RunReport.snapshots ranks now done streams = (streams', .ok fields)) :
    ∀ f ∈ fields, ∃ s : StreamTracker.Snapshot, f.2 = s.json ∧ StreamTracker.Closed s := by
  induction streams generalizing done streams' with
  | nil =>
    cases hs
    exact hdone
  | cons t streams ih =>
    unfold RunReport.snapshots at hs
    split at hs
    · cases hs
    · rename_i t' snapshot ht
      obtain ⟨hsound, hclosed⟩ := h t List.mem_cons_self
      have hsnapshot := hsound.snapshot_closed hclosed ht
      cases hrest : RunReport.snapshots ranks now (assign done (str t'.kind) snapshot.json) streams with
      | mk rest result =>
        rw [hrest] at hs
        cases hs
        refine ih (fun t ht => h t (List.mem_cons_of_mem _ ht)) (fun f hf => ?_) hrest
        rcases mem_assign hf with rfl | hf
        · exact ⟨snapshot, rfl, hsnapshot⟩
        · exact hdone f hf

/-- **What a final record says**, when `finish(complete=True)` succeeds. -/
theorem finish_closed {ranks : Ranks} {s : Session I} (h : s.Sound) {r' : RunReport} {t' : Trackers I} {now : Int}
    {reason : Str} (hf : s.report.finish ranks now reason true s.trackers = ((r', t'), .ok ())) :
    ∃ (k : Nat) (snapshot : ProbeTracker.Snapshot) (fields : List (Str × Json)),
      ProbeTracker.Closed ranks snapshot ∧
      (∀ f ∈ fields, ∃ s : StreamTracker.Snapshot, f.2 = s.json ∧ StreamTracker.Closed s) ∧
      r'.jsonl = s.report.jsonl ++
        RunReport.line (RunReport.finalRecord s.report k reason true snapshot s.trackers.pacing fields) := by
  unfold RunReport.finish at hf
  split at hf
  · cases hf
  split at hf
  · cases hf
  rename_i k hk
  split at hf
  · cases hf
  split at hf
  · cases hf
  rename_i probes u hp
  have hprobes := h.probes.finish hp ranks
  split at hf
  · cases hf
  rename_i streams u hs
  have hstreams := finishAll_closed h.streams hs
  split at hf
  · cases hf
  rename_i streams' fields hfields
  cases hf
  exact ⟨k, _, fields, hprobes, snapshots_closed hstreams (by simp) hfields, rfl⟩

end Nucleo.Metrics
