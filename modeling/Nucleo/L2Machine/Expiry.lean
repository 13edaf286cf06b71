import Nucleo.L2Machine.Load

/-!
# The expiry cursor of a load

When the window is full the sender calls `expire_old`, which sweeps the packet
states from a cursor that is never reset, and stops at the first packet that is
still young. The receiver takes states to 2 all the while. That the sweep misses
nothing rests on send times that do not go back; on the datagrams it rests in no
way: here any datagram may arrive at any time, forged ones included.

Results:
* `reachable_swept`: what holds of the cursor in every state of every run.
* `ExpireOld.expires`: what a call expires and what it takes off the counter.
* `expire_exact`: the cursor is exact, and a call makes room once a packet is old.
-/
namespace Nucleo.Echo

/-! ## Runs -/

/-- The time a sequence is stamped with is none before those already stamped. -/
def InOrder (s s' : Load) : Prop :=
  s.sender = .stamp → ∀ index < s.sequence, s.sentNs index ≤ s'.sentNs s.sequence

/-- `load` with nondecreasing send times. -/
def loadInOrder (cfg : Config) (datagrams : List Bytes) : LTS Load Thread where
  init := (load cfg datagrams).init
  step s thread s' := (load cfg datagrams).step s thread s' ∧ (thread = .sender → InOrder s s')

/-- The time of the call of `expire_old` the sender is in. -/
def SenderAt.calling : SenderAt → Option UInt64
  | .expire now_ns | .expireTime now_ns | .expireSwap now_ns | .expireSub now_ns => some now_ns
  | _ => none

/-- Steps of a run while a call goes on, of either thread. -/
def ExpireOld (cfg : Config) (datagrams : List Bytes) (now_ns : UInt64) :
    Load → List (Load × Thread × Load) → Load → Prop :=
  (loadInOrder cfg datagrams).Trace fun s => s.sender.calling = some now_ns

/-- The sequences a step takes from state 1 to state 3. -/
def moved (step : Load × Thread × Load) : List Nat :=
  (List.range step.1.states.length).filter fun index =>
    step.1.state index = .outstanding ∧ step.2.2.state index = .expired

/-- The cursor, once for each the sender takes off the counter. -/
def paid : Load × Thread × Load → List Nat
  | (s, .sender, s') => List.replicate (s.outstanding - s'.outstanding).toNat s.cursor
  | (_, .receiver, _) => []

/-- The age of a sequence. -/
def Load.ageNs (s : Load) (now_ns : UInt64) (index : Nat) : Nat := now_ns.toNat - (s.sentNs index).toNat

/-! ## Where the sender is

How far ahead of the cursor, or of the sequence, it has come at a point: 0 or 1. -/

/-- The cursor's sequence is behind the sender's. -/
def SenderAt.looked : SenderAt → Nat
  | .expireTime _ | .expireSwap _ | .expireSub _ => 1
  | _ => 0

/-- The cursor's sequence is expired. -/
def SenderAt.swept : SenderAt → Nat
  | .expireSub _ => 1
  | _ => 0

/-- The sender's sequence is stamped. -/
def SenderAt.stamped : SenderAt → Nat
  | .publish _ | .raise _ | .send _ | .sent | .failed | .failedSub | .failedCount => 1
  | _ => 0

/-- It may be in state 1. -/
def SenderAt.published : SenderAt → Nat
  | .raise _ | .send _ | .sent | .failed => 1
  | _ => 0

/-- It is about to be. -/
def SenderAt.admitted : SenderAt → Nat
  | .stamp | .publish _ => 1
  | _ => 0

/-! ## The invariant -/

structure Sized (cfg : Config) (s : Load) : Prop where
  states : s.states.length = cfg.count
  times : s.sent_times.length = cfg.count
  inside : s.sender.inside = true → s.sequence < cfg.count

/-- The cursor is behind the sender; only sequences between the two are in state 1. -/
structure Between (s : Load) : Prop where
  cursor : s.cursor + s.sender.looked ≤ s.sequence
  below : ∀ index < s.cursor + s.sender.swept, s.state index ≠ .outstanding
  ahead : ∀ index, s.state index = .outstanding → index < s.sequence + s.sender.published

/-- The times up to the sender's do not go back. -/
def Stamps (s : Load) : Prop :=
  ∀ i j, i ≤ j → j < s.sequence + s.sender.stamped → s.sentNs i ≤ s.sentNs j

/-- The counter is right, and what is in state 1 fits the window. -/
structure Fits (cfg : Config) (s : Load) : Prop where
  tally : Tally s
  window : s.states.count .outstanding + s.sender.admitted ≤ cfg.window

/-- **The invariant of the cursor.** -/
structure Swept (cfg : Config) (s : Load) : Prop where
  sized : Sized cfg s
  between : Between s
  stamps : Stamps s
  fits : Fits cfg s

/-! ## What the receiver leaves alone -/

theorem account_frame (cfg : Config) (s : Load) (index rtt_ns : Nat) (receipt : Receipt) :
    (s.account cfg index rtt_ns receipt).cursor = s.cursor ∧
      (s.account cfg index rtt_ns receipt).sent_times = s.sent_times := by
  unfold Load.account
  dsimp only
  split <;> exact ⟨rfl, rfl⟩

/-- The receiver sets at most one state, to 2. -/
theorem ReceiverStep.frame {cfg : Config} {stale : List Bytes} {s s' : Load} (hs : ReceiverStep cfg stale s s') :
    s'.sender = s.sender ∧ s'.sequence = s.sequence ∧ s'.cursor = s.cursor ∧ s'.sent_times = s.sent_times ∧
      (s'.states = s.states ∨ ∃ index, s'.states = s.states.set index .received) := by
  cases hs with
  | @recv packet _ _ =>
    obtain ⟨hst, hseq, hsender, -⟩ := judge_frame s (receive cfg.run_id cfg.plan.sizes packet)
    refine ⟨hsender, hseq, ?_, ?_, .inl hst⟩
    · unfold Load.judge
      split <;> rfl
    · unfold Load.judge
      split <;> rfl
  | time _ _ | done _ => exact ⟨rfl, rfl, rfl, rfl, .inl rfl⟩
  | @swapValid index _ _ _ => exact ⟨rfl, rfl, rfl, rfl, .inr ⟨index, rfl⟩⟩
  | @swapOther index rtt_ns _ _ =>
    obtain ⟨hcursor, htimes⟩ := account_frame cfg { s with states := s.states.set index .received } index rtt_ns
      (classifyReceipt (s.state index))
    exact ⟨by simp, by simp, hcursor, htimes, .inr ⟨index, by simp⟩⟩
  | @sub index rtt_ns _ =>
    obtain ⟨hcursor, htimes⟩ := account_frame cfg { s with outstanding := s.outstanding - 1 } index rtt_ns .valid
    exact ⟨by simp, by simp, hcursor, htimes, .inl (by simp)⟩

theorem ReceiverStep.state {cfg : Config} {stale : List Bytes} {s s' : Load} (hs : ReceiverStep cfg stale s s')
    (index : Nat) : s'.state index = s.state index ∨ s'.state index = .received := by
  obtain ⟨-, -, -, -, hst | ⟨other, hst⟩⟩ := hs.frame
  · exact .inl (by rw [Load.state, hst]; rfl)
  · rw [Load.state, hst]
    by_cases hlt : other < s.states.length
    · rw [state_set hlt]
      split
      · exact .inr rfl
      · exact .inl rfl
    · rw [List.set_eq_of_length_le (Nat.not_lt.1 hlt)]
      exact .inl rfl

theorem ReceiverStep.outstanding {cfg : Config} {stale : List Bytes} {s s' : Load}
    (hs : ReceiverStep cfg stale s s') {index : Nat} (h : s'.state index = .outstanding) :
    s.state index = .outstanding := by
  rcases hs.state index with he | he
  · rwa [← he]
  · rw [he] at h
    cases h

/-- What both threads leave alone while a call goes on. -/
structure Frame (s s' : Load) : Prop where
  sequence : s'.sequence = s.sequence
  times : s'.sent_times = s.sent_times
  length : s'.states.length = s.states.length
  outstanding : ∀ index, s'.state index = .outstanding → s.state index = .outstanding

theorem Frame.age {s s' : Load} (h : Frame s s') (now_ns : UInt64) (index : Nat) :
    s'.ageNs now_ns index = s.ageNs now_ns index := by
  unfold Load.ageNs Load.sentNs
  rw [h.times]

theorem Frame.refl (s : Load) : Frame s s := ⟨rfl, rfl, rfl, fun _ h => h⟩

theorem Frame.trans (s s' s'' : Load) (h : Frame s s') (h' : Frame s' s'') : Frame s s'' where
  sequence := h'.sequence.trans h.sequence
  times := h'.times.trans h.times
  length := h'.length.trans h.length
  outstanding index he := h.outstanding index (h'.outstanding index he)

theorem ReceiverStep.still {cfg : Config} {stale : List Bytes} {s s' : Load} (hs : ReceiverStep cfg stale s s') :
    Frame s s' := by
  obtain ⟨-, hseq, -, htimes, hst⟩ := hs.frame
  refine ⟨hseq, htimes, ?_, fun _ => hs.outstanding⟩
  rcases hst with hst | ⟨index, hst⟩
  · rw [hst]
  · rw [hst, List.length_set]

/-! ## Preservation: the receiver -/

theorem Swept.receiver {cfg : Config} {stale : List Bytes} {s s' : Load} (h : Swept cfg s)
    (hs : ReceiverStep cfg stale s s') : Swept cfg s' := by
  obtain ⟨hsender, hseq, hcursor, htimes, hst⟩ := hs.frame
  have hcount : s'.states.count .outstanding ≤ s.states.count .outstanding := by
    rcases hst with hst | ⟨index, hst⟩
    · rw [hst]
    · rw [hst]
      exact count_set_le _ index nofun
  obtain ⟨hsized, hbetween, hstamps, hfits⟩ := h
  refine ⟨⟨?_, ?_, ?_⟩, ⟨?_, fun index hi he => ?_, fun index he => ?_⟩, ?_, ⟨hfits.tally.receiver hs, ?_⟩⟩
  · rw [hs.still.length, hsized.states]
  · rw [htimes, hsized.times]
  · rw [hsender, hseq]
    exact hsized.inside
  · rw [hcursor, hsender, hseq]
    exact hbetween.cursor
  · rw [hcursor, hsender] at hi
    exact hbetween.below index hi (hs.outstanding he)
  · rw [hseq, hsender]
    exact hbetween.ahead index (hs.outstanding he)
  · unfold Stamps Load.sentNs at hstamps ⊢
    rw [hseq, hsender, htimes]
    exact hstamps
  · rw [hsender]
    exact Nat.le_trans (Nat.add_le_add_right hcount _) hfits.window

/-! ## Preservation: the sender -/

theorem Sized.sender {cfg : Config} {s s' : Load} (h : Sized cfg s) (hs : SenderStep cfg s s') : Sized cfg s' := by
  obtain ⟨hstates, htimes, hlt⟩ := h
  cases hs with
  | finish _ _ | sent _ | failedCount _ => exact ⟨hstates, htimes, fun hin => by cases hin⟩
  | stop _ hi | next _ hi => exact ⟨hstates, htimes, fun _ => hi⟩
  | room hpc _ | full _ hpc _ | expireEnd hpc _ | expireSkip hpc _ _ | expireLook hpc _ _ | expireYoung hpc _
  | expireOld hpc _ | expireMissed hpc _ | expireSub hpc | raise hpc | sendOk hpc | sendErr hpc | failedSub hpc =>
    rw [hpc] at hlt
    exact ⟨hstates, htimes, fun _ => hlt rfl⟩
  | expireSwap hpc _ | publish hpc | failedSwap hpc =>
    rw [hpc] at hlt
    exact ⟨by rw [List.length_set, hstates], htimes, fun _ => hlt rfl⟩
  | stamp _ hpc _ =>
    rw [hpc] at hlt
    exact ⟨hstates, by rw [List.length_set, htimes], fun _ => hlt rfl⟩

/-- A sequence that is not in state 1 joins those below the cursor. -/
theorem below_succ {s : Load} {cursor : Nat} (h : ∀ index < cursor, s.state index ≠ .outstanding)
    (hst : s.state cursor ≠ .outstanding) : ∀ index < cursor + 1, s.state index ≠ .outstanding := by
  intro index hi
  rcases Nat.lt_succ_iff_lt_or_eq.1 hi with hi | rfl
  · exact h index hi
  · exact hst

theorem Between.sender {cfg : Config} {s s' : Load} (h : Between s) (hsized : Sized cfg s)
    (hs : SenderStep cfg s s') : Between s' := by
  obtain ⟨hcursor, hbelow, hahead⟩ := h
  have hinside := hsized.inside
  rw [← hsized.states] at hinside
  cases hs with
  | finish hpc _ | stop hpc _ | next hpc _ | room hpc _ | full _ hpc _ | expireEnd hpc _ | expireOld hpc _
  | expireSub hpc | stamp _ hpc _ | raise hpc | sendOk hpc | sendErr hpc | failedSub hpc =>
    rw [hpc] at hcursor hbelow hahead
    exact ⟨hcursor, hbelow, hahead⟩
  | expireYoung hpc _ =>
    rw [hpc] at hcursor hbelow hahead
    exact ⟨Nat.le_of_succ_le hcursor, hbelow, hahead⟩
  | expireLook hpc hlt _ =>
    rw [hpc] at hbelow hahead
    exact ⟨hlt, hbelow, hahead⟩
  | expireSkip hpc hlt hst =>
    rw [hpc] at hbelow
    refine ⟨?_, ?_, hahead⟩
    · rw [hpc]
      exact hlt
    · rw [hpc]
      exact below_succ hbelow hst
  | expireMissed hpc hst =>
    rw [hpc] at hcursor hbelow hahead
    exact ⟨hcursor, below_succ hbelow hst, hahead⟩
  | expireSwap hpc hst =>
    rw [hpc] at hcursor hbelow hahead
    refine ⟨hcursor, below_succ (fun index hi => ?_) ?_, fun index he => ?_⟩
    · rw [Load.state, state_set (state_lt hst), if_neg (Nat.ne_of_lt hi)]
      exact hbelow index hi
    · rw [Load.state, state_set (state_lt hst), if_pos rfl]
      intro e
      cases e
    · rw [Load.state, state_set (state_lt hst)] at he
      split at he
      · cases he
      · exact hahead index he
  | publish hpc =>
    rw [hpc] at hcursor hbelow hahead hinside
    refine ⟨hcursor, fun index hi => ?_, fun index he => ?_⟩
    · rw [Load.state, state_set (hinside rfl), if_neg (Nat.ne_of_lt (Nat.lt_of_lt_of_le hi hcursor))]
      exact hbelow index hi
    · rw [Load.state, state_set (hinside rfl)] at he
      split at he
      · rename_i hown
        exact Nat.lt_succ_of_le (Nat.le_of_eq hown)
      · exact Nat.lt_succ_of_lt (hahead index he)
  | sent hpc =>
    rw [hpc] at hcursor hbelow hahead
    exact ⟨Nat.le_succ_of_le hcursor, hbelow, hahead⟩
  | failedSwap hpc =>
    rw [hpc] at hcursor hbelow hahead hinside
    refine ⟨?_, fun index hi => ?_, fun index he => ?_⟩
    · dsimp only
      split <;> exact hcursor
    · have hi : index < s.cursor := by
        dsimp only at hi
        split at hi <;> exact hi
      rw [Load.state, state_set (hinside rfl), if_neg (Nat.ne_of_lt (Nat.lt_of_lt_of_le hi hcursor))]
      exact hbelow index hi
    · rw [Load.state, state_set (hinside rfl)] at he
      split at he
      · cases he
      · rename_i hne
        exact Nat.lt_of_lt_of_le (Nat.lt_of_le_of_ne (Nat.le_of_lt_succ (hahead index he)) hne) (Nat.le_add_right _ _)
  | failedCount hpc =>
    rw [hpc] at hcursor hbelow hahead
    exact ⟨Nat.le_succ_of_le hcursor, hbelow, fun index he => Nat.lt_succ_of_lt (hahead index he)⟩

theorem Stamps.sender {cfg : Config} {s s' : Load} (h : Stamps s) (hsized : Sized cfg s)
    (hs : SenderStep cfg s s') (hinorder : InOrder s s') : Stamps s' := by
  unfold Stamps at h
  have hinside := hsized.inside
  rw [← hsized.times] at hinside
  cases hs with
  | stamp sent_ns hpc _ =>
    have hstamp := hinorder hpc
    rw [hpc] at h hinside
    have hset : ∀ index, (s.sent_times.set s.sequence sent_ns).getD index 0 =
        if index = s.sequence then sent_ns else s.sentNs index := by
      intro index
      split
      · rename_i he
        rw [he, List.getD_eq_getElem _ _ (by rw [List.length_set]; exact hinside rfl), List.getElem_set_self]
      · rename_i hne
        rw [List.getD_eq_getElem?_getD, List.getElem?_set_ne (Ne.symm hne), ← List.getD_eq_getElem?_getD]
        rfl
    intro i j hij hj
    change (s.sent_times.set s.sequence sent_ns).getD i 0 ≤ (s.sent_times.set s.sequence sent_ns).getD j 0
    have hlt : j < s.sequence + 1 := hj
    rw [hset, hset]
    rcases Nat.lt_succ_iff_lt_or_eq.1 hlt with hlt | rfl
    · rw [if_neg (Nat.ne_of_lt (Nat.lt_of_le_of_lt hij hlt)), if_neg (Nat.ne_of_lt hlt)]
      exact h i j hij hlt
    · rw [if_pos rfl]
      split
      · exact UInt64.le_refl _
      · rename_i hne
        have hle : s.sentNs i ≤ (s.sent_times.set s.sequence sent_ns).getD s.sequence 0 :=
          hstamp i (Nat.lt_of_le_of_ne hij hne)
        rwa [hset, if_pos rfl] at hle
  | failedSwap hpc =>
    rw [hpc] at h
    intro i j hij hj
    dsimp only at hj
    split at hj <;> exact h i j hij hj
  | expireSkip _ _ _ => exact h
  | finish hpc _ | stop hpc _ | next hpc _ | room hpc _ | full _ hpc _ | expireEnd hpc _ | expireLook hpc _ _
  | expireYoung hpc _ | expireOld hpc _ | expireSwap hpc _ | expireMissed hpc _ | expireSub hpc | publish hpc
  | raise hpc | sendOk hpc | sendErr hpc | sent hpc | failedSub hpc | failedCount hpc =>
    rw [hpc] at h
    exact h

theorem receiver_owes_nonpos (point : ReceiverAt) : point.owes ≤ 0 := by
  cases point with
  | sub _ _ => exact neg_one_lt_zero.le
  | _ => exact Int.le_refl 0

theorem Fits.sender {cfg : Config} {s s' : Load} (h : Fits cfg s) (hsized : Sized cfg s) (hbetween : Between s)
    (hs : SenderStep cfg s s') : Fits cfg s' := by
  obtain ⟨htally, hwindow⟩ := h
  have hfresh : ∀ packet, s.sender = .publish packet →
      s.sequence < s.states.length ∧ s.state s.sequence ≠ .outstanding := by
    intro packet hpc
    refine ⟨?_, fun he => ?_⟩
    · rw [hsized.states]
      exact hsized.inside (by rw [hpc]; rfl)
    · have hlt := hbetween.ahead _ he
      rw [hpc] at hlt
      exact Nat.lt_irrefl _ hlt
  refine ⟨htally.sender hfresh hs, ?_⟩
  cases hs with
  | room hpc hroom =>
    -- the receiver may still owe the counter a decrement
    unfold Tally Load.balance at htally
    have howes := receiver_owes_nonpos s.receiver
    rw [hpc, show SenderAt.window.owes = 0 from rfl] at htally
    change s.states.count .outstanding + 1 ≤ cfg.window
    omega
  | publish hpc =>
    obtain ⟨hin, hne⟩ := hfresh _ hpc
    have hset := @count_set s.states s.sequence .outstanding fun _ => hin
    rw [hpc] at hwindow
    have hwindow : s.states.count .outstanding + 1 ≤ cfg.window := hwindow
    change (s.states.set s.sequence .outstanding).count .outstanding + 0 ≤ cfg.window
    rw [if_neg (show ¬ s.states.getD s.sequence .unsent = .outstanding from hne), if_pos rfl] at hset
    omega
  | expireSwap hpc _ =>
    rw [hpc] at hwindow
    exact Nat.le_trans (count_set_le s.states s.cursor nofun) hwindow
  | failedSwap hpc =>
    rw [hpc] at hwindow
    have hadmitted :
        (if s.state s.sequence = .outstanding then SenderAt.failedSub else .failedCount).admitted = 0 := by
      split <;> rfl
    dsimp only
    rw [hadmitted]
    exact Nat.le_trans (count_set_le s.states s.sequence nofun) hwindow
  | expireSkip _ _ _ => exact hwindow
  | finish hpc _ | stop hpc _ | next hpc _ | full _ hpc _ | expireEnd hpc _ | expireLook hpc _ _
  | expireYoung hpc _ | expireOld hpc _ | expireMissed hpc _ | expireSub hpc | stamp _ hpc _
  | raise hpc | sendOk hpc | sendErr hpc | sent hpc | failedSub hpc | failedCount hpc =>
    rw [hpc] at hwindow
    exact hwindow

/-! ## Every reachable state -/

theorem Swept.start (cfg : Config) : Swept cfg (Load.start cfg) := by
  have hunsent : ∀ index, (Load.start cfg).state index = .unsent := by
    intro index
    by_cases hlt : index < cfg.count <;> simp [Load.state, Load.start, hlt]
  have hcount : (Load.start cfg).states.count .outstanding = 0 := by
    rw [List.count_eq_zero]
    intro hm
    cases List.eq_of_mem_replicate hm
  refine ⟨⟨List.length_replicate, List.length_replicate, fun hin => by cases hin⟩,
    ⟨Nat.le_refl 0, fun index hi => (Nat.not_lt_zero index hi).elim, fun index he => ?_⟩,
    fun i j _ hj => (Nat.not_lt_zero j hj).elim, ?_, ?_⟩
  · rw [hunsent] at he
    cases he
  · unfold Tally
    rw [hcount]
    rfl
  · rw [hcount]
    exact Nat.zero_le _

theorem inductive_swept (cfg : Config) (datagrams : List Bytes) :
    (loadInOrder cfg datagrams).Inductive (Swept cfg) where
  init := by
    rintro s rfl
    exact Swept.start cfg
  step s thread s' h hs := by
    obtain ⟨hs, hinorder⟩ := hs
    cases thread with
    | sender =>
      exact ⟨h.sized.sender hs, h.between.sender h.sized hs, h.stamps.sender h.sized hs (hinorder rfl),
        h.fits.sender h.sized h.between hs⟩
    | receiver => exact h.receiver hs

/-- **The cursor in every reachable state.** -/
theorem reachable_swept {cfg : Config} {datagrams : List Bytes} {s : Load}
    (h : (loadInOrder cfg datagrams).Reachable s) : Swept cfg s :=
  (inductive_swept cfg datagrams).reachable s h

/-- Where the sender reads the counter it has not passed zero, though a forged
reply can take it there between a publication and its `fetch_add`. -/
theorem Swept.nonneg {cfg : Config} {s : Load} (h : Swept cfg s) (hpc : s.sender = .window) : 0 ≤ s.outstanding := by
  have htally := h.fits.tally
  unfold Tally Load.balance at htally
  rw [hpc, show SenderAt.window.owes = 0 from rfl] at htally
  have howes := receiver_owes_nonpos s.receiver
  omega

/-! ## One step of a call -/

/-- The sequence expired but still on the counter. -/
def Load.debt (s : Load) : List Nat := List.replicate s.sender.swept s.cursor

/-- The steps of the sender a call still takes at most. -/
def Load.remaining (s : Load) : Nat :=
  match s.sender with
  | .expire _ => 4 * (s.sequence - s.cursor) + 1
  | .expireTime _ => 4 * (s.sequence - s.cursor)
  | .expireSwap _ => 4 * (s.sequence - s.cursor) - 1
  | .expireSub _ => 4 * (s.sequence - s.cursor) - 2
  | _ => 0

/-- Nothing is moved where no state 1 becomes 3. -/
theorem moved_nil {s s' : Load} {thread : Thread}
    (h : ∀ index, s.state index = .outstanding → s'.state index ≠ .expired) :
    moved (s, thread, s') = [] := by
  unfold moved
  rw [List.filter_eq_nil_iff]
  intro index _ hmoved
  obtain ⟨hbefore, hafter⟩ := of_decide_eq_true hmoved
  exact h index hbefore hafter

/-- The exchange moves the cursor's sequence alone. -/
theorem moved_swap {s s' : Load} {thread : Thread} (hst : s.state s.cursor = .outstanding)
    (hset : s'.states = s.states.set s.cursor .expired) : moved (s, thread, s') = [s.cursor] := by
  have hin := state_lt hst
  have hmoved : ∀ index, (s.state index = .outstanding ∧ s'.state index = .expired) ↔ index = s.cursor := by
    intro index
    have hstate : s'.state index = if index = s.cursor then .expired else s.state index := by
      rw [Load.state, hset, state_set hin]
    constructor
    · rintro ⟨hbefore, hafter⟩
      by_contra hne
      rw [hstate, if_neg hne, hbefore] at hafter
      cases hafter
    · rintro rfl
      exact ⟨hst, by rw [hstate, if_pos rfl]⟩
  unfold moved
  dsimp only
  rw [List.filter_congr fun index _ => decide_eq_decide.2 (hmoved index)]
  change (List.range s.states.length).filter (· == s.cursor) = [s.cursor]
  rw [List.filter_beq, List.count_eq_one_of_mem List.nodup_range (List.mem_range.2 hin)]
  rfl

theorem paid_nil {s s' : Load} {thread : Thread} (h : s'.outstanding = s.outstanding) : paid (s, thread, s') = [] := by
  cases thread with
  | sender =>
    change List.replicate (s.outstanding - s'.outstanding).toNat s.cursor = []
    rw [h, Int.sub_self]
    rfl
  | receiver => rfl

/-- The cursor's sequence is young: so are those after it. -/
theorem Stamps.young {s : Load} (h : Stamps s) {now_ns : UInt64} {timeout_ns index : Nat} (hle : s.cursor ≤ index)
    (hlt : index < s.sequence) (hyoung : s.ageNs now_ns s.cursor < timeout_ns) :
    s.ageNs now_ns index < timeout_ns := by
  have hsent := UInt64.le_iff_toNat_le.1 (h s.cursor index hle (Nat.lt_of_lt_of_le hlt (Nat.le_add_right _ _)))
  unfold Load.ageNs at hyoung ⊢
  omega

/-- **One step of a call**, of either thread. -/
structure CallStep (cfg : Config) (now_ns : UInt64) (s : Load) (thread : Thread) (s' : Load) : Prop where
  frame : Frame s s'
  ledger : s.debt ++ moved (s, thread, s') = paid (s, thread, s') ++ s'.debt
  paid : paid (s, thread, s') = [] ∧ s.cursor ≤ s'.cursor ∨
    paid (s, thread, s') = [s.cursor] ∧ s'.cursor = s.cursor + 1
  fewer : s'.remaining + (if thread = .sender then 1 else 0) ≤ s.remaining
  returned : s'.sender = .window → ∀ index < s.sequence, cfg.timeout_ns ≤ s.ageNs now_ns index →
    s'.state index ≠ .outstanding
  goes : s'.sender = .window ∨ s'.sender.calling = some now_ns

/-- A step of the sender's that touches neither the states nor the counter. -/
theorem CallStep.quiet {cfg : Config} {now_ns : UInt64} {s s' : Load} (hst : s'.states = s.states)
    (hseq : s'.sequence = s.sequence) (htimes : s'.sent_times = s.sent_times) (hout : s'.outstanding = s.outstanding)
    (hswept : s.sender.swept = 0) (hswept' : s'.sender.swept = 0) (hcursor : s.cursor ≤ s'.cursor)
    (hfewer : s'.remaining + 1 ≤ s.remaining)
    (hreturned : s'.sender = .window → ∀ index < s.sequence, cfg.timeout_ns ≤ s.ageNs now_ns index →
      s.state index ≠ .outstanding)
    (hgoes : s'.sender = .window ∨ s'.sender.calling = some now_ns) : CallStep cfg now_ns s .sender s' := by
  have hstate : ∀ index, s'.state index = s.state index := fun index => by rw [Load.state, hst]; rfl
  refine ⟨⟨hseq, htimes, by rw [hst], fun index he => by rwa [hstate] at he⟩, ?_, .inl ⟨paid_nil hout, hcursor⟩,
    hfewer, fun hpc index hi hage => by rw [hstate]; exact hreturned hpc index hi hage, hgoes⟩
  rw [paid_nil hout, Load.debt, Load.debt, hswept, hswept', moved_nil fun index hbefore hafter => ?_]
  · rfl
  · rw [hstate, hbefore] at hafter
    cases hafter

theorem SenderStep.call {cfg : Config} {now_ns : UInt64} {s s' : Load} (h : Swept cfg s)
    (hcall : s.sender.calling = some now_ns) (hs : SenderStep cfg s s') : CallStep cfg now_ns s .sender s' := by
  have hcursor := h.between.cursor
  have hbelow := h.between.below
  cases hs with
  | finish hpc _ | stop hpc _ | next hpc _ | room hpc _ | full _ hpc _ | stamp _ hpc _ | publish hpc | raise hpc
  | sendOk hpc | sendErr hpc | sent hpc | failedSwap hpc | failedSub hpc | failedCount hpc =>
    rw [hpc] at hcall
    cases hcall
  | expireEnd hpc hend =>
    rw [hpc] at hbelow
    refine .quiet rfl rfl rfl rfl (by rw [hpc]; rfl) rfl (Nat.le_refl _) ?_ (fun _ index hi _ => ?_) (.inl rfl)
    · simp only [Load.remaining, hpc]
      omega
    · exact hbelow index (Nat.lt_of_lt_of_le hi hend)
  | expireSkip hpc hlt hst =>
    refine .quiet rfl rfl rfl rfl (by rw [hpc]; rfl) (by rw [hpc]; rfl) (Nat.le_succ _) ?_ (fun he => ?_) (.inr hcall)
    · simp only [Load.remaining, hpc]
      omega
    · rw [hpc] at he
      cases he
  | expireLook hpc hlt hst =>
    rw [hpc] at hcall
    refine .quiet rfl rfl rfl rfl (by rw [hpc]; rfl) rfl (Nat.le_refl _) ?_ (fun he => by cases he) (.inr hcall)
    simp only [Load.remaining, hpc]
    omega
  | expireYoung hpc hyoung =>
    rw [hpc] at hcall hbelow hcursor
    cases hcall
    refine .quiet rfl rfl rfl rfl (by rw [hpc]; rfl) rfl (Nat.le_refl _) ?_ (fun _ index hi hage => ?_) (.inl rfl)
    · have hcursor : s.cursor + 1 ≤ s.sequence := hcursor
      simp only [Load.remaining, hpc]
      omega
    · -- what is old was sent before the young one the sweep stopped at
      refine hbelow index (Nat.lt_of_not_le fun hle => ?_)
      exact Nat.not_lt.2 hage (h.stamps.young hle hi hyoung)
  | expireOld hpc hold =>
    rw [hpc] at hcall hcursor
    have hcursor : s.cursor + 1 ≤ s.sequence := hcursor
    refine .quiet rfl rfl rfl rfl (by rw [hpc]; rfl) rfl (Nat.le_refl _) ?_ (fun he => by cases he) (.inr hcall)
    simp only [Load.remaining, hpc]
    omega
  | expireMissed hpc hst =>
    rw [hpc] at hcall hcursor
    have hcursor : s.cursor + 1 ≤ s.sequence := hcursor
    refine .quiet rfl rfl rfl rfl (by rw [hpc]; rfl) rfl (Nat.le_succ _) ?_ (fun he => by cases he) (.inr hcall)
    simp only [Load.remaining, hpc]
    omega
  | expireSwap hpc hst =>
    rw [hpc] at hcall hcursor
    have hcursor : s.cursor + 1 ≤ s.sequence := hcursor
    refine ⟨⟨rfl, rfl, List.length_set, fun index he => ?_⟩, ?_, .inl ⟨paid_nil rfl, Nat.le_refl _⟩, ?_,
      (fun he => by cases he), .inr hcall⟩
    · rw [Load.state, state_set (state_lt hst)] at he
      split at he
      · cases he
      · exact he
    · rw [moved_swap hst rfl, paid_nil ?_, Load.debt, Load.debt, hpc]
      · rfl
      · rfl
    · simp only [Load.remaining, hpc, if_pos]
      omega
  | @expireSub now_ns hpc =>
    rw [hpc] at hcall hcursor
    have hcursor : s.cursor + 1 ≤ s.sequence := hcursor
    have hpaid : paid (s, .sender, { s with
        sender := .expire now_ns, outstanding := s.outstanding - 1, cursor := s.cursor + 1 }) = [s.cursor] := by
      change List.replicate (s.outstanding - (s.outstanding - 1)).toNat s.cursor = [s.cursor]
      rw [Int.sub_sub_self]
      rfl
    refine ⟨⟨rfl, rfl, rfl, fun _ he => he⟩, ?_, .inr ⟨hpaid, rfl⟩, ?_, (fun he => by cases he), .inr hcall⟩
    · rw [hpaid, moved_nil fun index hbefore hafter => ?_, Load.debt, Load.debt, hpc]
      · rfl
      · rw [show s.state index = .expired from hafter] at hbefore
        cases hbefore
    · simp only [Load.remaining, hpc, if_pos]
      omega

theorem ReceiverStep.call {cfg : Config} {stale : List Bytes} {now_ns : UInt64} {s s' : Load}
    (hcall : s.sender.calling = some now_ns) (hs : ReceiverStep cfg stale s s') :
    CallStep cfg now_ns s .receiver s' := by
  obtain ⟨hsender, hseq, hcursor, -, -⟩ := hs.frame
  have hmoved : moved (s, .receiver, s') = [] := by
    refine moved_nil fun index hbefore hafter => ?_
    rcases hs.state index with he | he
    · rw [he, hbefore] at hafter
      cases hafter
    · rw [he] at hafter
      cases hafter
  refine ⟨hs.still, ?_, .inl ⟨rfl, by rw [hcursor]⟩, ?_, fun hpc => ?_, .inr (by rw [hsender, hcall])⟩
  · rw [hmoved, List.append_nil, Load.debt, Load.debt, hsender, hcursor]
    rfl
  · rw [if_neg nofun, Nat.add_zero, Load.remaining, Load.remaining, hsender, hcursor, hseq]
  · rw [← hsender, hpc] at hcall
    cases hcall

theorem call_step {cfg : Config} {datagrams : List Bytes} {now_ns : UInt64} {s s' : Load} {thread : Thread}
    (hr : (loadInOrder cfg datagrams).Reachable s) (hcall : s.sender.calling = some now_ns)
    (hs : (loadInOrder cfg datagrams).step s thread s') : CallStep cfg now_ns s thread s' := by
  cases thread with
  | sender => exact hs.1.call (reachable_swept hr) hcall
  | receiver => exact hs.1.call hcall

theorem cursor_le {cfg : Config} {datagrams : List Bytes} {s s' : Load} {thread : Thread}
    (hs : (loadInOrder cfg datagrams).step s thread s') : s.cursor ≤ s'.cursor := by
  obtain ⟨hs, -⟩ := hs
  cases thread with
  | receiver =>
    obtain ⟨-, -, hcursor, -⟩ := ReceiverStep.frame hs
    exact Nat.le_of_eq hcursor.symm
  | sender =>
    cases hs with
    | expireSkip _ _ _ | expireMissed _ _ | expireSub _ => exact Nat.le_succ _
    | finish _ _ | stop _ _ | next _ _ | room _ _ | full _ _ _ | expireEnd _ _ | expireLook _ _ _ | expireYoung _ _
    | expireOld _ _ | expireSwap _ _ | stamp _ _ _ | publish _ | raise _ | sendOk _ | sendErr _ | sent _
    | failedSwap _ | failedSub _ | failedCount _ => exact Nat.le_refl _

/-- A call is never stuck: the sender has its next step. -/
theorem sender_goes {cfg : Config} {s : Load} {now_ns : UInt64} (hcall : s.sender.calling = some now_ns) :
    ∃ s', SenderStep cfg s s' := by
  cases hpc : s.sender with
  | expire now_ns =>
    by_cases hend : s.sequence ≤ s.cursor
    · exact ⟨_, .expireEnd hpc hend⟩
    by_cases hst : s.state s.cursor = .outstanding
    · exact ⟨_, .expireLook hpc (Nat.not_le.1 hend) hst⟩
    · exact ⟨_, .expireSkip hpc (Nat.not_le.1 hend) hst⟩
  | expireTime now_ns =>
    by_cases hyoung : now_ns.toNat - (s.sentNs s.cursor).toNat < cfg.timeout_ns
    · exact ⟨_, .expireYoung hpc hyoung⟩
    · exact ⟨_, .expireOld hpc (Nat.not_lt.1 hyoung)⟩
  | expireSwap now_ns =>
    by_cases hst : s.state s.cursor = .outstanding
    · exact ⟨_, .expireSwap hpc hst⟩
    · exact ⟨_, .expireMissed hpc hst⟩
  | expireSub now_ns => exact ⟨_, .expireSub hpc⟩
  | top | window | stamp | publish _ | raise _ | send _ | sent | failed | failedSub | failedCount | finished
  | stopped =>
    rw [hpc] at hcall
    cases hcall

/-! ## A whole call -/

section
variable {cfg : Config} {datagrams : List Bytes} {now_ns : UInt64} {s s' : Load} {steps : List (Load × Thread × Load)}

theorem ExpireOld.frame (h : ExpireOld cfg datagrams now_ns s steps s')
    (hr : (loadInOrder cfg datagrams).Reachable s) :
    Frame s s' :=
  LTS.Trace.rel Frame.refl Frame.trans (fun _ _ _ hr hcall hs => (call_step hr hcall hs).frame) h hr

/-- **The ledger of a call**: what it moves, up to the one it still owes for, is what it has paid. -/
theorem ExpireOld.ledger (h : ExpireOld cfg datagrams now_ns s steps s')
    (hr : (loadInOrder cfg datagrams).Reachable s) :
    s.debt ++ steps.flatMap moved = steps.flatMap paid ++ s'.debt := by
  unfold ExpireOld at h
  induction h with
  | nil s => simp
  | @cons s s₁ s' thread steps hcall hs _ ih =>
    have hstep := (call_step hr hcall hs).ledger
    calc s.debt ++ ((s, thread, s₁) :: steps).flatMap moved
        = (s.debt ++ moved (s, thread, s₁)) ++ steps.flatMap moved := by
          rw [List.flatMap_cons, List.append_assoc]
      _ = paid (s, thread, s₁) ++ (s₁.debt ++ steps.flatMap moved) := by rw [hstep, List.append_assoc]
      _ = ((s, thread, s₁) :: steps).flatMap paid ++ s'.debt := by
          rw [ih (hr.snoc hs), List.flatMap_cons, List.append_assoc]

/-- It pays in the order of the cursor, which it moves on each time. -/
theorem ExpireOld.ascending (h : ExpireOld cfg datagrams now_ns s steps s')
    (hr : (loadInOrder cfg datagrams).Reachable s) :
    (∀ index ∈ steps.flatMap paid, s.cursor ≤ index) ∧ (steps.flatMap paid).Pairwise (· < ·) := by
  unfold ExpireOld at h
  induction h with
  | nil s => exact ⟨fun index hi => (List.not_mem_nil hi).elim, .nil⟩
  | @cons s s₁ s' thread steps hcall hs _ ih =>
    obtain ⟨hfrom, hsorted⟩ := ih (hr.snoc hs)
    rw [List.flatMap_cons]
    rcases (call_step hr hcall hs).paid with ⟨hpaid, hcursor⟩ | ⟨hpaid, hcursor⟩
    · rw [hpaid, List.nil_append]
      exact ⟨fun index hi => Nat.le_trans hcursor (hfrom index hi), hsorted⟩
    · have hlater : ∀ index ∈ steps.flatMap paid, s.cursor < index := by
        intro index hi
        have hle := hfrom index hi
        omega
      rw [hpaid, List.singleton_append]
      refine ⟨fun index hi => ?_, List.pairwise_cons.2 ⟨hlater, hsorted⟩⟩
      rcases List.mem_cons.1 hi with rfl | hi
      · exact Nat.le_refl _
      · exact Nat.le_of_lt (hlater index hi)

/-- It ends: the receiver cannot prolong it. -/
theorem ExpireOld.short (h : ExpireOld cfg datagrams now_ns s steps s')
    (hr : (loadInOrder cfg datagrams).Reachable s) :
    steps.countP (·.2.1 = .sender) + s'.remaining ≤ s.remaining := by
  unfold ExpireOld at h
  induction h with
  | nil s => simp
  | @cons s s₁ s' thread steps hcall hs _ ih =>
    have hfewer := (call_step hr hcall hs).fewer
    have hrest := ih (hr.snoc hs)
    rw [List.countP_cons]
    simp only [decide_eq_true_eq]
    omega

/-- Up to its return the sender stays in it. -/
theorem ExpireOld.goes (h : ExpireOld cfg datagrams now_ns s steps s')
    (hr : (loadInOrder cfg datagrams).Reachable s)
    (hstart : s.sender = .expire now_ns) : s'.sender = .window ∨ s'.sender.calling = some now_ns := by
  rcases LTS.Trace.last h hr with rfl | ⟨s₁, thread, hr₁, hcall, hs⟩
  · exact .inr (by rw [hstart]; rfl)
  · exact (call_step hr₁ hcall hs).goes

/-- **It misses nothing**: what is old when it returns is not in state 1. -/
theorem ExpireOld.complete (h : ExpireOld cfg datagrams now_ns s steps s')
    (hr : (loadInOrder cfg datagrams).Reachable s)
    (hstart : s.sender = .expire now_ns) (hend : s'.sender = .window) :
    ∀ index < s.sequence, cfg.timeout_ns ≤ s.ageNs now_ns index → s'.state index ≠ .outstanding := by
  rcases LTS.Trace.last h hr with rfl | ⟨s₁, thread, hr₁, hcall, hs⟩
  · rw [hstart] at hend
    cases hend
  · have hcallFrame := ExpireOld.frame h hr
    have hstep := call_step hr₁ hcall hs
    intro index hi hage
    refine hstep.returned hend index ?_ ?_
    · rwa [← hstep.frame.sequence, hcallFrame.sequence]
    · rwa [← hstep.frame.age, hcallFrame.age]

end

/-! ## Room in the window -/

theorem count_le : ∀ {l l' : List PacketState}, l'.length = l.length →
    (∀ index, l'.getD index .unsent = .outstanding → l.getD index .unsent = .outstanding) →
    l'.count .outstanding ≤ l.count .outstanding
  | [], [], _, _ => Nat.le_refl _
  | a :: l, b :: l', hlen, h => by
    have htail : l'.count .outstanding ≤ l.count .outstanding :=
      count_le (Nat.succ.inj hlen) fun index he => h (index + 1) he
    have hhead : b = .outstanding → a = .outstanding := h 0
    rw [List.count_cons, List.count_cons]
    by_cases hb : b = .outstanding
    · rw [hb, hhead hb]
      omega
    · rw [if_neg (by simpa using hb)]
      omega

/-- One state 1 fewer. -/
theorem Frame.count_lt {s s' : Load} (h : Frame s s') {index : Nat} (hbefore : s.state index = .outstanding)
    (hafter : s'.state index ≠ .outstanding) : s'.states.count .outstanding < s.states.count .outstanding := by
  have hin := state_lt hbefore
  have hset := @count_set s.states index .expired (fun e => by cases e)
  rw [if_pos (show s.states.getD index .unsent = .outstanding from hbefore), if_neg (fun e => by cases e)] at hset
  have hle : s'.states.count .outstanding ≤ (s.states.set index .expired).count .outstanding := by
    refine count_le (by rw [List.length_set, h.length]) fun other he => ?_
    have hne : other ≠ index := by
      rintro rfl
      exact hafter he
    rw [state_set hin, if_neg hne]
    exact h.outstanding other he
  omega

/-- What a call leaves behind when it returns. -/
structure Expires (cfg : Config) (now_ns : UInt64) (s : Load) (steps : List (Load × Thread × Load)) (s' : Load) :
    Prop where
  /-- no sequence of that age is in state 1 -/
  complete : ∀ index < s.sequence, cfg.timeout_ns ≤ s.ageNs now_ns index → s'.state index ≠ .outstanding
  /-- one decrement for each sequence moved from 1 to 3 -/
  ledger : steps.flatMap moved = steps.flatMap paid
  /-- and none is moved twice -/
  once : (steps.flatMap moved).Nodup
  /-- if one was outstanding and old, there is room, at the latest after the receiver's `fetch_sub` -/
  room : (∃ index < s.sequence, s.state index = .outstanding ∧ cfg.timeout_ns ≤ s.ageNs now_ns index) →
    s'.outstanding < cfg.window ∨
      ∃ index rtt_ns, s'.receiver = .sub index rtt_ns ∧ s'.outstanding - 1 < cfg.window

theorem ExpireOld.expires {cfg : Config} {datagrams : List Bytes} {now_ns : UInt64} {s s' : Load}
    {steps : List (Load × Thread × Load)} (h : ExpireOld cfg datagrams now_ns s steps s')
    (hr : (loadInOrder cfg datagrams).Reachable s) (hstart : s.sender = .expire now_ns)
    (hend : s'.sender = .window) : Expires cfg now_ns s steps s' := by
  have hledger : steps.flatMap moved = steps.flatMap paid := by
    have hcall := ExpireOld.ledger h hr
    rw [Load.debt, Load.debt, hstart, hend] at hcall
    simpa [SenderAt.swept] using hcall
  refine ⟨ExpireOld.complete h hr hstart hend, hledger, ?_, ?_⟩
  · rw [hledger]
    exact (ExpireOld.ascending h hr).2.imp Nat.ne_of_lt
  · rintro ⟨index, hi, hst, hage⟩
    have hfewer := (ExpireOld.frame h hr).count_lt hst (ExpireOld.complete h hr hstart hend index hi hage)
    have hwindow := (reachable_swept hr).fits.window
    have htally := (reachable_swept (LTS.Trace.reachable h hr)).fits.tally
    unfold Tally Load.balance at htally
    rw [hend, show SenderAt.window.owes = 0 from rfl] at htally
    cases hpc : s'.receiver with
    | sub index rtt_ns =>
      rw [hpc, show (ReceiverAt.sub index rtt_ns).owes = -1 from rfl] at htally
      exact .inr ⟨index, rtt_ns, rfl, by omega⟩
    | recv | time _ | swap _ _ | done =>
      rw [hpc] at htally
      simp only [ReceiverAt.owes] at htally
      exact .inl (by omega)

/-- **The expiry cursor is exact.** In every state of every run with nondecreasing
send times, whatever datagrams arrive, nothing below the cursor is in state 1; the
cursor does not pass the sequence the sender is at and never goes back. A call of
`expire_old` always has a next step and ends after at most four steps a sequence;
when it has returned, what `Expires` says holds. -/
theorem expire_exact {cfg : Config} {datagrams : List Bytes} {s : Load}
    (hr : (loadInOrder cfg datagrams).Reachable s) :
    (∀ index < s.cursor, s.state index ≠ .outstanding) ∧ s.cursor ≤ s.sequence ∧
    (∀ thread s', (loadInOrder cfg datagrams).step s thread s' → s.cursor ≤ s'.cursor) ∧
    ∀ now_ns, s.sender = .expire now_ns → ∀ steps s', ExpireOld cfg datagrams now_ns s steps s' →
      steps.countP (·.2.1 = .sender) ≤ 4 * (s.sequence - s.cursor) + 1 ∧
        (s'.sender ≠ .window → ∃ s'', SenderStep cfg s' s'') ∧
        (s'.sender = .window → Expires cfg now_ns s steps s') := by
  have hswept := reachable_swept hr
  refine ⟨fun index hi => ?_, ?_, fun thread s' hs => ?_, fun now_ns hstart steps s' hcall => ⟨?_, fun hne => ?_, ?_⟩⟩
  · exact hswept.between.below index (Nat.lt_of_lt_of_le hi (Nat.le_add_right _ _))
  · exact Nat.le_trans (Nat.le_add_right _ _) hswept.between.cursor
  · exact cursor_le hs
  · have hshort := ExpireOld.short hcall hr
    rw [show s.remaining = 4 * (s.sequence - s.cursor) + 1 by rw [Load.remaining, hstart]] at hshort
    omega
  · exact sender_goes ((ExpireOld.goes hcall hr hstart).resolve_left hne)
  · exact ExpireOld.expires hcall hr hstart

/-! ## A sweep of one packet -/

/-- Two packets without payload through a window of one. -/
def twoPackets : Config where
  plan :=
    { sizes := [32, 32]
      sized := fun size hs => by
        rw [List.mem_pair, or_self] at hs
        rw [hs]
        exact Nat.le_refl 32
      fits := by norm_num }
  timeout_ns := 100
  window := 1
  run_id := 7

/-- A step that stamps nothing is in order. -/
theorem sender_step {cfg : Config} {datagrams : List Bytes} {s s' : Load} (hne : s.sender ≠ .stamp)
    (hs : SenderStep cfg s s') : (loadInOrder cfg datagrams).step s .sender s' := ⟨hs, fun _ he => absurd he hne⟩

/-- The first was sent at 5; the second waits, and looks at 200. -/
theorem expire_exact_two_packets :
    ∃ s steps s', (loadInOrder twoPackets []).Reachable s ∧ s.sender = .expire 200 ∧
      ExpireOld twoPackets [] 200 s steps s' ∧ s'.sender = .window ∧ steps.flatMap moved = [0] ∧
      Expires twoPackets 200 s steps s' ∧ s'.outstanding < twoPackets.window := by
  have hpacket : encode headerLen (sentHeader 7 0 5) = .ok _ := encode_ok (Nat.le_refl headerLen)
  have r0 := LTS.Reachable.start (M := loadInOrder twoPackets []) rfl
  have r1 := r0.snoc (sender_step nofun (.next rfl Nat.two_pos))
  have r2 := r1.snoc (sender_step nofun (.room rfl Int.one_pos))
  have r3 := r2.snoc (l := .sender) ⟨.stamp 5 rfl hpacket, fun _ _ index hi => (Nat.not_lt_zero index hi).elim⟩
  have r4 := r3.snoc (sender_step nofun (.publish rfl))
  have r5 := r4.snoc (sender_step nofun (.raise rfl))
  have r6 := r5.snoc (sender_step nofun (.sendOk rfl))
  have r7 := r6.snoc (sender_step nofun (.sent rfl))
  have r8 := r7.snoc (sender_step nofun (.next rfl Nat.one_lt_two))
  have r9 := r8.snoc (sender_step nofun (.full 200 rfl (Int.le_refl 1)))
  have c0 : ∀ {s}, (loadInOrder twoPackets []).Reachable s → ExpireOld twoPackets [] 200 s [] s := fun _ => .nil _
  have c1 := (c0 r9).snoc rfl (sender_step nofun (.expireLook rfl Nat.one_pos rfl))
  have c2 := c1.snoc rfl (sender_step nofun (.expireOld rfl (by decide)))
  have c3 := c2.snoc rfl (sender_step nofun (.expireSwap rfl rfl))
  have c4 := c3.snoc rfl (sender_step nofun (.expireSub rfl))
  have hcall := c4.snoc rfl (sender_step nofun (.expireEnd rfl (Nat.le_refl 1)))
  obtain ⟨-, -, -, hexact⟩ := expire_exact r9
  obtain ⟨-, -, hexpires⟩ := hexact 200 rfl _ _ hcall
  exact ⟨_, _, _, r9, rfl, hcall, rfl, rfl, hexpires rfl, Int.one_pos⟩

end Nucleo.Echo
