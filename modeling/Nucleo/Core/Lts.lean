import Mathlib

/-!
# Transition systems and deterministic machines

Two ways a component is run. `LTS` is a relation on states (a network, two
parties); `Machine` is a deterministic step with an output (one service
handling one call after the other). Both come with the induction that turns a
step lemma into a run lemma: `LTS.Inductive.reachable` and `Machine.run_inv`.
`LTS.Trace` is a stretch of a run that stays in some set of states.

A call may carry a clock reading. `Mono time t ls` says that the readings of
`ls` never go back, and never before `t`, and `Machine.run_drop` compares such
a run with the one that leaves some calls out.
-/
namespace Nucleo

/-! ## Relations -/

structure LTS (S L : Type) where
  init : S → Prop
  step : S → L → S → Prop

namespace LTS

variable {S L : Type} {M : LTS S L}

inductive Run (M : LTS S L) : S → List L → S → Prop
  | nil (s : S) : Run M s [] s
  | cons {s s' s'' : S} {l : L} {ls : List L} : M.step s l s' → Run M s' ls s'' → Run M s (l :: ls) s''

def Reachable (M : LTS S L) (s : S) : Prop := ∃ s₀ ls, M.init s₀ ∧ M.Run s₀ ls s

/-- `I` holds initially and is kept by every step. -/
structure Inductive (M : LTS S L) (I : S → Prop) : Prop where
  init : ∀ s, M.init s → I s
  step : ∀ s l s', I s → M.step s l s' → I s'

theorem Run.inv {I : S → Prop} (hstep : ∀ s l s', I s → M.step s l s' → I s') {s s' : S}
    {ls : List L} (h : M.Run s ls s') (hs : I s) : I s' := by
  induction h with
  | nil => exact hs
  | cons hst _ ih => exact ih (hstep _ _ _ hs hst)

theorem Run.append {s s' s'' : S} {ls ls' : List L} (h : M.Run s ls s') (h' : M.Run s' ls' s'') :
    M.Run s (ls ++ ls') s'' := by
  induction h with
  | nil => exact h'
  | cons hst _ ih => exact .cons hst (ih h')

theorem Reachable.start {s : S} (h : M.init s) : M.Reachable s := ⟨s, [], h, .nil s⟩

theorem Reachable.snoc {s s' : S} (h : M.Reachable s) {l : L} (hs : M.step s l s') :
    M.Reachable s' := by
  obtain ⟨s₀, ls, h0, hrun⟩ := h
  exact ⟨s₀, ls ++ [l], h0, hrun.append (.cons hs (.nil s'))⟩

theorem Inductive.reachable {I : S → Prop} (h : M.Inductive I) (s : S) (hr : M.Reachable s) :
    I s := by
  obtain ⟨s₀, ls, h0, hrun⟩ := hr
  exact hrun.inv h.step (h.init s₀ h0)

/-- A run, step by step, of which every step starts in `P`. -/
inductive Trace (M : LTS S L) (P : S → Prop) : S → List (S × L × S) → S → Prop
  | nil (s : S) : Trace M P s [] s
  | cons {s s' s'' : S} {l : L} {steps : List (S × L × S)} :
      P s → M.step s l s' → Trace M P s' steps s'' → Trace M P s ((s, l, s') :: steps) s''

theorem Trace.snoc {P : S → Prop} {s s' s'' : S} {l : L} {steps : List (S × L × S)} (h : M.Trace P s steps s')
    (hP : P s') (hs : M.step s' l s'') : M.Trace P s (steps ++ [(s', l, s'')]) s'' := by
  induction h with
  | nil => exact .cons hP hs (.nil _)
  | cons hP' hs' _ ih => exact .cons hP' hs' (ih hP hs)

theorem Trace.reachable {P : S → Prop} {s s' : S} {steps : List (S × L × S)} (h : M.Trace P s steps s')
    (hr : M.Reachable s) : M.Reachable s' := by
  induction h with
  | nil => exact hr
  | cons _ hs _ ih => exact ih (hr.snoc hs)

/-- The rule for what relates the two ends: it need only relate the ends of each step. -/
theorem Trace.rel {P : S → Prop} {R : S → S → Prop} (hrefl : ∀ s, R s s)
    (htrans : ∀ s s' s'', R s s' → R s' s'' → R s s'')
    (hstep : ∀ s l s', M.Reachable s → P s → M.step s l s' → R s s') {s s' : S}
    {steps : List (S × L × S)} (h : M.Trace P s steps s') (hr : M.Reachable s) : R s s' := by
  induction h with
  | nil => exact hrefl _
  | cons hP hs _ ih => exact htrans _ _ _ (hstep _ _ _ hr hP hs) (ih (hr.snoc hs))

/-- The last step, if there is one. -/
theorem Trace.last {P : S → Prop} {s s' : S} {steps : List (S × L × S)} (h : M.Trace P s steps s')
    (hr : M.Reachable s) : s' = s ∨ ∃ s₁ l, M.Reachable s₁ ∧ P s₁ ∧ M.step s₁ l s' := by
  induction h with
  | nil => exact .inl rfl
  | @cons s s₁ s' l steps hP hs _ ih =>
    rcases ih (hr.snoc hs) with rfl | hlast
    · exact .inr ⟨s, l, hr, hP, hs⟩
    · exact .inr hlast

end LTS

/-! ## Deterministic machines -/

structure Machine (S L O : Type) where
  step : S → L → S × O

namespace Machine

variable {S L O : Type} (M : Machine S L O)

def next (s : S) (l : L) : S := (M.step s l).1

def out (s : S) (l : L) : O := (M.step s l).2

def run (s : S) (ls : List L) : S := ls.foldl M.next s

/-- Every step of a run: the state it starts in, its label and its output. -/
def trace : S → List L → List (S × L × O)
  | _, [] => []
  | s, l :: ls => (s, l, M.out s l) :: trace (M.next s l) ls

@[simp] theorem run_nil (s : S) : M.run s [] = s := rfl

@[simp] theorem run_cons (s : S) (l : L) (ls : List L) :
    M.run s (l :: ls) = M.run (M.next s l) ls := rfl

theorem run_append (s : S) (ls ls' : List L) : M.run s (ls ++ ls') = M.run (M.run s ls) ls' := by
  simp [run, List.foldl_append]

theorem run_snoc (s : S) (ls : List L) (l : L) : M.run s (ls ++ [l]) = M.next (M.run s ls) l := by
  rw [run_append]; rfl

@[simp] theorem trace_nil (s : S) : M.trace s [] = [] := rfl

@[simp] theorem trace_cons (s : S) (l : L) (ls : List L) :
    M.trace s (l :: ls) = (s, l, M.out s l) :: M.trace (M.next s l) ls := rfl

theorem trace_append (s : S) (ls ls' : List L) :
    M.trace s (ls ++ ls') = M.trace s ls ++ M.trace (M.run s ls) ls' := by
  induction ls generalizing s with
  | nil => rfl
  | cons l ls ih => simp [ih]

theorem trace_snoc (s : S) (ls : List L) (l : L) :
    M.trace s (ls ++ [l]) = M.trace s ls ++ [(M.run s ls, l, M.out (M.run s ls) l)] := by
  rw [trace_append]; rfl

/-- The run rule: what every step keeps, every run keeps. -/
theorem run_inv {I : S → Prop} (hstep : ∀ s l, I s → I (M.next s l)) (s : S) (hs : I s)
    (ls : List L) : I (M.run s ls) := by
  induction ls generalizing s with
  | nil => exact hs
  | cons l ls ih => exact ih _ (hstep s l hs)

/-- The run rule with a ghost value that follows the run. -/
theorem run_ghost {G : Type} (ghost : G → S → L → G) {I : S → G → Prop}
    (hstep : ∀ s g l, I s g → I (M.next s l) (ghost g s l)) (s : S) (g : G) (h : I s g) (ls : List L) :
    I (M.run s ls) ((M.trace s ls).foldl (fun g e => ghost g e.1 e.2.1) g) := by
  induction ls generalizing s g with
  | nil => exact h
  | cons l ls ih => exact ih _ _ (hstep s g l h)

/-- Every entry of a trace is a step from a state that keeps the invariant. -/
theorem trace_inv {I : S → Prop} (hstep : ∀ s l, I s → I (M.next s l)) (s : S) (hs : I s)
    (ls : List L) : ∀ e ∈ M.trace s ls, I e.1 ∧ e.2.2 = M.out e.1 e.2.1 := by
  induction ls generalizing s with
  | nil => intro e he; cases he
  | cons l ls ih =>
    intro e he
    rcases List.mem_cons.1 he with rfl | he
    · exact ⟨hs, rfl⟩
    · exact ih _ (hstep s l hs) e he

end Machine

/-! ## Clock readings -/

/-- The readings of `ls` are nondecreasing and start at `t` or later. -/
def Mono {L : Type} (time : L → Option Nat) : Nat → List L → Prop
  | _, [] => True
  | t, l :: ls => match time l with
    | none => Mono time t ls
    | some n => t ≤ n ∧ Mono time n ls

theorem Mono.of_append {L : Type} {time : L → Option Nat} {t : Nat} {ls ls' : List L}
    (h : Mono time t (ls ++ ls')) : Mono time t ls := by
  induction ls generalizing t with
  | nil => trivial
  | cons l ls ih =>
    simp only [List.cons_append, Mono] at h ⊢
    split at h
    · exact ih h
    · exact ⟨h.1, ih h.2⟩

/-- The reading of the label, if any, is not before the clock. -/
def Timely {L : Type} (time : L → Option Nat) (clock : Nat) (l : L) : Prop :=
  ∀ n, time l = some n → clock ≤ n

theorem mono_cons {L : Type} {time : L → Option Nat} {t : Nat} {l : L} {ls : List L} :
    Mono time t (l :: ls) ↔ Timely time t l ∧ Mono time ((time l).getD t) ls := by
  simp only [Mono, Timely]
  cases time l with
  | none => simp
  | some n => simp

instance {L : Type} (time : L → Option Nat) (clock : Nat) (l : L) : Decidable (Timely time clock l) :=
  decidable_of_iff ((time l).all (clock ≤ ·) = true) (by unfold Timely; cases time l <;> simp)

instance Mono.decidable {L : Type} (time : L → Option Nat) :
    (t : Nat) → (ls : List L) → Decidable (Mono time t ls)
  | _, [] => isTrue trivial
  | t, l :: ls =>
    have := Mono.decidable time ((time l).getD t) ls
    decidable_of_iff _ mono_cons.symm

/-! ## Deleting labels from a run -/

/-- Two runs, the second without the labels that `keep` rejects: if kept
labels preserve `R`, and a rejected label preserves it in the first run as
long as the first run stays `live`, then the runs stay related and make the
same observations at the kept labels. -/
theorem Machine.run_drop {S L O A : Type} (M : Machine S L O) {time : L → Option Nat}
    {clk : S → Nat} {R : S → S → Prop} {live : S → Prop} {keep : L → Bool}
    {obs : S → L → Option A}
    (hclk : ∀ s s' l, R s s' → clk (M.next s l) = (time l).getD (clk s))
    (hkeep : ∀ s s' l, R s s' → keep l = true → Timely time (clk s) l → R (M.next s l) (M.next s' l))
    (hdrop : ∀ s s' l, R s s' → keep l = false → Timely time (clk s) l → live s →
      live (M.next s l) → R (M.next s l) s')
    (hobs : ∀ s s' l, R s s' → keep l = true → Timely time (clk s) l → obs s' l = obs s l)
    (hnone : ∀ s l, keep l = false → obs s l = none) {s s' : S} (h : R s s') {ls : List L}
    (hm : Mono time (clk s) ls) (hl : ∀ e ∈ M.trace s ls, live e.1) :
    (M.trace s' (ls.filter keep)).filterMap (fun e => obs e.1 e.2.1) =
        (M.trace s ls).filterMap (fun e => obs e.1 e.2.1) ∧
      (live (M.run s ls) → R (M.run s ls) (M.run s' (ls.filter keep))) := by
  induction ls generalizing s s' with
  | nil => exact ⟨rfl, fun _ => h⟩
  | cons l ls ih =>
    obtain ⟨ht, hm⟩ := mono_cons.1 hm
    rw [← hclk s s' l h] at hm
    have hls : ∀ e ∈ M.trace (M.next s l) ls, live e.1 := fun e he =>
      hl e (List.mem_cons_of_mem _ he)
    cases hk : keep l with
    | true =>
      obtain ⟨i1, i2⟩ := ih (hkeep s s' l h hk ht) hm hls
      simp only [List.filter_cons, hk, if_true, trace_cons, List.filterMap_cons, hobs s s' l h hk ht,
        run_cons]
      exact ⟨by rw [i1], i2⟩
    | false =>
      simp only [List.filter_cons, hk, Bool.false_eq_true, if_false, trace_cons, List.filterMap_cons,
        hnone s l hk, run_cons]
      cases ls with
      | nil => exact ⟨rfl, fun hlive => hdrop s s' l h hk ht (hl _ List.mem_cons_self) hlive⟩
      | cons l' ls =>
        have hlive : live (M.next s l) := hls _ List.mem_cons_self
        exact ih (hdrop s s' l h hk ht (hl _ List.mem_cons_self) hlive) hm hls

end Nucleo
