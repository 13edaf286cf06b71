import Nucleo.L1Encoding.Types

/-!
# Measurements of the load clients

What the trackers of `load_metrics.py` share: checked integers, a clock that
does not go back, counters and the round-trip histogram. A `ValueError` is its
text. Fields that only ever hold checked integers are naturals; counters and
differences of times are `Int`, as Python has them.

The three quantiles of a snapshot go through floating-point ranks, which stay
the parameter `Ranks`.
-/
namespace Nucleo.Metrics

def u32Max : Int := 2 ^ 32 - 1

def halfRange : Nat := 2 ^ 31

def maxTracked : Int := 4096

def maxRttNs : Nat := 60000000000

/-- mirrors Rust/tools/message-demo/python/load_metrics.py:18-21 -/
def integer (value minimum maximum : Int) (name : String) : Except String Nat :=
  if minimum ≤ value ∧ value ≤ maximum then .ok value.toNat
  else .error s!"{name} must be an integer in {minimum}..{maximum}"

def stamp (value : Int) : Except String Nat := integer value 0 (2 ^ 63 - 1) "monotonic_ns"

/-- `Clocked.clock`, from the last reading to the next.
mirrors Rust/tools/message-demo/python/load_metrics.py:32-36 -/
def clock (lastNow : Nat) (now : Int) : Except String Nat := do
  let now ← stamp now
  if now < lastNow then .error "monotonic clock moved backwards" else .ok now

/-- `n & U32_MAX`. -/
def wrap (n : Int) : Nat := (n % 2 ^ 32).toNat

/-! ## `Counter` -/

abbrev Counter (K : Type) := K → Int

namespace Counter

variable {K : Type} [DecidableEq K]

/-- `counter[key] += amount`. -/
def add (c : Counter K) (key : K) (amount : Int) : Counter K := fun k => if k = key then c k + amount else c k

@[simp] theorem add_self (c : Counter K) (key : K) (amount : Int) : c.add key amount key = c key + amount :=
  if_pos rfl

end Counter

/-! ## `Histogram` -/

/-- The loop that grows the edges, from the last one. -/
def growEdges : Nat → Nat → List Nat
  | 0, _ => []
  | fuel + 1, last =>
    if last < maxRttNs then
      let next := min maxRttNs ((last * 101 + 99) / 100)
      next :: growEdges fuel next
    else []

/-- `Histogram.edges`. -/
def edges : List Nat := 0 :: 1000 :: growEdges 2000 1000

/-- The fuel is enough: the edges end at the largest round trip. -/
theorem edges_last : edges.getLast? = some maxRttNs := by decide +kernel

/-- `bisect_left(edges, value)`. -/
def bisectLeft (edges : List Nat) (value : Nat) : Nat := edges.findIdx (value ≤ ·)

structure Histogram where
  buckets : List Nat := List.replicate edges.length 0
  count : Nat := 0
  totalNs : Nat := 0
  overflow : Nat := 0
  minimum : Option Nat := none
  maximum : Option Nat := none

/-- `math.ceil(fraction * count)` at the three fractions of a snapshot. -/
structure Ranks where
  p50 : Nat → Nat
  p95 : Nat → Nat
  p99 : Nat → Nat

structure Histogram.Snapshot where
  count : Nat
  sumNs : Nat
  minNs : Option Nat
  maxNs : Option Nat
  p50UpperNs : Option Nat
  p95UpperNs : Option Nat
  p99UpperNs : Option Nat
  overflow : Nat
  bins : List (Nat × Nat)
  deriving DecidableEq

namespace Histogram

/-- mirrors Rust/tools/message-demo/python/load_metrics.py:56-66 -/
def add (h : Histogram) (value : Int) : Except String Histogram := do
  let value ← stamp value
  let index := bisectLeft edges value
  .ok { h with
    count := h.count + 1
    totalNs := h.totalNs + value
    minimum := some (h.minimum.elim value (min · value))
    maximum := some (h.maximum.elim value (max · value))
    overflow := if index = edges.length then h.overflow + 1 else h.overflow
    buckets := if index = edges.length then h.buckets else h.buckets.modify index (· + 1) }

/-- A histogram that counted something has both extrema.
mirrors Rust/tools/message-demo/python/load_metrics.py:68-84 -/
def merge (h other : Histogram) : Histogram where
  buckets := List.zipWith (· + ·) h.buckets other.buckets
  count := h.count + other.count
  totalNs := h.totalNs + other.totalNs
  overflow := h.overflow + other.overflow
  minimum := if other.count = 0 then h.minimum else h.minimum.elim other.minimum fun a => other.minimum.map (min a)
  maximum := if other.count = 0 then h.maximum else h.maximum.elim other.maximum fun a => other.maximum.map (max a)

/-- The loop over edges and buckets. -/
def rankEdge (maximum : Option Nat) : Int → List (Nat × Nat) → Option Nat
  | _, [] => none
  | rank, (edge, count) :: rest =>
    if rank - count ≤ 0 then some (maximum.elim edge (min edge ·)) else rankEdge maximum (rank - count) rest

/-- mirrors Rust/tools/message-demo/python/load_metrics.py:86-96 -/
def quantile (h : Histogram) (rank : Nat → Nat) : Option Nat :=
  if h.count = 0 then none else rankEdge h.maximum (rank h.count) (edges.zip h.buckets)

/-- mirrors Rust/tools/message-demo/python/load_metrics.py:98-111 -/
def snapshot (h : Histogram) (ranks : Ranks) : Snapshot where
  count := h.count
  sumNs := h.totalNs
  minNs := h.minimum
  maxNs := h.maximum
  p50UpperNs := h.quantile ranks.p50
  p95UpperNs := h.quantile ranks.p95
  p99UpperNs := h.quantile ranks.p99
  overflow := h.overflow
  bins := (h.buckets.zipIdx.map fun (n, i) => (i, n)).filter fun (_, n) => n ≠ 0

/-- A time is a value. -/
theorem add_ok (h : Histogram) {value : Int} (h0 : 0 ≤ value) (h1 : value ≤ 2 ^ 63 - 1) :
    ∃ h', h.add value = .ok h' := by
  unfold add stamp integer
  rw [if_pos ⟨h0, h1⟩]
  exact ⟨_, rfl⟩

end Histogram

/-! ## Checked values -/

theorem integer_ok {value minimum maximum : Int} {name : String} {n : Nat} (h0 : 0 ≤ minimum) :
    integer value minimum maximum name = .ok n ↔ value = n ∧ minimum ≤ value ∧ value ≤ maximum := by
  unfold integer
  split
  · rename_i h
    constructor
    · intro he
      have := Except.ok.inj he
      omega
    · rintro ⟨rfl, -⟩
      rfl
  · rename_i h
    constructor
    · intro he
      cases he
    · rintro ⟨rfl, h1, h2⟩
      exact absurd ⟨h1, h2⟩ h

theorem integer_error {value minimum maximum : Int} {name e : String}
    (h : integer value minimum maximum name = .error e) : ¬ (minimum ≤ value ∧ value ≤ maximum) := by
  intro hrange
  rw [integer, if_pos hrange] at h
  cases h

theorem stamp_ok {value : Int} {n : Nat} : stamp value = .ok n ↔ value = n ∧ value ≤ 2 ^ 63 - 1 := by
  unfold stamp
  rw [integer_ok (Int.le_refl 0)]
  constructor
  · rintro ⟨h, -, h2⟩
    exact ⟨h, h2⟩
  · rintro ⟨h, h2⟩
    exact ⟨h, by omega, h2⟩

theorem clock_ok {lastNow : Nat} {now : Int} {n : Nat} :
    clock lastNow now = .ok n ↔ now = n ∧ now ≤ 2 ^ 63 - 1 ∧ lastNow ≤ n := by
  unfold clock
  constructor
  · intro h
    cases hs : stamp now with
    | error e =>
      rw [hs] at h
      cases h
    | ok k =>
      rw [hs] at h
      obtain ⟨hk, hmax⟩ := stamp_ok.1 hs
      change (if k < lastNow then _ else _) = _ at h
      split at h
      · cases h
      · cases h
        exact ⟨hk, hmax, by omega⟩
  · rintro ⟨rfl, hmax, hle⟩
    have hs : stamp n = .ok n := stamp_ok.2 ⟨rfl, hmax⟩
    rw [hs]
    exact if_neg (by omega)

end Nucleo.Metrics
