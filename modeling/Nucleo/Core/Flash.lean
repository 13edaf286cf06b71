import Mathlib

/-!
# NOR flash

A flash is a byte for every address. Erasing sets a range to `0xff`,
programming can only clear bits, and either may fail, or be cut short, with
any content left in its own range and nothing touched outside. `Replay` is
what a sequence of operations may have made of a flash.

Results:
* `Replay.untouched`: an address outside every operation keeps its byte.
* `Replay.erased`: one erased and not touched since is `0xff`.
* `Programs.content`: consecutive programs of an erased range leave their data.
-/
namespace Nucleo

abbrev Flash := Nat → UInt8

/-- An operation with its outcome. -/
inductive FlashOp
  | erase (start stop : Nat) (ok : Bool)
  | program (offset : Nat) (data : List UInt8) (ok : Bool)
  | read (offset len : Nat) (found : Option (List UInt8))
  deriving DecidableEq, Repr

/-- The bytes of a range. -/
def Flash.range (flash : Flash) (offset len : Nat) : List UInt8 :=
  (List.range len).map fun i => flash (offset + i)

/-- What a blocking driver is asked for. -/
inductive FlashCall
  | erase (start stop : Nat)
  | program (offset : Nat) (data : List UInt8)
  | read (offset len : Nat)
  deriving DecidableEq, Repr

/-- Whether it succeeded, and for a read what was found. -/
abbrev FlashReply : FlashCall → Type
  | .erase _ _ => Bool
  | .program _ _ => Bool
  | .read _ _ => Option (List UInt8)

/-- A call and its reply as one operation. -/
def FlashCall.op : (c : FlashCall) → FlashReply c → FlashOp
  | .erase start stop, ok => .erase start stop ok
  | .program offset data, ok => .program offset data ok
  | .read offset len, found => .read offset len found

namespace FlashOp

/-- The addresses an operation may change. -/
def Touches (op : FlashOp) (x : Nat) : Prop :=
  match op with
  | .erase start stop _ => start ≤ x ∧ x < stop
  | .program offset data _ => offset ≤ x ∧ x < offset + data.length
  | .read _ _ _ => False

/-- What an operation with this outcome may do. -/
def Effect (flash : Flash) (op : FlashOp) (flash' : Flash) : Prop :=
  (∀ x, ¬ op.Touches x → flash' x = flash x) ∧
    match op with
    | .erase start stop true => ∀ x, start ≤ x → x < stop → flash' x = 0xff
    | .program offset data true =>
      ∀ i (h : i < data.length), flash' (offset + i) = flash (offset + i) &&& data[i]
    | .read offset len (some found) => found = flash.range offset len
    | _ => True

end FlashOp

/-! ## A flash without faults -/

def Flash.erase (flash : Flash) (start stop : Nat) : Flash :=
  fun x => if start ≤ x ∧ x < stop then 0xff else flash x

def Flash.program (flash : Flash) (offset : Nat) (data : List UInt8) : Flash :=
  fun x => if offset ≤ x then flash x &&& data.getD (x - offset) 0xff else flash x

theorem Flash.erase_effect (flash : Flash) (start stop : Nat) :
    (FlashOp.erase start stop true).Effect flash (flash.erase start stop) :=
  ⟨fun _ hx => if_neg hx, fun _ h1 h2 => if_pos ⟨h1, h2⟩⟩

theorem Flash.program_effect (flash : Flash) (offset : Nat) (data : List UInt8) :
    (FlashOp.program offset data true).Effect flash (flash.program offset data) := by
  refine ⟨fun x hx => ?_, fun i hi => ?_⟩
  · unfold Flash.program
    split
    · rename_i hle
      have hge : data.length ≤ x - offset := by
        by_contra hlt
        exact hx ⟨hle, by omega⟩
      rw [List.getD_eq_default _ _ hge]
      exact UInt8.and_neg_one
    · rfl
  · unfold Flash.program
    rw [if_pos (Nat.le_add_right _ _), Nat.add_sub_cancel_left, List.getD_eq_getElem _ _ hi]

theorem Flash.read_effect (flash : Flash) (offset len : Nat) :
    (FlashOp.read offset len (some (flash.range offset len))).Effect flash flash :=
  ⟨fun _ _ => rfl, rfl⟩

/-! ## Sequences -/

/-- Operations one after the other. -/
inductive Replay : Flash → List FlashOp → Flash → Prop
  | nil (flash : Flash) : Replay flash [] flash
  | snoc {flash flash' flash'' : Flash} {ops : List FlashOp} {op : FlashOp} :
      Replay flash ops flash' → op.Effect flash' flash'' → Replay flash (ops ++ [op]) flash''

namespace Replay

theorem eq_of_nil {flash flash' : Flash} (h : Replay flash [] flash') : flash' = flash := by
  generalize hops : ([] : List FlashOp) = ops at h
  cases h with
  | nil => rfl
  | snoc _ _ => simp at hops

/-- A replay cut in two. -/
theorem split {flash flash' : Flash} {ops ops' : List FlashOp} (h : Replay flash (ops ++ ops') flash') :
    ∃ mid, Replay flash ops mid ∧ Replay mid ops' flash' := by
  induction ops' using List.reverseRecOn generalizing flash' with
  | nil => exact ⟨flash', by simpa using h, .nil _⟩
  | append_singleton ops' op ih =>
    rw [← List.append_assoc] at h
    generalize hops : ops ++ ops' ++ [op] = l at h
    cases h with
    | nil => simp at hops
    | snoc hprev heff =>
      obtain ⟨rfl, he⟩ := List.append_inj' hops rfl
      cases he
      obtain ⟨mid, h1, h2⟩ := ih hprev
      exact ⟨mid, h1, .snoc h2 heff⟩

theorem cons {flash flash' : Flash} {op : FlashOp} {ops : List FlashOp}
    (h : Replay flash (op :: ops) flash') :
    ∃ mid, op.Effect flash mid ∧ Replay mid ops flash' := by
  have h : Replay flash ([op] ++ ops) flash' := h
  obtain ⟨mid, h1, h2⟩ := h.split
  refine ⟨mid, ?_, h2⟩
  generalize hops : [op] = l at h1
  cases h1 with
  | nil => cases hops
  | snoc hprev heff =>
    have hops : [] ++ [op] = _ ++ [_] := hops
    obtain ⟨hnil, he⟩ := List.append_inj' hops rfl
    cases he
    subst hnil
    rwa [hprev.eq_of_nil] at heff

theorem untouched {flash flash' : Flash} {ops : List FlashOp} (h : Replay flash ops flash') {x : Nat}
    (hx : ∀ op ∈ ops, ¬ op.Touches x) : flash' x = flash x := by
  induction h with
  | nil => rfl
  | snoc _ heff ih =>
    rw [heff.1 x (hx _ (by simp)), ih fun op hop => hx op (by simp [hop])]

/-- After an erase, what is not touched again is erased. -/
theorem erased {flash flash' : Flash} {start stop : Nat} {ops : List FlashOp}
    (h : Replay flash (.erase start stop true :: ops) flash') {x : Nat} (h1 : start ≤ x) (h2 : x < stop)
    (hx : ∀ op ∈ ops, ¬ op.Touches x) : flash' x = 0xff := by
  obtain ⟨mid, heff, hrest⟩ := h.cons
  rw [hrest.untouched hx]
  exact heff.2 x h1 h2

end Replay

/-! ## Consecutive operations -/

/-- Successful programs of adjacent ranges from `offset` on, and their data. -/
inductive Programs (offset : Nat) : List FlashOp → List UInt8 → Prop
  | nil : Programs offset [] []
  | snoc {ops : List FlashOp} {data bytes : List UInt8} : Programs offset ops data →
      Programs offset (ops ++ [.program (offset + data.length) bytes true]) (data ++ bytes)

/-- Successful reads of adjacent ranges from `offset` on, and what they found. -/
inductive Reads (offset : Nat) : List FlashOp → List UInt8 → Prop
  | nil : Reads offset [] []
  | snoc {ops : List FlashOp} {found bytes : List UInt8} : Reads offset ops found →
      Reads offset (ops ++ [.read (offset + found.length) bytes.length (some bytes)]) (found ++ bytes)

theorem Programs.within {offset : Nat} {ops : List FlashOp} {data : List UInt8}
    (h : Programs offset ops data) : ∀ op ∈ ops, ∃ start bytes, op = .program start bytes true ∧
      offset ≤ start ∧ start + bytes.length ≤ offset + data.length := by
  induction h with
  | nil => intro op hop; cases hop
  | snoc _ ih =>
    intro op hop
    rcases List.mem_append.1 hop with hop | hop
    · obtain ⟨start, bytes, he, h1, h2⟩ := ih op hop
      exact ⟨start, bytes, he, h1, by rw [List.length_append]; omega⟩
    · refine ⟨_, _, List.mem_singleton.1 hop, Nat.le_add_right _ _, ?_⟩
      rw [List.length_append]
      omega

theorem Reads.within {offset : Nat} {ops : List FlashOp} {found : List UInt8}
    (h : Reads offset ops found) : ∀ op ∈ ops, ∃ start bytes, op = .read start bytes.length (some bytes) ∧
      offset ≤ start ∧ start + bytes.length ≤ offset + found.length := by
  induction h with
  | nil => intro op hop; cases hop
  | snoc _ ih =>
    intro op hop
    rcases List.mem_append.1 hop with hop | hop
    · obtain ⟨start, bytes, he, h1, h2⟩ := ih op hop
      exact ⟨start, bytes, he, h1, by rw [List.length_append]; omega⟩
    · refine ⟨_, _, List.mem_singleton.1 hop, Nat.le_add_right _ _, ?_⟩
      rw [List.length_append]
      omega

/-- **Programming an erased range leaves the data there**, and nothing else. -/
theorem Programs.content {offset : Nat} {ops : List FlashOp} {data : List UInt8}
    (h : Programs offset ops data) {flash flash' : Flash} (hr : Replay flash ops flash')
    (hblank : ∀ i < data.length, flash (offset + i) = 0xff) :
    ∀ i (hi : i < data.length), flash' (offset + i) = data[i] := by
  induction h generalizing flash' with
  | nil => intro i hi; cases hi
  | @snoc ops data bytes hprev ih =>
    obtain ⟨mid, h1, h2⟩ := hr.split
    obtain ⟨last, heff, hnil⟩ := h2.cons
    obtain rfl := hnil.eq_of_nil
    intro i hi
    rw [List.length_append] at hi
    rcases Nat.lt_or_ge i data.length with hlt | hge
    · have hkeep : ¬ (FlashOp.program (offset + data.length) bytes true).Touches (offset + i) := by
        intro ht
        have := ht.1
        omega
      rw [heff.1 _ hkeep, List.getElem_append_left hlt]
      exact ih h1 (fun j hj => hblank j (by rw [List.length_append]; omega)) i hlt
    · -- the last program finds its range as the erase left it
      have hmid : mid (offset + i) = 0xff := by
        rw [h1.untouched, hblank i (by rw [List.length_append]; omega)]
        intro op hop ht
        obtain ⟨start, bytes', rfl, -, hle⟩ := hprev.within op hop
        have := ht.2
        omega
      have hbyte := heff.2 (i - data.length) (by omega)
      have hpos : offset + data.length + (i - data.length) = offset + i := by omega
      rw [hpos, hmid] at hbyte
      rw [hbyte, List.getElem_append_right hge]
      exact UInt8.neg_one_and

/-- Reads change nothing and find what is there. -/
theorem Reads.found {offset : Nat} {ops : List FlashOp} {found : List UInt8}
    (h : Reads offset ops found) {flash flash' : Flash} (hr : Replay flash ops flash') :
    flash' = flash ∧ found = flash.range offset found.length := by
  induction h generalizing flash' with
  | nil => exact ⟨hr.eq_of_nil, rfl⟩
  | @snoc ops found bytes _ ih =>
    obtain ⟨mid, h1, h2⟩ := hr.split
    obtain ⟨last, heff, hnil⟩ := h2.cons
    obtain rfl := hnil.eq_of_nil
    obtain ⟨rfl, hfound⟩ := ih h1
    refine ⟨funext fun x => heff.1 x fun ht => ht, ?_⟩
    have hbytes : bytes = mid.range (offset + found.length) bytes.length := heff.2
    rw [List.length_append, Flash.range, List.range_add, List.map_append, List.map_map, ← Flash.range,
      ← hfound]
    congr 1
    rw [hbytes]
    simp [Flash.range, Nat.add_assoc, Function.comp_def]

end Nucleo
