import Nucleo.Core.Flash
import Nucleo.Core.Prog
import Nucleo.L1Encoding.Firmware

/-!
# Confirming a trial image

Two programs set the `image_ok` flag of a trial boot: the one that comes with
the SSH updater and the one without it. They are run here on any flash, with
any outcome of each operation and any content left by a program that failed.

`confirm_agree_iff`: they issue the same program operations, and only on an
erased word, exactly unless the magic and the flag were read, the flag is not
set and its word is not erased: there the updater's copy programs a used word.
-/
namespace Nucleo.Firmware

abbrev FlashProg := Prog FlashCall FlashReply

def flashRead (offset len : Nat) : FlashProg (Option Bytes) :=
  Prog.perform (FlashCall.read offset len)

def flashWrite (offset : Nat) (data : Bytes) : FlashProg Bool :=
  Prog.perform (FlashCall.program offset data)

/-! ## `firmware_update.rs` -/

/-- mirrors Rust/src/firmware_update.rs:34-49 -/
def confirmRunningTrial : FlashProg Unit := do
  let magic_block := trailerMagicBlockOffset primarySlotOffset primarySlotSize
  let magic ← flashRead (magic_block + 16) 16
  if magic ≠ some mcubootTrailerMagic then
    return
  let image_ok := trailerImageOkOffset primarySlotOffset primarySlotSize
  match ← flashRead image_ok 1 with
  | none => return
  | some current =>
    if current.getD 0 0 ≠ 1 then
      let _ ← flashWrite image_ok mcubootImageOkBlock
    return

/-! ## `boot_confirmation.rs` -/

inductive ConfirmationError
  | read | unexpectedFlag | write | verify
  deriving DecidableEq, Repr

inductive Confirmation
  | factoryImage | alreadyConfirmed | confirmed
  deriving DecidableEq, Repr

/-- mirrors Rust/src/boot_confirmation.rs:24-56 -/
def confirmRunningTrialBoot : FlashProg (Except ConfirmationError Confirmation) := do
  let magic_offset := trailerMagicBlockOffset primarySlotOffset primarySlotSize
  match ← flashRead (magic_offset + 16) 16 with
  | none => return .error .read
  | some magic =>
    if magic ≠ mcubootTrailerMagic then
      return .ok .factoryImage
    let offset := trailerImageOkOffset primarySlotOffset primarySlotSize
    match ← flashRead offset flashWriteSize with
    | none => return .error .read
    | some block =>
      if block.getD 0 0 = 1 then
        return .ok .alreadyConfirmed
      if block ≠ erasedWord then
        return .error .unexpectedFlag
      if (← flashWrite offset mcubootImageOkBlock) = false then
        return .error .write
      match ← flashRead offset flashWriteSize with
      | none => return .error .read
      | some block =>
        if block ≠ mcubootImageOkBlock then
          return .error .verify
        return .ok .confirmed

/-! ## On a flash -/

/-- A flash under test: how many operations it has done, and which programs. -/
structure Bench where
  flash : Flash
  count : Nat
  issued : List (Nat × Bytes)

/-- Operation `n` succeeds if `outcome n`; one that fails leaves any flash, given
the content it was to leave. -/
def Bench.answer (outcome : Nat → Bool) (torn : Flash → Nat → Bytes → Flash) :
    (c : FlashCall) → Bench → FlashReply c × Bench
  | .read offset len, b =>
    (if outcome b.count then some (b.flash.range offset len) else none, { b with count := b.count + 1 })
  | .program offset data, b =>
    (outcome b.count,
      { flash := if outcome b.count then fun x =>
            if offset ≤ x ∧ x < offset + data.length then b.flash x &&& data.getD (x - offset) 0
            else b.flash x
          else torn b.flash offset data
        count := b.count + 1
        issued := b.issued ++ [(offset, data)] })
  | .erase start stop, b =>
    (outcome b.count,
      { b with
        flash := if outcome b.count then b.flash.erase start stop
          else torn b.flash start (List.replicate (stop - start) 0xff)
        count := b.count + 1 })

/-- The program operations a program issues on a flash. -/
def issued {α : Type} (outcome : Nat → Bool) (torn : Flash → Nat → Bytes → Flash) (flash : Flash)
    (p : FlashProg α) : List (Nat × Bytes) :=
  (p.eval (Bench.answer outcome torn) { flash, count := 0, issued := [] }).2.issued

/-- The trailer magic of the primary slot. -/
def TrialBoot (flash : Flash) : Prop :=
  flash.range (trailerMagicBlockOffset primarySlotOffset primarySlotSize + 16) 16 = mcubootTrailerMagic

instance (flash : Flash) : Decidable (TrialBoot flash) := by unfold TrialBoot; infer_instance

/-- `image_ok` of the primary slot. -/
def imageOkOffset : Nat := trailerImageOkOffset primarySlotOffset primarySlotSize

section Runs

variable (outcome : Nat → Bool) (torn : Flash → Nat → Bytes → Flash) (flash : Flash)

theorem eval_read {α : Type} (offset len : Nat) (next : Option Bytes → FlashProg α) (b : Bench) :
    (flashRead offset len >>= next).eval (Bench.answer outcome torn) b =
      (next (if outcome b.count then some (b.flash.range offset len) else none)).eval
        (Bench.answer outcome torn) { b with count := b.count + 1 } := rfl

theorem eval_write {α : Type} (offset : Nat) (data : Bytes) (next : Bool → FlashProg α) (b : Bench) :
    (flashWrite offset data >>= next).eval (Bench.answer outcome torn) b =
      (next (outcome b.count)).eval (Bench.answer outcome torn)
        (Bench.answer outcome torn (.program offset data) b).2 := rfl

theorem eval_pure {α : Type} (a : α) (b : Bench) :
    (pure a : FlashProg α).eval (Bench.answer outcome torn) b = (a, b) := rfl

theorem range_one (offset : Nat) : flash.range offset 1 = [flash offset] := rfl

theorem range_head (offset : Nat) : (flash.range offset flashWriteSize).getD 0 0 = flash offset := rfl

/-- The updater's copy looks at the magic and at one byte. -/
theorem issued_update : issued outcome torn flash confirmRunningTrial =
    if outcome 0 = true ∧ TrialBoot flash ∧ outcome 1 = true ∧ flash imageOkOffset ≠ 1 then
      [(imageOkOffset, mcubootImageOkBlock)]
    else [] := by
  unfold issued confirmRunningTrial TrialBoot imageOkOffset
  rw [eval_read]
  by_cases h0 : outcome 0 = true
  · by_cases hm : flash.range (trailerMagicBlockOffset primarySlotOffset primarySlotSize + 16) 16 =
        mcubootTrailerMagic
    · by_cases h1 : outcome 1 = true
      · by_cases hb : flash (trailerImageOkOffset primarySlotOffset primarySlotSize) = 1
        · simp [h0, hm, h1, hb, eval_read, eval_pure, range_one]
        · simp [h0, hm, h1, hb, eval_read, eval_write, eval_pure, Bench.answer, range_one]
      · simp [h0, hm, h1, eval_read, eval_pure]
    · simp [h0, hm, eval_pure]
  · simp [h0, eval_pure]

/-- The other looks at the whole word before it programs it. -/
theorem issued_boot : issued outcome torn flash confirmRunningTrialBoot =
    if outcome 0 = true ∧ TrialBoot flash ∧ outcome 1 = true ∧
        flash.range imageOkOffset flashWriteSize = erasedWord then
      [(imageOkOffset, mcubootImageOkBlock)]
    else [] := by
  unfold issued confirmRunningTrialBoot TrialBoot imageOkOffset
  rw [eval_read]
  by_cases h0 : outcome 0 = true
  · by_cases hm : flash.range (trailerMagicBlockOffset primarySlotOffset primarySlotSize + 16) 16 =
        mcubootTrailerMagic
    · by_cases h1 : outcome 1 = true
      · by_cases hb : flash.range (trailerImageOkOffset primarySlotOffset primarySlotSize)
            flashWriteSize = erasedWord
        · have hhead : ¬ erasedWord[0]?.getD 0 = 1 := by decide
          simp only [eval_read, h0, hm, h1, hb, if_true, ne_eq, not_true_eq_false, if_false,
            List.getD_eq_getElem?_getD, hhead, eval_write, and_self]
          -- whatever the write and the read-back say, nothing more is programmed
          split
          · rfl
          · rw [eval_read]
            split
            · rfl
            · split
              · rfl
              · rfl
        · simp only [eval_read, h0, hm, h1, hb, if_true, ne_eq, not_true_eq_false, if_false, and_false,
            not_false_eq_true]
          split
          · rfl
          · rfl
      · simp [h0, hm, h1, eval_read, eval_pure]
    · simp [h0, hm, eval_pure]
  · simp [h0, eval_pure]

/-- A program operation that sets the flag of a trial boot in an erased word. -/
def SetsErasedFlag (operation : Nat × Bytes) : Prop :=
  TrialBoot flash ∧ operation = (imageOkOffset, mcubootImageOkBlock) ∧
    flash.range imageOkOffset flashWriteSize = erasedWord

/-- The two programs do the same, and only what is safe. -/
def ConfirmAgree : Prop :=
  issued outcome torn flash confirmRunningTrial = issued outcome torn flash confirmRunningTrialBoot ∧
    ∀ operation ∈ issued outcome torn flash confirmRunningTrial ++
        issued outcome torn flash confirmRunningTrialBoot,
      SetsErasedFlag flash operation

/-- The flag is read as not set while its word is not erased. -/
def UsedFlag : Prop :=
  outcome 0 = true ∧ TrialBoot flash ∧ outcome 1 = true ∧ flash imageOkOffset ≠ 1 ∧
    flash.range imageOkOffset flashWriteSize ≠ erasedWord

theorem erased_flag {flash : Flash} (h : flash.range imageOkOffset flashWriteSize = erasedWord) :
    flash imageOkOffset ≠ 1 := by
  rw [← range_head flash imageOkOffset, h]
  decide

/-- **The copies agree exactly on flags that are set or erased.** -/
theorem confirm_agree_iff : ConfirmAgree outcome torn flash ↔ ¬ UsedFlag outcome flash := by
  unfold ConfirmAgree UsedFlag
  rw [issued_update, issued_boot]
  by_cases hread : outcome 0 = true ∧ TrialBoot flash ∧ outcome 1 = true
  · obtain ⟨h0, hm, h1⟩ := hread
    by_cases herased : flash.range imageOkOffset flashWriteSize = erasedWord
    · have hset := erased_flag herased
      simp [h0, hm, h1, herased, hset, SetsErasedFlag]
    · by_cases hset : flash imageOkOffset = 1
      · simp [h0, hm, h1, herased, hset]
      · simp [h0, hm, h1, herased, hset]
  · have hupdate : ¬ (outcome 0 = true ∧ TrialBoot flash ∧ outcome 1 = true ∧
        flash imageOkOffset ≠ 1) := fun ⟨h0, hm, h1, _⟩ => hread ⟨h0, hm, h1⟩
    have hboot : ¬ (outcome 0 = true ∧ TrialBoot flash ∧ outcome 1 = true ∧
        flash.range imageOkOffset flashWriteSize = erasedWord) :=
      fun ⟨h0, hm, h1, _⟩ => hread ⟨h0, hm, h1⟩
    have hused : ¬ (outcome 0 = true ∧ TrialBoot flash ∧ outcome 1 = true ∧
        flash imageOkOffset ≠ 1 ∧ flash.range imageOkOffset flashWriteSize ≠ erasedWord) :=
      fun ⟨h0, hm, h1, _⟩ => hread ⟨h0, hm, h1⟩
    rw [if_neg hupdate, if_neg hboot]
    simp only [List.append_nil, List.not_mem_nil, false_implies, implies_true, and_self, hused,
      not_false_eq_true]

end Runs

/-- A trial boot whose flag was cut short on the way to 1: its first byte is
neither erased nor set. -/
def halfSetFlag : Flash := fun x =>
  if x = imageOkOffset then 0x81
  else if trailerMagicBlockOffset primarySlotOffset primarySlotSize + 16 ≤ x ∧
      x < trailerMagicBlockOffset primarySlotOffset primarySlotSize + 32 then
    mcubootTrailerMagic.getD (x - (trailerMagicBlockOffset primarySlotOffset primarySlotSize + 16)) 0
  else 0xff

/-- **A used flash word is programmed again**, by the updater's copy alone. -/
theorem used_word_reprogrammed :
    issued (fun _ => true) (fun flash _ _ => flash) halfSetFlag confirmRunningTrial =
        [(imageOkOffset, mcubootImageOkBlock)] ∧
      issued (fun _ => true) (fun flash _ _ => flash) halfSetFlag confirmRunningTrialBoot = [] ∧
      ¬ ConfirmAgree (fun _ => true) (fun flash _ _ => flash) halfSetFlag := by
  have hmagic : TrialBoot halfSetFlag := by decide +kernel
  have hword : halfSetFlag.range imageOkOffset flashWriteSize ≠ erasedWord := by decide +kernel
  have hset : halfSetFlag imageOkOffset ≠ 1 := by decide +kernel
  refine ⟨?_, ?_, fun h => ?_⟩
  · rw [issued_update, if_pos ⟨rfl, hmagic, rfl, hset⟩]
  · rw [issued_boot, if_neg fun h => hword h.2.2.2]
  · have := h.1
    rw [issued_update, if_pos ⟨rfl, hmagic, rfl, hset⟩, issued_boot,
      if_neg fun h => hword h.2.2.2] at this
    cases this

end Nucleo.Firmware
