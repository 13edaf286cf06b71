import Nucleo.Core.Decimal
import Nucleo.Core.Flash
import Nucleo.Core.Prog
import Nucleo.Core.Word
import Nucleo.L1Encoding.Firmware

/-!
# Staging an uploaded image

`receive` reads a header and an image from a stream, erases the secondary slot,
programs the image into it chunk by chunk, hashes what came in and what it reads
back, and programs two trailer words, the magic last. It is run here against a
stream that delivers any chunks, ends or fails at any point, and a flash whose
operations may fail, and it may be cut after any call.

`Stage` lists how far a run can have come, as the bytes streamed and the flash
operations issued so far. `receive_stage` is the one theorem about the program:
every prefix of every run is at a `Stage`.
-/
namespace Nucleo.Firmware

/-! ## Calls -/

/-- `sunset::Error`, by the message of the one error made here. -/
inductive StreamError
  | transport
  | msg (text : String)
  deriving DecidableEq, Repr

/-- What one `Read::read` into a buffer of `room` bytes delivered. -/
structure Chunk (room : Nat) where
  bytes : Bytes
  fits : bytes.length ≤ room

inductive UploadCall
  | read (room : Nat)
  | writeAll (text : Bytes)
  | flush
  | flash (c : FlashCall)
  | pause (milliseconds : Nat)
  | sysReset

/-- `sys_reset` does not return. -/
abbrev UploadReply : UploadCall → Type
  | .read room => Except StreamError (Chunk room)
  | .writeAll _ => Except StreamError Unit
  | .flush => Except StreamError Unit
  | .flash c => FlashReply c
  | .pause _ => Unit
  | .sysReset => Empty

abbrev Upload := ExceptT StreamError (Prog UploadCall UploadReply)

def read (room : Nat) : Upload (Chunk room) := ExceptT.mk (Prog.perform (UploadCall.read room))

def writeAll (text : Bytes) : Upload Unit := ExceptT.mk (Prog.perform (UploadCall.writeAll text))

def flush : Upload Unit := ExceptT.mk (Prog.perform UploadCall.flush)

def blockingErase (start stop : Nat) : Upload Bool :=
  ExceptT.lift (Prog.perform (UploadCall.flash (.erase start stop)))

def blockingWrite (offset : Nat) (data : Bytes) : Upload Bool :=
  ExceptT.lift (Prog.perform (UploadCall.flash (.program offset data)))

def blockingRead (offset len : Nat) : Upload (Option Bytes) :=
  ExceptT.lift (Prog.perform (UploadCall.flash (.read offset len)))

/-! ## `firmware_update.rs` -/

/-- `TRANSFER_BUFFER_SIZE`. -/
def transferBufferSize : Nat := 1024

/-- `PROGRESS_INTERVAL`. -/
def progressInterval : Nat := 16 * 1024

/-- The destination, filled.
mirrors Rust/src/firmware_update.rs:160-172 -/
def readExact (room : Nat) : Upload Bytes :=
  if room = 0 then pure []
  else do
    let chunk ← read room
    if chunk.bytes.length = 0 then throw (.msg "firmware upload ended early")
    else do
      let rest ← readExact (room - chunk.bytes.length)
      return chunk.bytes ++ rest
termination_by room
decreasing_by omega

/-- mirrors Rust/src/firmware_update.rs:174-183 -/
def writeProgress (received total : Nat) : Upload Unit := do
  writeAll (ascii "PROGRESS " ++ Decimal.text received ++ ascii "/" ++ Decimal.text total ++ ascii "\n")
  flush

/-- `count.div_ceil(FLASH_WRITE_SIZE) * FLASH_WRITE_SIZE`. -/
def padded (count : Nat) : Nat := (count + (flashWriteSize - 1)) / flashWriteSize * flashWriteSize

/-- The loop that receives, hashes and programs; `hashed` is what went into the
hasher. `none`: an error was reported and `receive` has returned.
mirrors Rust/src/firmware_update.rs:83-113 -/
def transfer (header : UpdateHeader) (received next_progress : Nat) (hashed : Bytes) :
    Upload (Option Bytes) :=
  if received < header.image_length then do
    let count := min transferBufferSize (header.image_length - received)
    let bytes ← readExact count
    let buffer := bytes ++ List.replicate (transferBufferSize - count) 0xff
    if received = 0 ∧ hasMcubootImageMagic (buffer.take count) = false then do
      writeAll (ascii "ERR not an MCUboot image\n")
      return none
    else do
      let ok ← blockingWrite (stagedImageOffset + received) (buffer.take (padded count))
      if ok = false then do
        writeAll (ascii "ERR flash write\n")
        return none
      else if received + count ≥ next_progress ∨ received + count = header.image_length then do
        writeProgress (received + count) header.image_length
        transfer header (received + count) (min (received + count + progressInterval) u32Max)
          (hashed ++ buffer.take count)
      else transfer header (received + count) next_progress (hashed ++ buffer.take count)
  else return some hashed
termination_by header.image_length - received
decreasing_by all_goals (simp only [transferBufferSize]; omega)

/-- The loop that hashes what the flash holds.
mirrors Rust/src/firmware_update.rs:120-135 -/
def readBack (header : UpdateHeader) (checked : Nat) (hashed : Bytes) : Upload (Option Bytes) :=
  if checked < header.image_length then do
    let count := min transferBufferSize (header.image_length - checked)
    match ← blockingRead (stagedImageOffset + checked) count with
    | none => do
      writeAll (ascii "ERR flash read-back\n")
      return none
    | some buffer => readBack header (checked + count) (hashed ++ buffer)
  else return some hashed
termination_by header.image_length - checked
decreasing_by simp only [transferBufferSize]; omega

/-- The swap info of the secondary slot. -/
def swapInfoOffset : Nat := trailerSwapInfoOffset secondarySlotOffset secondarySlotSize

/-- The magic of the secondary slot. -/
def magicOffset : Nat := trailerMagicBlockOffset secondarySlotOffset secondarySlotSize

/-- The two trailer words, and the reset.
mirrors Rust/src/firmware_update.rs:141-157 -/
def activate : Upload Unit := do
  let ok ← blockingWrite swapInfoOffset mcubootTestSwapInfoBlock
  if ok = false then writeAll (ascii "ERR activation marker\n")
  else do
    let ok ← blockingWrite magicOffset mcubootMagicBlock
    if ok = false then writeAll (ascii "ERR activation marker\n")
    else do
      writeAll (ascii "OK rebooting into trial image\n")
      flush
      ExceptT.lift (Prog.perform (UploadCall.pause 500))
      let never ← ExceptT.lift (Prog.perform UploadCall.sysReset)
      nomatch never

/-- From the accepted header on.
mirrors Rust/src/firmware_update.rs:66-158 -/
def stage (sha : Bytes → Bytes) (header : UpdateHeader) : Upload Unit := do
  writeAll (ascii "ERASING\n")
  flush
  let ok ← blockingErase secondarySlotOffset (secondarySlotOffset + secondarySlotSize)
  if ok = false then writeAll (ascii "ERR flash erase\n")
  else do
    writeAll (ascii "READY\n")
    flush
    match ← transfer header 0 progressInterval [] with
    | none => return
    | some hashed =>
      if sha hashed ≠ header.sha256 then writeAll (ascii "ERR transfer digest\n")
      else
        match ← readBack header 0 [] with
        | none => return
        | some hashed =>
          if sha hashed ≠ header.sha256 then writeAll (ascii "ERR read-back digest\n")
          else activate

/-- mirrors Rust/src/firmware_update.rs:52-158 -/
def receive (sha : Bytes → Bytes) : Upload Unit := do
  let encoded_header ← readExact updateHeaderSize
  match UpdateHeader.decode encoded_header with
  | .error _ => writeAll (ascii "ERR invalid header\n")
  | .ok header => stage sha header

/-! ## The device -/

inductive Event
  /-- the stream delivered bytes -/
  | got (bytes : Bytes)
  /-- a flash operation was issued and came out so -/
  | did (op : FlashOp)
  deriving DecidableEq, Repr

/-- The flash, and what has happened so far. -/
structure World where
  flash : Flash
  events : List Event

/-- All bytes the stream delivered. -/
def streamed (events : List Event) : Bytes :=
  events.flatMap fun
    | .got bytes => bytes
    | .did _ => []

/-- All flash operations issued. -/
def operations (events : List Event) : List FlashOp :=
  events.filterMap fun
    | .got _ => none
    | .did op => some op

/-- Reads deliver any chunk or fail, writes may fail, a flash operation has any
outcome it can have. -/
def device : Device UploadCall UploadReply World
  | .read _, w, reply, w' => match reply with
    | .ok chunk => w' = { w with events := w.events ++ [.got chunk.bytes] }
    | .error _ => w' = w
  | .writeAll _, w, _, w' => w' = w
  | .flush, w, _, w' => w' = w
  | .flash c, w, reply, w' =>
    (c.op reply).Effect w.flash w'.flash ∧ w'.events = w.events ++ [.did (c.op reply)]
  | .pause _, w, _, w' => w' = w
  | .sysReset, _, _, _ => False

/-! ## How far a run can have come -/

/-- What the last program adds after `len` bytes, up to a whole flash word. -/
def padding (len : Nat) : Bytes := List.replicate (padded len - len) 0xff

/-- The erase of the secondary slot. -/
def erased (ok : Bool) : FlashOp :=
  .erase secondarySlotOffset (secondarySlotOffset + secondarySlotSize) ok

/-- A header was accepted; of the image after it, `image` is programmed and
`rest` is not. -/
structure Accepted (s : Bytes) (header : UpdateHeader) (image rest : Bytes) : Prop where
  split : ∃ encoded, encoded.length = updateHeaderSize ∧
    UpdateHeader.decode encoded = .ok header ∧ s = encoded ++ (image ++ rest)
  fits : image.length + rest.length ≤ header.image_length

/-- The programs so far hold `image`. -/
structure Filled (header : UpdateHeader) (image : Bytes) (progs : List FlashOp) : Prop where
  programs : Programs stagedImageOffset progs (image ++ padding image.length)
  magic : image ≠ [] → hasMcubootImageMagic image = true
  whole : image.length = header.image_length ∨ transferBufferSize ∣ image.length
  aligned : ∀ op ∈ progs, ∃ offset data ok, op = .program offset data ok ∧
    flashWriteSize ∣ offset ∧ flashWriteSize ∣ data.length

/-- The image is complete and has the digest of the header; `back` of it was
read back. -/
structure Checked (sha : Bytes → Bytes) (s : Bytes) (header : UpdateHeader) (image back : Bytes)
    (progs reads : List FlashOp) : Prop where
  accepted : Accepted s header image []
  filled : Filled header image progs
  complete : image.length = header.image_length
  digest : sha image = header.sha256
  reads : Reads stagedImageOffset reads back
  within : back.length ≤ header.image_length

/-- All of it was read back, with the digest of the header. -/
structure Verified (sha : Bytes → Bytes) (s : Bytes) (header : UpdateHeader) (image back : Bytes)
    (progs reads : List FlashOp) : Prop where
  checked : Checked sha s header image back progs reads
  covered : back.length = header.image_length
  digest : sha back = header.sha256

/-- The bytes streamed and the operations issued at any point of a run. -/
inductive Stage (sha : Bytes → Bytes) : Bytes → List FlashOp → Prop
  | waiting (s : Bytes) : Stage sha s []
  | eraseFailed {s : Bytes} {header : UpdateHeader} : Accepted s header [] [] →
      Stage sha s [erased false]
  | filling {s : Bytes} {header : UpdateHeader} {image rest : Bytes} {progs : List FlashOp} :
      Accepted s header image rest → Filled header image progs → Stage sha s (erased true :: progs)
  | writeFailed {s : Bytes} {header : UpdateHeader} {image rest data : Bytes}
      {progs : List FlashOp} :
      Accepted s header image rest → Filled header image progs →
      transferBufferSize ∣ image.length → data = rest ++ padding rest.length →
      Stage sha s
        (erased true :: (progs ++ [.program (stagedImageOffset + image.length) data false]))
  | checking {s : Bytes} {header : UpdateHeader} {image back : Bytes} {progs reads : List FlashOp} :
      Checked sha s header image back progs reads →
      Stage sha s (erased true :: (progs ++ reads))
  | readFailed {s : Bytes} {header : UpdateHeader} {image back : Bytes} {progs reads : List FlashOp}
      {len : Nat} : Checked sha s header image back progs reads →
      back.length + len ≤ header.image_length → Stage sha s
        (erased true :: (progs ++ (reads ++ [.read (stagedImageOffset + back.length) len none])))
  | marked {s : Bytes} {header : UpdateHeader} {image back : Bytes} {progs reads : List FlashOp}
      (ok : Bool) : Verified sha s header image back progs reads →
      Stage sha s (erased true ::
        (progs ++ (reads ++ [.program swapInfoOffset mcubootTestSwapInfoBlock ok])))
  | activated {s : Bytes} {header : UpdateHeader} {image back : Bytes} {progs reads : List FlashOp}
      (ok : Bool) : Verified sha s header image back progs reads →
      Stage sha s (erased true ::
        (progs ++ (reads ++ [.program swapInfoOffset mcubootTestSwapInfoBlock true,
          .program magicOffset mcubootMagicBlock ok])))

/-! ## Rules for the calls -/

/-- The bytes streamed and the operations issued so far. -/
def At (s : Bytes) (ops : List FlashOp) (w : World) : Prop :=
  streamed w.events = s ∧ operations w.events = ops

def StageInv (sha : Bytes → Bytes) (w : World) : Prop :=
  Stage sha (streamed w.events) (operations w.events)

section Rules

variable {sha : Bytes → Bytes} {s : Bytes} {ops : List FlashOp} {w : World}

theorem At.stage (h : At s ops w) (hst : Stage sha s ops) : StageInv sha w := by
  obtain ⟨rfl, rfl⟩ := h
  exact hst

theorem ensures_writeAll (h : At s ops w) (hst : Stage sha s ops) (text : Bytes) :
    Ensures device (StageInv sha) (fun _ w' => At s ops w') (writeAll text) w := by
  rintro reply w' rfl
  refine ⟨h.stage hst, ?_⟩
  cases reply with
  | ok _ => exact h
  | error _ => trivial

/-- The last message of a run. -/
theorem ensures_report (h : At s ops w) (hst : Stage sha s ops) (text : Bytes) :
    Ensures device (StageInv sha) (fun _ _ => True) (writeAll text) w :=
  always_mono (ensures_writeAll h hst text) fun reply _ _ => by cases reply <;> trivial

theorem ensures_flush (h : At s ops w) (hst : Stage sha s ops) :
    Ensures device (StageInv sha) (fun _ w' => At s ops w') flush w := by
  rintro reply w' rfl
  refine ⟨h.stage hst, ?_⟩
  cases reply with
  | ok _ => exact h
  | error _ => trivial

/-- A flash operation, wherever its outcome leads. -/
theorem ensures_flash (h : At s ops w) {c : FlashCall}
    (hst : ∀ reply, (∃ flash flash', (c.op reply).Effect flash flash') →
      Stage sha s (ops ++ [c.op reply])) :
    Ensures device (StageInv sha)
      (fun reply w' => At s (ops ++ [c.op reply]) w' ∧ ∃ flash flash', (c.op reply).Effect flash flash')
      (ExceptT.lift (Prog.perform (UploadCall.flash c)) : Upload (FlashReply c)) w := by
  refine ensures_perform fun reply w' hd => ?_
  obtain ⟨heff, hev⟩ := hd
  have hat : At s (ops ++ [c.op reply]) w' := by
    obtain ⟨rfl, rfl⟩ := h
    rw [At, hev]
    simp [streamed, operations]
  exact ⟨hat.stage (hst reply ⟨_, _, heff⟩), hat, _, _, heff⟩

theorem ensures_readExact (room : Nat) (h : At s ops w)
    (hst : ∀ t : Bytes, t.length ≤ room → Stage sha (s ++ t) ops) :
    Ensures device (StageInv sha) (fun bytes w' => bytes.length = room ∧ At (s ++ bytes) ops w')
      (readExact room) w := by
  induction room using Nat.strongRecOn generalizing s w with
  | ind room ih =>
    rw [readExact]
    split
    · rename_i h0
      subst h0
      exact ensures_pure ⟨rfl, by simpa using h⟩
    · -- the chunk, then the rest of the room
      refine ensures_bind (Q := fun chunk w' => At (s ++ chunk.bytes) ops w') ?_ fun chunk w' hc => ?_
      · intro reply w' hd
        cases reply with
        | error _ =>
          obtain rfl : w' = w := hd
          exact ⟨h.stage (by simpa using hst [] (Nat.zero_le _)), trivial⟩
        | ok chunk =>
          obtain rfl : w' = { w with events := w.events ++ [.got chunk.bytes] } := hd
          have hat : At (s ++ chunk.bytes) ops { w with events := w.events ++ [.got chunk.bytes] } := by
            obtain ⟨rfl, rfl⟩ := h
            simp [At, streamed, operations]
          exact ⟨hat.stage (hst _ chunk.fits), hat⟩
      · split
        · exact ensures_throw
        · rename_i hne
          have hfits := chunk.fits
          refine ensures_bind (ih (room - chunk.bytes.length) (by omega) hc fun t ht => ?_)
            fun rest w'' hr => ?_
          · rw [List.append_assoc]
            exact hst _ (by rw [List.length_append]; omega)
          · refine ensures_pure ⟨?_, ?_⟩
            · rw [List.length_append, hr.1]
              omega
            · rw [← List.append_assoc]
              exact hr.2

end Rules

/-! ## The transfer -/

theorem padded_bounds (n : Nat) : n ≤ padded n ∧ padded n < n + flashWriteSize := by
  simp only [padded, flashWriteSize]
  omega

theorem padded_dvd (n : Nat) : flashWriteSize ∣ padded n := Nat.dvd_mul_left _ _

theorem padding_of_dvd {n : Nat} (h : flashWriteSize ∣ n) : padding n = [] := by
  obtain ⟨k, rfl⟩ := h
  simp only [padding, padded, flashWriteSize]
  rw [show (32 * k + (32 - 1)) / 32 * 32 - 32 * k = 0 by omega]
  rfl

theorem padding_add {n m : Nat} (h : flashWriteSize ∣ n) : padding (n + m) = padding m := by
  obtain ⟨k, rfl⟩ := h
  simp only [padding, padded, flashWriteSize]
  congr 1
  omega

theorem length_padding (n : Nat) : n + (padding n).length = padded n := by
  have := (padded_bounds n).1
  rw [padding, List.length_replicate]
  omega

/-- The bytes programmed for a chunk: the chunk and the fill of the buffer. -/
theorem take_padded {bytes : Bytes} {count : Nat} (h : bytes.length = count)
    (hc : count ≤ transferBufferSize) :
    (bytes ++ List.replicate (transferBufferSize - count) 0xff).take (padded count) =
      bytes ++ padding count := by
  have hle := (padded_bounds count).1
  have htop : padded count ≤ transferBufferSize := by
    simp only [padded, flashWriteSize, transferBufferSize] at hc ⊢
    omega
  rw [List.take_append, List.take_of_length_le (by omega), List.take_replicate, h, padding]
  congr 2
  omega

theorem magic_append {image bytes : Bytes} (h : hasMcubootImageMagic image = true) :
    hasMcubootImageMagic (image ++ bytes) = true := by
  unfold hasMcubootImageMagic at h ⊢
  rw [List.isPrefixOf_iff_prefix] at h ⊢
  exact h.trans (List.prefix_append _ _)

/-- One more chunk. -/
theorem Filled.snoc {header : UpdateHeader} {image bytes : Bytes} {progs : List FlashOp}
    (h : Filled header image progs) (hd : transferBufferSize ∣ image.length)
    (hcount : bytes.length = min transferBufferSize (header.image_length - image.length))
    (hmagic : image = [] → hasMcubootImageMagic bytes = true) :
    Filled header (image ++ bytes)
      (progs ++ [.program (stagedImageOffset + image.length) (bytes ++ padding bytes.length) true]) where
  programs := by
    have hword : flashWriteSize ∣ image.length := Nat.dvd_trans (by decide) hd
    have hp := h.programs
    rw [padding_of_dvd hword, List.append_nil] at hp
    rw [List.length_append, padding_add hword, List.append_assoc]
    exact .snoc hp
  magic _ := by
    by_cases he : image = []
    · rw [he]
      exact hmagic he
    · exact magic_append (h.magic he)
  whole := by
    rw [List.length_append, hcount]
    rcases Nat.le_total transferBufferSize (header.image_length - image.length) with hle | hle
    · right
      rw [Nat.min_eq_left hle]
      exact Nat.dvd_add hd (Nat.dvd_refl _)
    · rw [Nat.min_eq_right hle]
      rcases Nat.le_total image.length header.image_length with h1 | h1
      · left
        omega
      · right
        rwa [Nat.sub_eq_zero_of_le h1, Nat.add_zero]
  aligned op hop := by
    rcases List.mem_append.1 hop with hop | hop
    · exact h.aligned op hop
    · refine ⟨_, _, _, List.mem_singleton.1 hop, ?_, ?_⟩
      · exact Nat.dvd_add (by decide) (Nat.dvd_trans (by decide) hd)
      · rw [List.length_append, length_padding]
        exact padded_dvd _

theorem Filled.start (header : UpdateHeader) : Filled header [] [] where
  programs := .nil
  magic h := absurd rfl h
  whole := .inr (Nat.dvd_zero _)
  aligned _ hop := by cases hop

/-- The stages a transfer goes through, and how it ends with a digest to check. -/
theorem ensures_transfer (sha : Bytes → Bytes) {header : UpdateHeader} {encoded : Bytes}
    (hlen : encoded.length = updateHeaderSize) (hdec : UpdateHeader.decode encoded = .ok header)
    (next_progress : Nat) {image : Bytes} {progs : List FlashOp} {w : World}
    (h : At (encoded ++ image) (erased true :: progs) w) (hf : Filled header image progs)
    (hle : image.length ≤ header.image_length) :
    Ensures device (StageInv sha)
      (fun result w' => ∀ hashed, result = some hashed → ∃ progs',
        At (encoded ++ hashed) (erased true :: progs') w' ∧ Filled header hashed progs' ∧
          hashed.length = header.image_length)
      (transfer header image.length next_progress image) w := by
  induction hn : header.image_length - image.length using Nat.strongRecOn
    generalizing image progs w next_progress with
  | ind n ih =>
    subst hn
    have haccept : ∀ t : Bytes, image.length + t.length ≤ header.image_length →
        Accepted (encoded ++ image ++ t) header image t := fun t ht =>
      ⟨⟨encoded, hlen, hdec, List.append_assoc _ _ _⟩, ht⟩
    rw [transfer]
    split
    · rename_i hlt
      have hd : transferBufferSize ∣ image.length := hf.whole.resolve_left (Nat.ne_of_lt hlt)
      dsimp only
      generalize hcount : min transferBufferSize (header.image_length - image.length) = count
      have hmin : count ≤ transferBufferSize ∧ image.length + count ≤ header.image_length ∧
          0 < count := by
        have : 0 < transferBufferSize := by decide
        omega
      refine ensures_bind (ensures_readExact count h fun t ht => .filling (haccept t (by omega)) hf)
        fun bytes w1 hbytes => ?_
      obtain ⟨hbl, hat⟩ := hbytes
      have hfill : Stage sha (encoded ++ image ++ bytes) (erased true :: progs) :=
        .filling (haccept bytes (by omega)) hf
      have htake : (bytes ++ List.replicate (transferBufferSize - count) 0xff).take count = bytes := by
        rw [List.take_left' hbl]
      rw [htake, take_padded hbl hmin.1]
      split
      · exact ensures_bind (ensures_writeAll hat hfill _) fun _ _ _ => ensures_pure fun _ e => by cases e
      · rename_i hmagic
        have hmagic' : image = [] → hasMcubootImageMagic bytes = true := by
          intro he
          by_contra hno
          exact hmagic ⟨by rw [he]; rfl, by simpa using hno⟩
        have hsnoc := hf.snoc hd (by rw [hbl, hcount]) hmagic'
        rw [hbl] at hsnoc
        have hl : (image ++ bytes).length = image.length + count := by rw [List.length_append, hbl]
        have hmore : Accepted (encoded ++ image ++ bytes) header (image ++ bytes) [] :=
          ⟨⟨encoded, hlen, hdec, by rw [List.append_nil, List.append_assoc]⟩, by
            rw [hl]; simp only [List.length_nil]; omega⟩
        refine ensures_bind (ensures_flash hat fun ok _ => ?_) fun ok w2 hok => ?_
        · cases ok with
          | false => exact .writeFailed (haccept bytes (by omega)) hf hd (by rw [hbl])
          | true => exact .filling hmore hsnoc
        · obtain ⟨hok, -⟩ := hok
          cases ok with
          | false =>
            exact ensures_bind (ensures_writeAll hok (.writeFailed (haccept bytes (by omega)) hf hd
              (by rw [hbl])) _) fun _ _ _ => ensures_pure fun _ e => by cases e
          | true =>
            -- the loop goes on with one more chunk, with or without a progress line
            have hgo : ∀ (next_progress : Nat) (w : World),
                At (encoded ++ image ++ bytes) (erased true ::
                  (progs ++ [.program (stagedImageOffset + image.length) (bytes ++ padding count) true])) w →
                Ensures device (StageInv sha)
                  (fun result w' => ∀ hashed, result = some hashed → ∃ progs',
                    At (encoded ++ hashed) (erased true :: progs') w' ∧ Filled header hashed progs' ∧
                      hashed.length = header.image_length)
                  (transfer header (image.length + count) next_progress (image ++ bytes)) w := by
              intro next_progress w hw
              rw [List.append_assoc] at hw
              rw [← hl]
              exact ih _ (by omega) next_progress hw hsnoc (by omega) rfl
            rw [if_neg (by simp)]
            split
            · refine ensures_bind ?_ fun _ w3 hw3 => hgo _ w3 hw3
              refine ensures_bind (ensures_writeAll hok (.filling hmore hsnoc) _) fun _ w3 hw3 => ?_
              exact ensures_flush hw3 (.filling hmore hsnoc)
            · exact hgo _ w2 hok
    · refine ensures_pure fun hashed e => ?_
      cases e
      exact ⟨progs, h, hf, by omega⟩

/-! ## The read-back -/

/-- A read that succeeds has the length it was asked for. -/
theorem read_length {offset len : Nat} {found : Bytes} {flash flash' : Flash}
    (h : (FlashOp.read offset len (some found)).Effect flash flash') : found.length = len := by
  have hf : found = flash.range offset len := h.2
  rw [hf, Flash.range, List.length_map, List.length_range]

theorem ensures_readBack {sha : Bytes → Bytes} {s : Bytes} {header : UpdateHeader} {image : Bytes}
    {progs : List FlashOp} {back : Bytes} {reads : List FlashOp} {w : World}
    (h : At s (erased true :: (progs ++ reads)) w)
    (hc : Checked sha s header image back progs reads) :
    Ensures device (StageInv sha)
      (fun result w' => ∀ hashed, result = some hashed → ∃ reads',
        At s (erased true :: (progs ++ reads')) w' ∧ Checked sha s header image hashed progs reads' ∧
          hashed.length = header.image_length)
      (readBack header back.length back) w := by
  induction hn : header.image_length - back.length using Nat.strongRecOn
    generalizing back reads w with
  | ind n ih =>
    subst hn
    rw [readBack]
    split
    · rename_i hlt
      dsimp only
      generalize hcount : min transferBufferSize (header.image_length - back.length) = count
      have hmin : back.length + count ≤ header.image_length ∧ 0 < count := by
        have : 0 < transferBufferSize := by decide
        omega
      have hmore : ∀ found : Bytes, found.length = count →
          Checked sha s header image (back ++ found) progs
            (reads ++ [.read (stagedImageOffset + back.length) count (some found)]) := by
        rintro found rfl
        exact { hc with
          reads := .snoc hc.reads
          within := by rw [List.length_append]; exact hmin.1 }
      have happend : ∀ op, erased true :: (progs ++ reads) ++ [op] =
          erased true :: (progs ++ (reads ++ [op])) := by
        intro op
        rw [List.cons_append, List.append_assoc]
      refine ensures_bind (ensures_flash h fun reply heff => ?_) fun reply w1 hreply => ?_
      · rw [happend]
        cases reply with
        | none => exact .readFailed hc hmin.1
        | some found =>
          obtain ⟨flash, flash', heff⟩ := heff
          exact .checking (hmore found (read_length heff))
      · obtain ⟨hat, flash, flash', heff⟩ := hreply
        rw [happend] at hat
        cases reply with
        | none =>
          exact ensures_bind (ensures_writeAll hat (.readFailed hc hmin.1) _) fun _ _ _ =>
            ensures_pure fun _ e => by cases e
        | some found =>
          have hfound := read_length heff
          have hl : (back ++ found).length = back.length + count := by
            rw [List.length_append, hfound]
          have hgo := ih (header.image_length - (back ++ found).length) (by omega) hat
            (hmore found hfound) rfl
          rw [hl] at hgo
          exact hgo
    · refine ensures_pure fun hashed e => ?_
      cases e
      have := hc.within
      exact ⟨reads, h, hc, by omega⟩

/-! ## The whole program -/

theorem ensures_activate {sha : Bytes → Bytes} {s : Bytes} {header : UpdateHeader} {image back : Bytes}
    {progs reads : List FlashOp} {w : World} (h : At s (erased true :: (progs ++ reads)) w)
    (hv : Verified sha s header image back progs reads) :
    Ensures device (StageInv sha) (fun _ _ => True) activate w := by
  have happend : ∀ op, erased true :: (progs ++ reads) ++ [op] =
      erased true :: (progs ++ (reads ++ [op])) := by
    intro op
    rw [List.cons_append, List.append_assoc]
  have htwo : ∀ op op', erased true :: (progs ++ (reads ++ [op])) ++ [op'] =
      erased true :: (progs ++ (reads ++ [op, op'])) := by
    intro op op'
    rw [List.cons_append, List.append_assoc, List.append_assoc]
    rfl
  refine ensures_bind (ensures_flash h fun ok _ => ?_) fun ok w1 hok => ?_
  · rw [happend]
    exact .marked ok hv
  obtain ⟨hok, -⟩ := hok
  rw [happend] at hok
  split
  · exact ensures_report hok (.marked ok hv) _
  · rename_i hnot
    obtain rfl : ok = true := by simpa using hnot
    refine ensures_bind (ensures_flash hok fun ok' _ => ?_) fun ok' w2 hok' => ?_
    · have := htwo (.program swapInfoOffset mcubootTestSwapInfoBlock true)
        (.program magicOffset mcubootMagicBlock ok')
      exact this ▸ .activated ok' hv
    · obtain ⟨hok', -⟩ := hok'
      have hact : Stage sha s _ := .activated ok' hv
      have hat : At s (erased true :: (progs ++ (reads ++
          [.program swapInfoOffset mcubootTestSwapInfoBlock true,
            .program magicOffset mcubootMagicBlock ok']))) w2 := by
        rw [← htwo]
        exact hok'
      split
      · exact ensures_report hat hact _
      · refine ensures_bind (ensures_writeAll hat hact _) fun _ w3 hw3 => ?_
        refine ensures_bind (ensures_flush hw3 hact) fun _ w4 hw4 => ?_
        refine ensures_bind (Q := fun _ _ => True) ?_ fun _ w5 _ => ?_
        · rintro reply w' rfl
          exact ⟨hw4.stage hact, trivial⟩
        · rintro reply
          exact reply.elim

theorem ensures_stage (sha : Bytes → Bytes) {header : UpdateHeader} {encoded : Bytes}
    (hlen : encoded.length = updateHeaderSize) (hdec : UpdateHeader.decode encoded = .ok header)
    {w : World} (h : At encoded [] w) :
    Ensures device (StageInv sha) (fun _ _ => True) (stage sha header) w := by
  have haccept : Accepted encoded header [] [] :=
    ⟨⟨encoded, hlen, hdec, (List.append_nil _).symm⟩, Nat.zero_le _⟩
  refine ensures_bind (ensures_writeAll h (.waiting _) _) fun _ w1 h1 => ?_
  refine ensures_bind (ensures_flush h1 (.waiting _)) fun _ w2 h2 => ?_
  refine ensures_bind (ensures_flash h2 fun ok _ => ?_) fun ok w3 h3 => ?_
  · cases ok with
    | false => exact .eraseFailed haccept
    | true => exact .filling haccept (.start header)
  obtain ⟨h3, -⟩ := h3
  split
  · rename_i hno
    subst hno
    exact ensures_report h3 (.eraseFailed haccept) _
  · rename_i hyes
    obtain rfl : ok = true := by simpa using hyes
    have hempty : Stage sha encoded [erased true] := .filling haccept (.start header)
    refine ensures_bind (ensures_writeAll h3 hempty _) fun _ w4 h4 => ?_
    refine ensures_bind (ensures_flush h4 hempty) fun _ w5 h5 => ?_
    have h5 : At (encoded ++ []) [erased true] w5 := by rw [List.append_nil]; exact h5
    refine ensures_bind (ensures_transfer sha hlen hdec _ h5 (.start header) (Nat.zero_le _))
      fun result w6 h6 => ?_
    cases result with
    | none => exact ensures_pure trivial
    | some hashed =>
      obtain ⟨progs, hat, hf, hfull⟩ := h6 hashed rfl
      have hacc : Accepted (encoded ++ hashed) header hashed [] :=
        ⟨⟨encoded, hlen, hdec, by rw [List.append_nil]⟩, by rw [List.length_nil]; omega⟩
      dsimp only
      split
      · exact ensures_report hat (.filling hacc hf) _
      · rename_i hsha
        have hc : Checked sha (encoded ++ hashed) header hashed [] progs [] :=
          ⟨hacc, hf, hfull, Decidable.not_not.1 hsha, .nil, Nat.zero_le _⟩
        have hat : At (encoded ++ hashed) (erased true :: (progs ++ [])) w6 := by
          rw [List.append_nil]
          exact hat
        refine ensures_bind (ensures_readBack hat hc) fun result w7 h7 => ?_
        cases result with
        | none => exact ensures_pure trivial
        | some back =>
          obtain ⟨reads, hat, hc, hcover⟩ := h7 back rfl
          dsimp only
          split
          · exact ensures_report hat (.checking hc) _
          · rename_i hsha'
            exact ensures_activate hat ⟨hc, hcover, Decidable.not_not.1 hsha'⟩

theorem ensures_receive (sha : Bytes → Bytes) {w : World} (h : At [] [] w) :
    Ensures device (StageInv sha) (fun _ _ => True) (receive sha) w := by
  refine ensures_bind (ensures_readExact updateHeaderSize h fun t _ => .waiting _) fun encoded w1 h1 => ?_
  obtain ⟨hlen, hat⟩ := h1
  split
  · exact ensures_report hat (.waiting _) _
  · rename_i header hdec
    exact ensures_stage sha hlen hdec hat

/-- The worlds a run of `receive` can be cut in. -/
def Cut (sha : Bytes → Bytes) (flash : Flash) (w : World) : Prop :=
  ∃ rest, Reaches device (receive sha).run { flash, events := [] } rest w

/-- **Every prefix of every run is at a stage.** -/
theorem receive_stage {sha : Bytes → Bytes} {flash : Flash} {w : World} (h : Cut sha flash w) :
    Stage sha (streamed w.events) (operations w.events) := by
  obtain ⟨rest, hr⟩ := h
  have hstart : StageInv sha { flash, events := [] } := .waiting []
  exact (ensures_receive sha ⟨rfl, rfl⟩).reaches hstart hr

end Nucleo.Firmware
