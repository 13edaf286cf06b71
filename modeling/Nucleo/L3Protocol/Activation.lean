import Nucleo.L2Machine.Upload

/-!
# What staging does to the flash

A cut run of `receive` is at a stage (`receive_stage`), and its operations were
issued one after the other (`cut_replay`). From these two: which operation may
touch the magic word and what was checked before it, where operations go, and
what they leave in the flash.

Results:
* `activation_safety`: the magic is programmed only after every check, and
  stays erased in all other cuts.
-/
namespace Nucleo.Firmware

/-! ## Cuts -/

theorem device_events {c : UploadCall} {w w' : World} {reply : UploadReply c}
    (h : device c w reply w') : w'.events = w.events ∨ ∃ e, w'.events = w.events ++ [e] := by
  cases c with
  | read _ =>
    cases reply with
    | ok chunk =>
      obtain rfl : w' = _ := h
      exact .inr ⟨_, rfl⟩
    | error _ =>
      obtain rfl : w' = w := h
      exact .inl rfl
  | flash _ => exact .inr ⟨_, h.2⟩
  | writeAll _ | flush | pause _ =>
    obtain rfl : w' = w := h
    exact .inl rfl
  | sysReset => exact reply.elim

/-- Nothing that happened is forgotten. -/
theorem reaches_grows {α : Type} {p q : Prog UploadCall UploadReply α} {w w' : World}
    (h : Reaches device p w q w') : w.events <+: w'.events := by
  refine h.inv (I := fun w' => w.events <+: w'.events) (fun c w1 r w2 hI hd => ?_) (List.prefix_refl _)
  rcases device_events hd with he | ⟨e, he⟩
  · rw [he]
    exact hI
  · rw [he]
    exact hI.trans (List.prefix_append _ _)

/-- Every earlier point of the record was a world the run could be cut in. -/
theorem reaches_earlier {α : Type} {p q : Prog UploadCall UploadReply α} {w w' : World}
    (h : Reaches device p w q w') {events : List Event} (hlo : w.events <+: events)
    (hhi : events <+: w'.events) : ∃ q' w1, Reaches device p w q' w1 ∧ w1.events = events := by
  induction h with
  | here p w => exact ⟨p, w, .here p w, (hlo.eq_of_length_le hhi.length_le)⟩
  | @step c next q w w' w'' r hd hrest ih =>
    rcases Nat.lt_or_ge w.events.length events.length with hlt | hge
    · have hmid : w'.events <+: events := by
        rcases device_events hd with he | ⟨e, he⟩
        · rw [he]
          exact hlo
        · refine List.prefix_of_prefix_length_le (reaches_grows hrest) hhi ?_
          rw [he, List.length_append, List.length_singleton]
          exact hlt
      obtain ⟨q', w1, hr, he⟩ := ih hmid hhi
      exact ⟨q', w1, .step hd hr, he⟩
    · exact ⟨_, w, .here _ w, hlo.eq_of_length_le hge⟩

theorem Cut.earlier {sha : Bytes → Bytes} {flash : Flash} {w : World} (h : Cut sha flash w)
    {events : List Event} (hpre : events <+: w.events) : ∃ w1, Cut sha flash w1 ∧ w1.events = events := by
  obtain ⟨rest, hr⟩ := h
  obtain ⟨q', w1, hr', he⟩ := reaches_earlier hr List.nil_prefix hpre
  exact ⟨w1, ⟨q', hr'⟩, he⟩

/-- The flash is what the operations issued so far may have made of it. -/
theorem cut_replay {sha : Bytes → Bytes} {flash : Flash} {w : World} (h : Cut sha flash w) :
    Replay flash (operations w.events) w.flash := by
  obtain ⟨rest, hr⟩ := h
  have hstart : Replay flash (operations []) flash := .nil flash
  refine hr.inv (I := fun w => Replay flash (operations w.events) w.flash)
    (fun c w reply w' hI hd => ?_) hstart
  cases c with
  | flash c =>
    obtain ⟨heff, hev⟩ := hd
    rw [hev, operations, List.filterMap_append]
    exact .snoc hI heff
  | read _ =>
    cases reply with
    | ok chunk =>
      obtain rfl : w' = _ := hd
      simpa [operations] using hI
    | error _ =>
      obtain rfl : w' = w := hd
      exact hI
  | writeAll _ | flush | pause _ =>
    obtain rfl : w' = w := hd
    exact hI
  | sysReset => exact reply.elim

/-! ## Which operations are issued -/

/-- The image ok word of the secondary slot. -/
def stagedImageOkOffset : Nat := trailerImageOkOffset secondarySlotOffset secondarySlotSize

/-- `x` is an address of the flash word at `offset`. -/
def InWord (offset x : Nat) : Prop := offset ≤ x ∧ x < offset + flashWriteSize

/-- The operations of a run for an image of this length. -/
inductive Issued (image_length : Nat) : FlashOp → Prop
  | erase (ok : Bool) : Issued image_length (erased ok)
  | image {offset : Nat} {data : Bytes} (ok : Bool) : stagedImageOffset ≤ offset →
      offset + data.length ≤ stagedImageOffset + padded image_length → flashWriteSize ∣ offset →
      flashWriteSize ∣ data.length → Issued image_length (.program offset data ok)
  | readBack {offset len : Nat} (found : Option Bytes) : stagedImageOffset ≤ offset →
      offset + len ≤ stagedImageOffset + image_length → Issued image_length (.read offset len found)
  | swapInfo (ok : Bool) : Issued image_length (.program swapInfoOffset mcubootTestSwapInfoBlock ok)
  | magic (ok : Bool) : Issued image_length (.program magicOffset mcubootMagicBlock ok)

theorem padded_mono {n m : Nat} (h : n ≤ m) : padded n ≤ padded m := by
  simp only [padded, flashWriteSize]
  omega

theorem Accepted.bound {s : Bytes} {header : UpdateHeader} {image rest : Bytes}
    (h : Accepted s header image rest) : padded header.image_length ≤ maxSignedImageSize := by
  obtain ⟨encoded, -, hdec, -⟩ := h.split
  have hpad : padded maxSignedImageSize = maxSignedImageSize := by decide
  rw [← hpad]
  exact padded_mono (UpdateHeader.decode_length hdec).2

/-- What is streamed determines the header and what came of the image. -/
theorem Accepted.unique {s : Bytes} {header header' : UpdateHeader} {image image' rest rest' : Bytes}
    (h : Accepted s header image rest) (h' : Accepted s header' image' rest') :
    header = header' ∧ image ++ rest = image' ++ rest' := by
  obtain ⟨encoded, hlen, hdec, hs⟩ := h.split
  obtain ⟨encoded', hlen', hdec', hs'⟩ := h'.split
  obtain ⟨rfl, hrest⟩ := List.append_inj (hs.symm.trans hs') (hlen.trans hlen'.symm)
  rw [hdec] at hdec'
  cases hdec'
  exact ⟨rfl, hrest⟩

theorem Filled.issued {header : UpdateHeader} {image : Bytes} {progs : List FlashOp}
    (h : Filled header image progs) (hle : image.length ≤ header.image_length) :
    ∀ op ∈ progs, Issued header.image_length op := by
  intro op hop
  obtain ⟨start, bytes, rfl, hlo, hhi⟩ := h.programs.within op hop
  obtain ⟨_, _, _, he, ho, hd⟩ := h.aligned _ hop
  cases he
  refine .image true hlo ?_ ho hd
  have := padded_mono hle
  rw [List.length_append, length_padding] at hhi
  omega

theorem Checked.issued {sha : Bytes → Bytes} {s : Bytes} {header : UpdateHeader} {image back : Bytes}
    {progs reads : List FlashOp} (h : Checked sha s header image back progs reads) :
    ∀ op ∈ erased true :: (progs ++ reads), Issued header.image_length op := by
  intro op hop
  rcases List.mem_cons.1 hop with rfl | hop
  · exact .erase true
  rcases List.mem_append.1 hop with hop | hop
  · exact h.filled.issued (Nat.le_of_eq h.complete) op hop
  · obtain ⟨start, bytes, rfl, hlo, hhi⟩ := h.reads.within op hop
    have := h.within
    exact .readBack _ hlo (by omega)

/-- Operations need an accepted header, and are of a few kinds. -/
theorem Stage.issued {sha : Bytes → Bytes} {s : Bytes} {ops : List FlashOp} (h : Stage sha s ops) :
    ops = [] ∨ ∃ header image rest, Accepted s header image rest ∧
      ∀ op ∈ ops, Issued header.image_length op := by
  cases h with
  | waiting => exact .inl rfl
  | eraseFailed ha =>
    refine .inr ⟨_, _, _, ha, fun op hop => ?_⟩
    rw [List.mem_singleton.1 hop]
    exact .erase false
  | filling ha hf =>
    refine .inr ⟨_, _, _, ha, fun op hop => ?_⟩
    rcases List.mem_cons.1 hop with rfl | hop
    · exact .erase true
    · exact hf.issued (Nat.le_trans (Nat.le_add_right _ _) ha.fits) op hop
  | @writeFailed header image rest _ progs ha hf hd hdata =>
    refine .inr ⟨_, _, _, ha, fun op hop => ?_⟩
    rcases List.mem_cons.1 hop with rfl | hop
    · exact .erase true
    rcases List.mem_append.1 hop with hop | hop
    · exact hf.issued (Nat.le_trans (Nat.le_add_right _ _) ha.fits) op hop
    · rw [List.mem_singleton.1 hop]
      have hword : flashWriteSize ∣ image.length := Nat.dvd_trans (by decide) hd
      have hlen : (rest ++ padding rest.length).length = padded rest.length := by
        rw [List.length_append, length_padding]
      refine .image false (Nat.le_add_right _ _) ?_ (Nat.dvd_add (by decide) hword) ?_
      · -- a padded rest ends within the padded image
        have hle := padded_mono ha.fits
        obtain ⟨k, hk⟩ := hword
        rw [hdata, hlen]
        rw [hk] at hle ⊢
        simp only [padded, flashWriteSize] at hle ⊢
        omega
      · rw [hdata, hlen]
        exact padded_dvd _
  | checking hc => exact .inr ⟨_, _, _, hc.accepted, hc.issued⟩
  | @readFailed header image back progs reads len hc hlen =>
    refine .inr ⟨_, _, _, hc.accepted, fun op hop => ?_⟩
    rw [← List.append_assoc, ← List.cons_append] at hop
    rcases List.mem_append.1 hop with hop | hop
    · exact hc.issued op hop
    · rw [List.mem_singleton.1 hop]
      exact .readBack none (Nat.le_add_right _ _) (by omega)
  | marked ok hv =>
    refine .inr ⟨_, _, _, hv.checked.accepted, fun op hop => ?_⟩
    rw [← List.append_assoc, ← List.cons_append] at hop
    rcases List.mem_append.1 hop with hop | hop
    · exact hv.checked.issued op hop
    · rw [List.mem_singleton.1 hop]
      exact .swapInfo ok
  | activated ok hv =>
    refine .inr ⟨_, _, _, hv.checked.accepted, fun op hop => ?_⟩
    rw [← List.append_assoc, ← List.cons_append] at hop
    rcases List.mem_append.1 hop with hop | hop
    · exact hv.checked.issued op hop
    rcases List.mem_cons.1 hop with rfl | hop
    · exact .swapInfo true
    · rw [List.mem_singleton.1 hop]
      exact .magic ok

/-- The erase comes first and once, and nothing follows one that failed. -/
theorem Stage.erase_first {sha : Bytes → Bytes} {s : Bytes} {ops : List FlashOp} (h : Stage sha s ops) :
    ops = [] ∨ ops = [erased false] ∨
      ∃ rest, ops = erased true :: rest ∧ ∀ start stop ok, .erase start stop ok ∉ rest := by
  have hprogs : ∀ {header : UpdateHeader} {image : Bytes} {progs : List FlashOp},
      Filled header image progs → ∀ start stop ok, .erase start stop ok ∉ progs := by
    intro header image progs hf start stop ok hmem
    obtain ⟨_, _, he, -, -⟩ := hf.programs.within _ hmem
    cases he
  have hreads : ∀ {back : Bytes} {reads : List FlashOp}, Reads stagedImageOffset reads back →
      ∀ start stop ok, .erase start stop ok ∉ reads := by
    intro back reads hr start stop ok hmem
    obtain ⟨_, _, he, -, -⟩ := hr.within _ hmem
    cases he
  cases h with
  | waiting => exact .inl rfl
  | eraseFailed _ => exact .inr (.inl rfl)
  | filling _ hf => exact .inr (.inr ⟨_, rfl, hprogs hf⟩)
  | writeFailed _ hf _ _ =>
    refine .inr (.inr ⟨_, rfl, fun start stop ok hmem => ?_⟩)
    rcases List.mem_append.1 hmem with hmem | hmem
    · exact hprogs hf _ _ _ hmem
    · cases List.mem_singleton.1 hmem
  | checking hc =>
    refine .inr (.inr ⟨_, rfl, fun start stop ok hmem => ?_⟩)
    rcases List.mem_append.1 hmem with hmem | hmem
    · exact hprogs hc.filled _ _ _ hmem
    · exact hreads hc.reads _ _ _ hmem
  | readFailed hc _ =>
    refine .inr (.inr ⟨_, rfl, fun start stop ok hmem => ?_⟩)
    rcases List.mem_append.1 hmem with hmem | hmem
    · exact hprogs hc.filled _ _ _ hmem
    rcases List.mem_append.1 hmem with hmem | hmem
    · exact hreads hc.reads _ _ _ hmem
    · cases List.mem_singleton.1 hmem
  | marked _ hv =>
    refine .inr (.inr ⟨_, rfl, fun start stop ok hmem => ?_⟩)
    rcases List.mem_append.1 hmem with hmem | hmem
    · exact hprogs hv.checked.filled _ _ _ hmem
    rcases List.mem_append.1 hmem with hmem | hmem
    · exact hreads hv.checked.reads _ _ _ hmem
    · cases List.mem_singleton.1 hmem
  | activated _ hv =>
    refine .inr (.inr ⟨_, rfl, fun start stop ok hmem => ?_⟩)
    rcases List.mem_append.1 hmem with hmem | hmem
    · exact hprogs hv.checked.filled _ _ _ hmem
    rcases List.mem_append.1 hmem with hmem | hmem
    · exact hreads hv.checked.reads _ _ _ hmem
    · simp at hmem

/-! ## The trailer words -/

theorem Filled.below {header : UpdateHeader} {image : Bytes} {progs : List FlashOp}
    (h : Filled header image progs) (hle : padded image.length ≤ maxSignedImageSize) {offset : Nat}
    {data : Bytes} {ok : Bool} (hop : .program offset data ok ∈ progs) : offset < swapInfoOffset := by
  obtain ⟨start, bytes, he, -, hhi⟩ := h.programs.within _ hop
  cases he
  rw [List.length_append, length_padding] at hhi
  have : stagedImageOffset + maxSignedImageSize < swapInfoOffset := by decide
  omega

/-- A trailer word is programmed by a verified run alone. -/
theorem Stage.trailer {sha : Bytes → Bytes} {s : Bytes} {ops : List FlashOp} (h : Stage sha s ops)
    {offset : Nat} {data : Bytes} {ok : Bool} (hop : .program offset data ok ∈ ops)
    (hge : swapInfoOffset ≤ offset) :
    ∃ header image back progs reads tail, Verified sha s header image back progs reads ∧
      ops = erased true :: (progs ++ (reads ++ tail)) ∧
      ((∃ ok, tail = [.program swapInfoOffset mcubootTestSwapInfoBlock ok]) ∨
        ∃ ok, tail = [.program swapInfoOffset mcubootTestSwapInfoBlock true,
          .program magicOffset mcubootMagicBlock ok]) := by
  have hfar : stagedImageOffset + maxSignedImageSize < swapInfoOffset := by decide
  have hprogs : ∀ {header : UpdateHeader} {image rest : Bytes} {progs : List FlashOp},
      Accepted s header image rest → Filled header image progs → .program offset data ok ∉ progs := by
    intro header image rest progs ha hf hmem
    have hle := Nat.le_trans (padded_mono (Nat.le_trans (Nat.le_add_right _ _) ha.fits)) ha.bound
    have := hf.below hle hmem
    omega
  have hreads : ∀ {back : Bytes} {reads : List FlashOp}, Reads stagedImageOffset reads back →
      .program offset data ok ∉ reads := by
    intro back reads hr hmem
    obtain ⟨_, _, he, -, -⟩ := hr.within _ hmem
    cases he
  cases h with
  | waiting => cases hop
  | eraseFailed ha => cases List.mem_singleton.1 hop
  | filling ha hf =>
    rcases List.mem_cons.1 hop with he | hmem
    · cases he
    · exact absurd hmem (hprogs ha hf)
  | @writeFailed header image rest _ progs ha hf hd hdata =>
    rcases List.mem_cons.1 hop with he | hmem
    · cases he
    rcases List.mem_append.1 hmem with hmem | hmem
    · exact absurd hmem (hprogs ha hf)
    · cases List.mem_singleton.1 hmem
      have hfits := ha.fits
      have hbound := ha.bound
      have := (padded_bounds header.image_length).1
      omega
  | checking hc =>
    rcases List.mem_cons.1 hop with he | hmem
    · cases he
    rcases List.mem_append.1 hmem with hmem | hmem
    · exact absurd hmem (hprogs hc.accepted hc.filled)
    · exact absurd hmem (hreads hc.reads)
  | readFailed hc hlen =>
    rcases List.mem_cons.1 hop with he | hmem
    · cases he
    rcases List.mem_append.1 hmem with hmem | hmem
    · exact absurd hmem (hprogs hc.accepted hc.filled)
    rcases List.mem_append.1 hmem with hmem | hmem
    · exact absurd hmem (hreads hc.reads)
    · cases List.mem_singleton.1 hmem
  | marked ok' hv => exact ⟨_, _, _, _, _, _, hv, rfl, .inl ⟨ok', rfl⟩⟩
  | activated ok' hv => exact ⟨_, _, _, _, _, _, hv, rfl, .inr ⟨ok', rfl⟩⟩

/-- All that came before an event: the header, the erase, the image received,
programmed and read back with the digest of the header, and the swap info. -/
structure Ready (sha : Bytes → Bytes) (pre : List Event) (encoded : Bytes) (header : UpdateHeader)
    (image back : Bytes) (progs reads : List FlashOp) : Prop where
  header_length : encoded.length = updateHeaderSize
  decoded : UpdateHeader.decode encoded = .ok header
  received : streamed pre = encoded ++ image
  complete : image.length = header.image_length
  issued : operations pre = erased true ::
    (progs ++ (reads ++ [.program swapInfoOffset mcubootTestSwapInfoBlock true]))
  programmed : Programs stagedImageOffset progs (image ++ padding image.length)
  read_back : Reads stagedImageOffset reads back
  covered : back.length = header.image_length
  digest : sha image = header.sha256
  digest_back : sha back = header.sha256
  magic : hasMcubootImageMagic image = true

/-- Of the operations of a run two touch the magic word. -/
theorem Issued.touches_magic {image_length : Nat} {op : FlashOp} (h : Issued image_length op)
    (hbound : padded image_length ≤ maxSignedImageSize) {x : Nat} (hx : InWord magicOffset x)
    (ht : op.Touches x) : (∃ ok, op = erased ok) ∨ ∃ ok, op = .program magicOffset mcubootMagicBlock ok := by
  have hfar : stagedImageOffset + maxSignedImageSize < magicOffset := by decide
  obtain ⟨hlo, hhi⟩ := hx
  cases h with
  | erase ok => exact .inl ⟨ok, rfl⟩
  | image ok _ hend _ _ =>
    have := ht.2
    omega
  | readBack => exact ht.elim
  | swapInfo ok =>
    have hend : swapInfoOffset + mcubootTestSwapInfoBlock.length ≤ magicOffset := by decide
    have := ht.2
    omega
  | magic ok => exact .inr ⟨ok, rfl⟩

theorem operations_snoc (pre : List Event) (op : FlashOp) :
    operations (pre ++ [.did op]) = operations pre ++ [op] := by
  simp [operations]

theorem streamed_snoc (pre : List Event) (op : FlashOp) : streamed (pre ++ [.did op]) = streamed pre := by
  simp [streamed]

theorem magic_ready {sha : Bytes → Bytes} {pre : List Event} {ok : Bool}
    (h : Stage sha (streamed (pre ++ [.did (.program magicOffset mcubootMagicBlock ok)]))
      (operations (pre ++ [.did (.program magicOffset mcubootMagicBlock ok)]))) :
    ∃ encoded header image back progs reads, Ready sha pre encoded header image back progs reads := by
  rw [operations_snoc, streamed_snoc] at h
  obtain ⟨header, image, back, progs, reads, tail, hv, hops, htail⟩ :=
    h.trailer (List.mem_append_right _ (List.mem_singleton.2 rfl)) (by decide)
  have hne : swapInfoOffset ≠ magicOffset := by decide
  have hissued : operations pre = erased true ::
      (progs ++ (reads ++ [.program swapInfoOffset mcubootTestSwapInfoBlock true])) := by
    rcases htail with ⟨ok', rfl⟩ | ⟨ok', rfl⟩
    · -- the magic is not the swap info
      rw [← List.append_assoc, ← List.cons_append] at hops
      obtain ⟨-, he⟩ := List.append_inj' hops rfl
      injection List.head_eq_of_cons_eq he with hoff _ _
      exact absurd hoff.symm hne
    · have hsplit : erased true :: (progs ++ (reads ++
          [.program swapInfoOffset mcubootTestSwapInfoBlock true, .program magicOffset mcubootMagicBlock ok'])) =
          (erased true :: (progs ++ (reads ++ [.program swapInfoOffset mcubootTestSwapInfoBlock true]))) ++
            [.program magicOffset mcubootMagicBlock ok'] := by simp
      rw [hsplit] at hops
      exact (List.append_inj' hops rfl).1
  obtain ⟨encoded, hlen, hdec, hs⟩ := hv.checked.accepted.split
  have hpos := (UpdateHeader.decode_length hdec).1
  have hc := hv.checked
  refine ⟨encoded, header, image, back, progs, reads, hlen, hdec, ?_, hc.complete, hissued,
    hc.filled.programs, hc.reads, hv.covered, hc.digest, hv.digest, hc.filled.magic ?_⟩
  · rw [hs, List.append_nil]
  · rintro rfl
    have := hc.complete
    rw [List.length_nil] at this
    omega

/-! ## A run without faults -/

section Run

variable {w w' : World}

theorem flash_call {α : Type} {c : FlashCall} (reply : FlashReply c) (k : FlashReply c → Upload α)
    {flash : Flash} (heff : (c.op reply).Effect w.flash flash)
    (h : ∃ q, Reaches device (k reply).run ⟨flash, w.events ++ [.did (c.op reply)]⟩ q w') :
    ∃ q, Reaches device (ExceptT.lift (Prog.perform (UploadCall.flash c)) >>= k : Upload α).run w q w' :=
  Reaches.call (c := UploadCall.flash c) reply ⟨heff, rfl⟩ h

/-- A full chunk ends `readExact`. -/
theorem readExact_chunk {α : Type} {bytes : Bytes} {room : Nat} (hlen : bytes.length = room)
    (hne : room ≠ 0) (k : Bytes → Upload α)
    (h : ∃ q, Reaches device (k bytes).run { w with events := w.events ++ [.got bytes] } q w') :
    ∃ q, Reaches device (readExact room >>= k).run w q w' := by
  subst hlen
  rw [readExact, if_neg hne]
  refine Reaches.call (c := UploadCall.read _) (Except.ok ⟨bytes, Nat.le_refl _⟩) rfl ?_
  change ∃ q, Reaches device (((if bytes.length = 0 then throw (.msg "firmware upload ended early")
    else do
      let rest ← readExact (bytes.length - bytes.length)
      return bytes ++ rest) >>= k).run) _ q _
  rw [if_neg hne, Nat.sub_self, readExact, if_pos rfl]
  change ∃ q, Reaches device (k (bytes ++ [])).run _ q _
  rw [List.append_nil]
  exact h

theorem report_call {α : Type} (text : Bytes) (k : Unit → Upload α)
    (h : ∃ q, Reaches device (k ()).run w q w') : ∃ q, Reaches device (writeAll text >>= k).run w q w' :=
  Reaches.call (c := UploadCall.writeAll text) (Except.ok ()) rfl h

theorem flush_call {α : Type} (k : Unit → Upload α)
    (h : ∃ q, Reaches device (k ()).run w q w') : ∃ q, Reaches device (flush >>= k).run w q w' :=
  Reaches.call (c := UploadCall.flush) (Except.ok ()) rfl h

/-- An image of at most one buffer. -/
theorem transfer_chunk {header : UpdateHeader} {image : Bytes} (hlen : image.length = header.image_length)
    (hpos : 0 < image.length) (hle : image.length ≤ transferBufferSize)
    (hmagic : hasMcubootImageMagic image = true) (hword : flashWriteSize ∣ image.length) (next_progress : Nat)
    (k : Option Bytes → Upload Unit)
    (h : ∃ q, Reaches device (k (some image)).run ⟨w.flash.program stagedImageOffset image,
      w.events ++ [.got image] ++ [.did (.program stagedImageOffset image true)]⟩ q w') :
    ∃ q, Reaches device (transfer header 0 next_progress [] >>= k).run w q w' := by
  have hlaw := Prog.lawful (C := UploadCall) (R := UploadReply)
  have hcount : min transferBufferSize (header.image_length - 0) = image.length := by omega
  have hpad : padded image.length = image.length := by
    have := length_padding image.length
    rw [padding_of_dvd hword, List.length_nil] at this
    exact this.symm
  have hfirst : ¬ ((0 : Nat) = 0 ∧ hasMcubootImageMagic image = false) := by
    rw [hmagic]
    exact fun h => Bool.noConfusion h.2
  rw [transfer, if_pos (by omega)]
  dsimp only
  rw [hcount, hpad, bind_assoc]
  refine readExact_chunk rfl (by omega) _ ?_
  rw [List.take_left, if_neg hfirst, bind_assoc]
  refine flash_call (c := .program _ _) true _ (Flash.program_effect _ _ _) ?_
  rw [if_neg (by simp), if_pos (.inr (by omega)), bind_assoc, writeProgress, bind_assoc]
  refine report_call _ _ (flush_call _ ?_)
  rw [transfer, if_neg (by omega), List.nil_append]
  exact h

/-- What one buffer reads back. -/
theorem readBack_chunk {header : UpdateHeader} (hpos : 0 < header.image_length)
    (hle : header.image_length ≤ transferBufferSize) (k : Option Bytes → Upload Unit)
    (h : ∃ q, Reaches device (k (some (w.flash.range stagedImageOffset header.image_length))).run
      ⟨w.flash, w.events ++ [.did (.read stagedImageOffset header.image_length
        (some (w.flash.range stagedImageOffset header.image_length)))]⟩ q w') :
    ∃ q, Reaches device (readBack header 0 [] >>= k).run w q w' := by
  have hlaw := Prog.lawful (C := UploadCall) (R := UploadReply)
  have hcount : min transferBufferSize (header.image_length - 0) = header.image_length := by omega
  rw [readBack, if_pos hpos]
  dsimp only
  rw [hcount, bind_assoc]
  refine flash_call (c := .read _ _) _ _ (Flash.read_effect _ _ _) ?_
  change ∃ q, Reaches device (readBack header (0 + header.image_length)
    ([] ++ w.flash.range stagedImageOffset header.image_length) >>= k).run _ q _
  rw [readBack, if_neg (by omega), List.nil_append]
  exact h

end Run

/-- An image of half a buffer. -/
def Sample.image : Bytes := mcubootImageMagic ++ List.replicate 508 0

def Sample.header : Bytes :=
  updateProtocolMagic ++ [1, 0, 0, 0] ++ Endian.toLE 4 0x200 ++ List.replicate 32 0

def Sample.digest : Bytes → Bytes := fun _ => List.replicate 32 0

def Sample.staged : Flash :=
  ((Flash.erase (fun _ => 0) secondarySlotOffset (secondarySlotOffset + secondarySlotSize)).program
    stagedImageOffset Sample.image)

def Sample.checked : List Event :=
  [.got Sample.header, .did (erased true), .got Sample.image,
    .did (.program stagedImageOffset Sample.image true),
    .did (.read stagedImageOffset 512 (some (Sample.staged.range stagedImageOffset 512))),
    .did (.program swapInfoOffset mcubootTestSwapInfoBlock true)]

def Sample.activated : World where
  flash := (Sample.staged.program swapInfoOffset mcubootTestSwapInfoBlock).program
    magicOffset mcubootMagicBlock
  events := Sample.checked ++ [.did (.program magicOffset mcubootMagicBlock true)]

theorem sample_run : Cut Sample.digest (fun _ => 0) Sample.activated := by
  have hheader : Sample.header.length = updateHeaderSize := by decide
  refine readExact_chunk hheader (by decide) _ ?_
  have hdec : UpdateHeader.decode Sample.header = .ok ⟨512, List.replicate 32 0⟩ := by decide
  rw [hdec]
  refine report_call _ _ (flush_call _ ?_)
  refine flash_call (c := .erase _ _) true _ (Flash.erase_effect _ _ _) ?_
  refine report_call _ _ (flush_call _ ?_)
  have hlen : Sample.image.length = 512 := by decide +kernel
  refine transfer_chunk hlen (by rw [hlen]; decide) (by rw [hlen]; decide) (by decide +kernel)
    (by rw [hlen]; decide) _ _ ?_
  dsimp only
  rw [if_neg (by decide)]
  refine readBack_chunk (by decide) (by decide) _ ?_
  dsimp only
  rw [if_neg (by decide)]
  refine flash_call (c := .program _ _) true _ (Flash.program_effect _ _ _) ?_
  rw [if_neg (by decide)]
  refine flash_call (c := .program _ _) true _ (Flash.program_effect _ _ _) ?_
  exact ⟨_, .here _ _⟩

/-! ## Activation -/

theorem range_erased {flash : Flash} {offset : Nat}
    (h : ∀ x, offset ≤ x → x < offset + flashWriteSize → flash x = 0xff) :
    flash.range offset flashWriteSize = erasedWord := by
  rw [Flash.range, erasedWord, List.eq_replicate_iff]
  refine ⟨by rw [List.length_map, List.length_range], fun b hb => ?_⟩
  obtain ⟨i, hi, rfl⟩ := List.mem_map.1 hb
  exact h _ (Nat.le_add_right _ _) (Nat.add_lt_add_left (List.mem_range.1 hi) _)

/-- **The magic word is touched by the erase, and by its own program once
everything was checked.** With no such program it is as the erase left it. -/
theorem activation_safety {sha : Bytes → Bytes} {flash : Flash} {w : World} (h : Cut sha flash w) :
    (∀ pre op post, w.events = pre ++ .did op :: post → (∃ x, InWord magicOffset x ∧ op.Touches x) →
      (∃ ok, op = erased ok) ∨
      (∃ ok, op = .program magicOffset mcubootMagicBlock ok) ∧
        ∃ encoded header image back progs reads, Ready sha pre encoded header image back progs reads) ∧
    ((∀ ok, .program magicOffset mcubootMagicBlock ok ∉ operations w.events) →
      (erased true ∈ operations w.events → w.flash.range magicOffset flashWriteSize = erasedWord) ∧
      (erased false ∈ operations w.events → operations w.events = [erased false]) ∧
      (operations w.events = [] → w.flash = flash)) := by
  refine ⟨fun pre op post hev htouch => ?_, fun hno => ⟨fun hmem => ?_, fun hmem => ?_, fun hnil => ?_⟩⟩
  · obtain ⟨x, hx, ht⟩ := htouch
    have hpre : pre ++ [.did op] <+: w.events := ⟨post, by rw [hev]; simp⟩
    obtain ⟨w1, hcut, he⟩ := h.earlier hpre
    have hst := receive_stage hcut
    rw [he] at hst
    have hlast : op ∈ operations (pre ++ [.did op]) := by rw [operations_snoc]; simp
    rcases hst.issued with hnil | ⟨header, image, rest, ha, hissued⟩
    · rw [hnil] at hlast
      cases hlast
    rcases (hissued op hlast).touches_magic ha.bound hx ht with herase | ⟨ok, rfl⟩
    · exact .inl herase
    · exact .inr ⟨⟨ok, rfl⟩, magic_ready hst⟩
  · rcases (receive_stage h).erase_first with hnil | hfail | ⟨rest, hops, hrest⟩
    · rw [hnil] at hmem
      cases hmem
    · rw [hfail] at hmem
      cases List.mem_singleton.1 hmem
    have hr := cut_replay h
    rw [hops] at hr
    refine range_erased fun x hlo hhi => ?_
    have hslot : secondarySlotOffset ≤ magicOffset ∧
        magicOffset + flashWriteSize ≤ secondarySlotOffset + secondarySlotSize := by decide
    refine hr.erased (by omega) (by omega) fun op hop ht => ?_
    rcases (receive_stage h).issued with hnil | ⟨header, image, rest', ha, hissued⟩
    · rw [hnil] at hmem
      cases hmem
    rcases (hissued op (by rw [hops]; exact List.mem_cons_of_mem _ hop)).touches_magic ha.bound ⟨hlo, hhi⟩ ht
      with ⟨ok, rfl⟩ | ⟨ok, rfl⟩
    · exact hrest _ _ _ hop
    · exact hno ok (by rw [hops]; exact List.mem_cons_of_mem _ hop)
  · rcases (receive_stage h).erase_first with hnil | hfail | ⟨rest, hops, hrest⟩
    · rw [hnil] at hmem
      cases hmem
    · exact hfail
    · rw [hops] at hmem
      rcases List.mem_cons.1 hmem with he | hmem
      · cases he
      · exact absurd hmem (hrest _ _ _)
  · have hr := cut_replay h
    rw [hnil] at hr
    exact hr.eq_of_nil

theorem activation_safety_sample : ∃ encoded header image back progs reads,
    Ready Sample.digest Sample.checked encoded header image back progs reads := by
  rcases (activation_safety sample_run).1 Sample.checked _ [] rfl
      ⟨magicOffset, ⟨Nat.le_refl _, by decide⟩, by decide, by decide⟩ with ⟨ok, he⟩ | ⟨-, hready⟩
  · cases he
  · exact hready

end Nucleo.Firmware
