import Nucleo.L3Protocol.Activation

/-!
# Where staging writes, and what it leaves there

The second family of facts about a cut run of `receive`: its operations stay in
the secondary slot and its image programs in the image area, all of them whole
flash words and none programmed twice, and what the flash holds once the image
is programmed is the image.

Results:
* `Filled.flash_content`: the flash after a complete set of programs.
* `Stage.words_nodup`: no word is programmed twice.
* `staging_discipline`: with these, all that is said above of any cut.
-/
namespace Nucleo.Firmware

/-! ## Words -/

/-- The flash words programmed, one entry for each time. -/
def programmedWords (ops : List FlashOp) : List Nat :=
  ops.flatMap fun
    | .program offset data _ => List.range' (offset / flashWriteSize) (data.length / flashWriteSize)
    | _ => []

@[simp] theorem programmedWords_append (ops ops' : List FlashOp) :
    programmedWords (ops ++ ops') = programmedWords ops ++ programmedWords ops' :=
  List.flatMap_append

@[simp] theorem programmedWords_erased (ok : Bool) (ops : List FlashOp) :
    programmedWords (erased ok :: ops) = programmedWords ops := rfl

theorem programs_words {offset : Nat} {ops : List FlashOp} {data : Bytes} (h : Programs offset ops data)
    (ho : flashWriteSize ∣ offset) (haligned : ∀ op ∈ ops, ∃ offset data ok, op = .program offset data ok ∧
      flashWriteSize ∣ offset ∧ flashWriteSize ∣ data.length) :
    flashWriteSize ∣ data.length ∧
      programmedWords ops = List.range' (offset / flashWriteSize) (data.length / flashWriteSize) := by
  induction h with
  | nil => exact ⟨Nat.dvd_zero _, rfl⟩
  | @snoc ops data bytes _ ih =>
    obtain ⟨hd, hw⟩ := ih fun op hop => haligned op (List.mem_append_left _ hop)
    obtain ⟨_, _, _, he, -, hb⟩ := haligned _ (List.mem_append_right _ (List.mem_singleton.2 rfl))
    cases he
    refine ⟨by rw [List.length_append]; exact Nat.dvd_add hd hb, ?_⟩
    rw [programmedWords_append, hw, List.length_append]
    have hlast : programmedWords [.program (offset + data.length) bytes true] =
        List.range' ((offset + data.length) / flashWriteSize) (bytes.length / flashWriteSize) := by
      simp [programmedWords]
    rw [hlast, Nat.add_div_of_dvd_right ho, Nat.add_div_of_dvd_right hd, ← List.range'_append_1]

theorem Filled.words {header : UpdateHeader} {image : Bytes} {progs : List FlashOp}
    (h : Filled header image progs) : programmedWords progs =
      List.range' (stagedImageOffset / flashWriteSize) (padded image.length / flashWriteSize) := by
  have hw := (programs_words h.programs (by decide) h.aligned).2
  rwa [List.length_append, length_padding] at hw

theorem reads_words {offset : Nat} {ops : List FlashOp} {found : Bytes} (h : Reads offset ops found) :
    programmedWords ops = [] := by
  induction h with
  | nil => rfl
  | snoc _ ih =>
    rw [programmedWords_append, ih]
    rfl

/-- Words of the image area, and words beyond it. -/
theorem nodup_words {n : Nat} (hn : n ≤ maxSignedImageSize) {ws : List Nat} (hnd : ws.Nodup)
    (hge : ∀ x ∈ ws, swapInfoOffset / flashWriteSize ≤ x) :
    (List.range' (stagedImageOffset / flashWriteSize) (n / flashWriteSize) ++ ws).Nodup := by
  refine List.nodup_append'.2 ⟨List.nodup_range', hnd, fun x hx hx' => ?_⟩
  have h1 := (List.mem_range'_1.1 hx).2
  have h2 := hge x hx'
  have h3 : n / flashWriteSize ≤ maxSignedImageSize / flashWriteSize := Nat.div_le_div_right hn
  have h4 : stagedImageOffset / flashWriteSize + maxSignedImageSize / flashWriteSize <
      swapInfoOffset / flashWriteSize := by decide
  omega

theorem Checked.words {sha : Bytes → Bytes} {s : Bytes} {header : UpdateHeader} {image back : Bytes}
    {progs reads : List FlashOp} (h : Checked sha s header image back progs reads) (tail : List FlashOp)
    (hnd : (programmedWords tail).Nodup)
    (hge : ∀ x ∈ programmedWords tail, swapInfoOffset / flashWriteSize ≤ x) :
    (programmedWords (erased true :: (progs ++ (reads ++ tail)))).Nodup := by
  rw [programmedWords_erased, programmedWords_append, programmedWords_append, reads_words h.reads,
    List.nil_append, h.filled.words]
  refine nodup_words ?_ hnd hge
  rw [h.complete]
  exact h.accepted.bound

/-- No word is programmed twice. -/
theorem Stage.words_nodup {sha : Bytes → Bytes} {s : Bytes} {ops : List FlashOp} (h : Stage sha s ops) :
    (programmedWords ops).Nodup := by
  cases h with
  | waiting => exact List.nodup_nil
  | eraseFailed _ => exact List.nodup_nil
  | filling ha hf =>
    rw [programmedWords_erased, hf.words]
    exact List.nodup_range'
  | @writeFailed header image rest _ progs ha hf hd hdata =>
    -- the failed program continues where the others end
    have hword : flashWriteSize ∣ image.length := Nat.dvd_trans (by decide) hd
    have hpad : padded image.length = image.length := by
      have := length_padding image.length
      rw [padding_of_dvd hword, List.length_nil] at this
      exact this.symm
    rw [programmedWords_erased, programmedWords_append, hf.words, hpad, hdata]
    have hlast : programmedWords [.program (stagedImageOffset + image.length)
        (rest ++ padding rest.length) false] =
        List.range' (stagedImageOffset / flashWriteSize + image.length / flashWriteSize)
          ((rest ++ padding rest.length).length / flashWriteSize) := by
      simp only [programmedWords, List.flatMap_cons, List.flatMap_nil, List.append_nil]
      rw [Nat.add_div_of_dvd_right (by decide)]
    rw [hlast, List.range'_append_1]
    exact List.nodup_range'
  | checking hc =>
    have := hc.words [] List.nodup_nil (fun x hx => by cases hx)
    rwa [List.append_nil] at this
  | readFailed hc _ => exact hc.words _ List.nodup_nil (fun x hx => by cases hx)
  | marked ok hv =>
    refine hv.checked.words _ ?_ ?_
    · change [swapInfoOffset / flashWriteSize].Nodup
      exact List.nodup_singleton _
    · intro x hx
      change x ∈ [swapInfoOffset / flashWriteSize] at hx
      rw [List.mem_singleton.1 hx]
  | activated ok hv =>
    refine hv.checked.words _ ?_ ?_
    · change [swapInfoOffset / flashWriteSize, magicOffset / flashWriteSize].Nodup
      decide
    · intro x hx
      change x ∈ [swapInfoOffset / flashWriteSize, magicOffset / flashWriteSize] at hx
      have : swapInfoOffset / flashWriteSize ≤ magicOffset / flashWriteSize := by decide
      simp only [List.mem_cons, List.not_mem_nil, or_false] at hx
      omega

/-! ## Content -/

theorem range_eq {flash : Flash} {offset : Nat} {data : Bytes}
    (h : ∀ i (hi : i < data.length), flash (offset + i) = data[i]) :
    flash.range offset data.length = data := by
  refine List.ext_getElem (by simp [Flash.range]) fun i h1 h2 => ?_
  simp [Flash.range, h i h2]

/-- Once programmed the image is there, whatever follows outside its range. -/
theorem Filled.flash_content {header : UpdateHeader} {image : Bytes} {progs tail : List FlashOp}
    (h : Filled header image progs) (hle : padded image.length ≤ maxSignedImageSize)
    {flash flash' : Flash} (hr : Replay flash (erased true :: (progs ++ tail)) flash')
    (htail : ∀ op ∈ tail, ∀ x, x < stagedImageOffset + padded image.length → ¬ op.Touches x) :
    flash'.range stagedImageOffset (padded image.length) = image ++ padding image.length := by
  obtain ⟨blank, heff, hrest⟩ := hr.cons
  obtain ⟨full, hprogs, htailr⟩ := hrest.split
  have hlen : (image ++ padding image.length).length = padded image.length := by
    rw [List.length_append, length_padding]
  have hin : stagedImageOffset + maxSignedImageSize ≤ secondarySlotOffset + secondarySlotSize ∧
      secondarySlotOffset ≤ stagedImageOffset := by decide
  have hcontent := h.programs.content hprogs fun i hi =>
    heff.2 _ (by omega) (by omega)
  rw [← hlen]
  refine range_eq fun i hi => ?_
  rw [htailr.untouched fun op hop => htail op hop _ (by omega)]
  exact hcontent i hi

/-- What was read back is what was programmed. -/
theorem Checked.back_prefix {sha : Bytes → Bytes} {s : Bytes} {header : UpdateHeader} {image back : Bytes}
    {progs reads tail : List FlashOp} (h : Checked sha s header image back progs reads)
    {flash flash' : Flash} (hr : Replay flash (erased true :: (progs ++ (reads ++ tail))) flash') :
    back <+: image := by
  have hbound : padded image.length ≤ maxSignedImageSize := by
    rw [h.complete]
    exact h.accepted.bound
  rw [← List.append_assoc, ← List.cons_append] at hr
  obtain ⟨mid, hreads, -⟩ := hr.split
  have hcontent := h.filled.flash_content hbound hreads fun op hop x _ ht => by
    obtain ⟨_, _, rfl, -, -⟩ := h.reads.within op hop
    exact ht
  rw [← List.cons_append] at hreads
  obtain ⟨full, -, hfound⟩ := hreads.split
  obtain ⟨rfl, hback⟩ := h.reads.found hfound
  have hle : back.length ≤ image.length := by
    rw [h.complete]
    exact h.within
  have hpre : image <+: image ++ padding image.length := List.prefix_append _ _
  refine List.prefix_of_prefix_length_le ?_ hpre hle
  rw [← hcontent, hback, Flash.range, Flash.range]
  have := (padded_bounds image.length).1
  refine List.IsPrefix.map _ ?_
  rw [show padded image.length = back.length + (padded image.length - back.length) by omega, List.range_add]
  simp

/-- Reads that succeeded. -/
def readOk : FlashOp → Bool
  | .read _ _ found => found.isSome
  | _ => false

theorem filter_programs {offset : Nat} {ops : List FlashOp} {data : Bytes} (h : Programs offset ops data) :
    ops.filter readOk = [] := by
  refine List.filter_eq_nil_iff.2 fun op hop => ?_
  obtain ⟨_, _, rfl, -, -⟩ := h.within op hop
  exact Bool.false_ne_true

theorem filter_reads {offset : Nat} {ops : List FlashOp} {found : Bytes} (h : Reads offset ops found) :
    ops.filter readOk = ops := by
  refine List.filter_eq_self.2 fun op hop => ?_
  obtain ⟨_, _, rfl, -, -⟩ := h.within op hop
  rfl

@[simp] theorem filter_erased (ok : Bool) (ops : List FlashOp) :
    (erased ok :: ops).filter readOk = ops.filter readOk := rfl

theorem Checked.filter_ok {sha : Bytes → Bytes} {s : Bytes} {header : UpdateHeader} {image back : Bytes}
    {progs reads tail : List FlashOp} (h : Checked sha s header image back progs reads)
    (htail : tail.filter readOk = []) : (erased true :: (progs ++ (reads ++ tail))).filter readOk = reads := by
  rw [filter_erased, List.filter_append, List.filter_append, filter_programs h.filled.programs,
    filter_reads h.reads, htail, List.nil_append, List.append_nil]

/-- The reads of any stage go through the image from its start. -/
theorem Stage.reads_prefix {sha : Bytes → Bytes} {s : Bytes} {ops : List FlashOp} (h : Stage sha s ops)
    {flash flash' : Flash} (hr : Replay flash ops flash') {header : UpdateHeader} {image : Bytes}
    (ha : Accepted s header image []) :
    ∃ back, Reads stagedImageOffset (ops.filter readOk) back ∧ back <+: image := by
  have hnone : ∀ {ops : List FlashOp}, ops.filter readOk = [] →
      ∃ back, Reads stagedImageOffset (ops.filter readOk) back ∧ back <+: image := by
    intro ops hops
    rw [hops]
    exact ⟨[], .nil, List.nil_prefix⟩
  have hsome : ∀ {header' : UpdateHeader} {image' back : Bytes} {progs reads tail : List FlashOp},
      Checked sha s header' image' back progs reads → tail.filter readOk = [] →
      Replay flash (erased true :: (progs ++ (reads ++ tail))) flash' →
      ∃ back, Reads stagedImageOffset ((erased true :: (progs ++ (reads ++ tail))).filter readOk) back ∧
        back <+: image := by
    intro header' image' back progs reads tail hc htail hr
    obtain ⟨-, himage⟩ := ha.unique hc.accepted
    rw [List.append_nil, List.append_nil] at himage
    rw [hc.filter_ok htail, himage]
    exact ⟨back, hc.reads, hc.back_prefix hr⟩
  cases h with
  | waiting => exact hnone rfl
  | eraseFailed _ => exact hnone rfl
  | filling _ hf =>
    refine hnone ?_
    rw [filter_erased, filter_programs hf.programs]
  | writeFailed _ hf _ _ =>
    refine hnone ?_
    rw [filter_erased, List.filter_append, filter_programs hf.programs]
    rfl
  | @checking header' image' back progs reads hc =>
    rw [← List.append_nil reads] at hr ⊢
    exact hsome hc rfl hr
  | readFailed hc _ => exact hsome hc rfl hr
  | marked _ hv => exact hsome hv.checked rfl hr
  | activated _ hv => exact hsome hv.checked rfl hr

/-- Before a trailer word the reads have gone through all of it. -/
theorem Stage.reads_all {sha : Bytes → Bytes} {s : Bytes} {ops : List FlashOp} (h : Stage sha s ops)
    {flash flash' : Flash} (hr : Replay flash ops flash') {header : UpdateHeader} {image : Bytes}
    (ha : Accepted s header image []) {ok : Bool}
    (hswap : .program swapInfoOffset mcubootTestSwapInfoBlock ok ∈ ops) :
    Reads stagedImageOffset (ops.filter readOk) image ∧ image.length = header.image_length := by
  obtain ⟨header', image', back, progs, reads, tail, hv, rfl, htail⟩ := h.trailer hswap (Nat.le_refl _)
  have hc := hv.checked
  obtain ⟨rfl, himage⟩ := ha.unique hc.accepted
  rw [List.append_nil, List.append_nil] at himage
  subst himage
  have hback : back = image :=
    (hc.back_prefix hr).eq_of_length (hv.covered.trans hc.complete.symm)
  have hfilter : tail.filter readOk = [] := by
    rcases htail with ⟨ok', rfl⟩ | ⟨ok', rfl⟩ <;> rfl
  rw [hc.filter_ok hfilter]
  subst hback
  exact ⟨hc.reads, hv.covered⟩

/-- With its last program issued an image is complete. -/
theorem Filled.rest_nil {header : UpdateHeader} {image rest : Bytes} {progs : List FlashOp}
    (hf : Filled header image progs) (hcomplete : image.length + rest.length = header.image_length)
    {offset : Nat} {data : Bytes} (hlast : .program offset data true ∈ progs)
    (hend : offset + data.length = stagedImageOffset + padded header.image_length) : rest = [] := by
  obtain ⟨start, bytes, he, -, hhi⟩ := hf.programs.within _ hlast
  cases he
  rw [List.length_append, length_padding] at hhi
  refine List.eq_nil_of_length_eq_zero ?_
  rcases hf.whole with heq | hd
  · omega
  · -- a partial image is whole buffers, with no padding
    have hpad := length_padding image.length
    rw [padding_of_dvd (Nat.dvd_trans (by decide) hd), List.length_nil] at hpad
    have := (padded_bounds header.image_length).1
    omega

/-- The flash once the last program of a complete image has succeeded. -/
theorem Stage.content {sha : Bytes → Bytes} {s : Bytes} {ops : List FlashOp} (h : Stage sha s ops)
    {flash flash' : Flash} (hr : Replay flash ops flash') {header : UpdateHeader} {image : Bytes}
    (ha : Accepted s header image []) (hcomplete : image.length = header.image_length) {offset : Nat}
    {data : Bytes} (hlast : .program offset data true ∈ ops)
    (hend : offset + data.length = stagedImageOffset + padded header.image_length) :
    flash'.range stagedImageOffset (padded header.image_length) = image ++ padding image.length := by
  have hfar : stagedImageOffset + maxSignedImageSize ≤ swapInfoOffset ∧ swapInfoOffset ≤ magicOffset := by
    decide
  have hcontent : ∀ {header' : UpdateHeader} {image' rest : Bytes} {progs tail : List FlashOp},
      Accepted s header' image' rest → Filled header' image' progs → rest = [] →
      Replay flash (erased true :: (progs ++ tail)) flash' →
      (∀ op ∈ tail, ∀ x, x < stagedImageOffset + maxSignedImageSize → ¬ op.Touches x) →
      flash'.range stagedImageOffset (padded header.image_length) = image ++ padding image.length := by
    intro header' image' rest progs tail ha' hf hrest hr htail
    subst hrest
    obtain ⟨rfl, himage⟩ := ha.unique ha'
    rw [List.append_nil, List.append_nil] at himage
    subst himage
    have hbound := ha.bound
    rw [← hcomplete] at hbound ⊢
    exact hf.flash_content hbound hr fun op hop x hx => htail op hop x (by omega)
  have hlength : ∀ {header' : UpdateHeader} {image' rest : Bytes}, Accepted s header' image' rest →
      header = header' ∧ image'.length + rest.length = header'.image_length := by
    intro header' image' rest ha'
    obtain ⟨rfl, himage⟩ := ha.unique ha'
    rw [List.append_nil] at himage
    rw [← List.length_append, ← himage]
    exact ⟨rfl, hcomplete⟩
  have hreads : ∀ {back : Bytes} {reads : List FlashOp}, Reads stagedImageOffset reads back →
      ∀ op ∈ reads, ∀ x, ¬ op.Touches x := by
    intro back reads hrd op hop x ht
    obtain ⟨_, _, rfl, -, -⟩ := hrd.within op hop
    exact ht
  cases h with
  | waiting => cases hlast
  | eraseFailed _ => cases List.mem_singleton.1 hlast
  | @filling header' image' rest progs ha' hf =>
    obtain ⟨rfl, hlen⟩ := hlength ha'
    rcases List.mem_cons.1 hlast with he | hmem
    · cases he
    · have hr' : Replay flash (erased true :: (progs ++ [])) flash' := by
        rw [List.append_nil]
        exact hr
      exact hcontent ha' hf (hf.rest_nil hlen hmem hend) hr' fun op hop => by cases hop
  | @writeFailed header' image' rest _ progs ha' hf hd hdata =>
    obtain ⟨rfl, hlen⟩ := hlength ha'
    rcases List.mem_cons.1 hlast with he | hmem
    · cases he
    rcases List.mem_append.1 hmem with hmem | hmem
    · have hnil := hf.rest_nil hlen hmem hend
      refine hcontent ha' hf hnil hr fun op hop x _ ht => ?_
      subst hnil hdata
      rw [List.mem_singleton.1 hop] at ht
      have h1 := ht.1
      have h2 := ht.2
      have h3 : ([] ++ padding ([] : Bytes).length).length = 0 := rfl
      omega
    · cases List.mem_singleton.1 hmem
  | checking hc => exact hcontent hc.accepted hc.filled rfl hr fun op hop x _ => hreads hc.reads op hop x
  | readFailed hc _ =>
    refine hcontent hc.accepted hc.filled rfl hr fun op hop x _ ht => ?_
    rcases List.mem_append.1 hop with hop | hop
    · exact hreads hc.reads op hop x ht
    · rw [List.mem_singleton.1 hop] at ht
      exact ht
  | marked ok hv =>
    refine hcontent hv.checked.accepted hv.checked.filled rfl hr fun op hop x hx ht => ?_
    rcases List.mem_append.1 hop with hop | hop
    · exact hreads hv.checked.reads op hop x ht
    · rw [List.mem_singleton.1 hop] at ht
      have := ht.1
      omega
  | activated ok hv =>
    refine hcontent hv.checked.accepted hv.checked.filled rfl hr fun op hop x hx ht => ?_
    rcases List.mem_append.1 hop with hop | hop
    · exact hreads hv.checked.reads op hop x ht
    rcases List.mem_cons.1 hop with rfl | hop
    · have := ht.1
      omega
    · rw [List.mem_singleton.1 hop] at ht
      have := ht.1
      omega

theorem Issued.inside {image_length : Nat} {op : FlashOp} (h : Issued image_length op)
    (hbound : padded image_length ≤ maxSignedImageSize) {x : Nat} (ht : op.Touches x) :
    secondarySlotOffset ≤ x ∧ x < secondarySlotOffset + secondarySlotSize := by
  have hslot : secondarySlotOffset ≤ stagedImageOffset ∧
      stagedImageOffset + maxSignedImageSize ≤ secondarySlotOffset + secondarySlotSize := by decide
  cases h with
  | erase ok => exact ht
  | image ok hlo hhi _ _ =>
    have h1 := ht.1
    have h2 := ht.2
    omega
  | readBack => exact ht.elim
  | swapInfo ok =>
    have hin : secondarySlotOffset ≤ swapInfoOffset ∧ swapInfoOffset + mcubootTestSwapInfoBlock.length ≤
        secondarySlotOffset + secondarySlotSize := by decide
    have h1 := ht.1
    have h2 := ht.2
    omega
  | magic ok =>
    have hin : secondarySlotOffset ≤ magicOffset ∧ magicOffset + mcubootMagicBlock.length ≤
        secondarySlotOffset + secondarySlotSize := by decide
    have h1 := ht.1
    have h2 := ht.2
    omega

theorem Issued.place {image_length offset : Nat} {data : Bytes} {ok : Bool}
    (h : Issued image_length (.program offset data ok)) (hbound : padded image_length ≤ maxSignedImageSize) :
    (offset = swapInfoOffset ∧ data = mcubootTestSwapInfoBlock) ∨
    (offset = magicOffset ∧ data = mcubootMagicBlock) ∨
    (stagedImageOffset ≤ offset ∧ offset + data.length ≤ stagedImageOffset + maxSignedImageSize ∧
      ∀ x, (FlashOp.program offset data ok).Touches x →
        ¬ InWord swapInfoOffset x ∧ ¬ InWord stagedImageOkOffset x ∧ ¬ InWord magicOffset x) := by
  cases h with
  | image _ hlo hhi _ _ =>
    have hfar : stagedImageOffset + maxSignedImageSize ≤ swapInfoOffset ∧ swapInfoOffset ≤ stagedImageOkOffset ∧
        stagedImageOkOffset ≤ magicOffset := by decide
    refine .inr (.inr ⟨hlo, by omega, fun x ht => ?_⟩)
    have hx := ht.2
    have hbelow : x < swapInfoOffset := by omega
    exact ⟨fun hw => absurd hw.1 (by omega), fun hw => absurd hw.1 (by omega),
      fun hw => absurd hw.1 (by omega)⟩
  | swapInfo _ => exact .inl ⟨rfl, rfl⟩
  | magic _ => exact .inr (.inl ⟨rfl, rfl⟩)

theorem Issued.aligned {image_length offset : Nat} {data : Bytes} {ok : Bool}
    (h : Issued image_length (.program offset data ok)) :
    flashWriteSize ∣ offset ∧ flashWriteSize ∣ data.length := by
  cases h with
  | image _ _ _ ho hd => exact ⟨ho, hd⟩
  | swapInfo _ => decide
  | magic _ => decide

/-- What a cut run has done and left. -/
structure Disciplined (w : World) : Prop where
  /-- no operation touches anything but the secondary slot -/
  inside : ∀ op ∈ operations w.events, ∀ x, op.Touches x →
    secondarySlotOffset ≤ x ∧ x < secondarySlotOffset + secondarySlotSize
  /-- the two trailer words apart, programs are of the image area -/
  place : ∀ offset data ok, .program offset data ok ∈ operations w.events →
    (offset = swapInfoOffset ∧ data = mcubootTestSwapInfoBlock) ∨
    (offset = magicOffset ∧ data = mcubootMagicBlock) ∨
    (stagedImageOffset ≤ offset ∧ offset + data.length ≤ stagedImageOffset + maxSignedImageSize ∧
      ∀ x, (FlashOp.program offset data ok).Touches x →
        ¬ InWord swapInfoOffset x ∧ ¬ InWord stagedImageOkOffset x ∧ ¬ InWord magicOffset x)
  aligned : ∀ offset data ok, .program offset data ok ∈ operations w.events →
    flashWriteSize ∣ offset ∧ flashWriteSize ∣ data.length
  erase_first : operations w.events = [] ∨ ∃ ok rest, operations w.events = erased ok :: rest ∧
    ∀ start stop ok, .erase start stop ok ∉ rest
  once : (programmedWords (operations w.events)).Nodup
  /-- once the last program of a complete image has succeeded -/
  content : ∀ header image, Accepted (streamed w.events) header image [] →
    image.length = header.image_length →
    (∃ offset data, .program offset data true ∈ operations w.events ∧
      offset + data.length = stagedImageOffset + padded header.image_length) →
    w.flash.range stagedImageOffset (padded header.image_length) = image ++ padding image.length
  /-- reads go through the image once, all of it before the trailer -/
  read_back : ∀ header image, Accepted (streamed w.events) header image [] →
    (∀ offset len found, .read offset len found ∈ operations w.events →
      stagedImageOffset ≤ offset ∧ offset + len ≤ stagedImageOffset + header.image_length) ∧
    ∃ back, Reads stagedImageOffset ((operations w.events).filter readOk) back ∧ back <+: image ∧
      ((∃ ok, .program swapInfoOffset mcubootTestSwapInfoBlock ok ∈ operations w.events) → back = image ∧
        image.length = header.image_length)

/-- **Every cut of every run keeps the memory discipline.** -/
theorem staging_discipline {sha : Bytes → Bytes} {flash : Flash} {w : World} (h : Cut sha flash w) :
    Disciplined w := by
  have hst := receive_stage h
  have hr := cut_replay h
  have hissued : ∀ op ∈ operations w.events, ∃ header image rest,
      Accepted (streamed w.events) header image rest ∧ Issued header.image_length op := by
    intro op hop
    rcases hst.issued with hnil | ⟨header, image, rest, ha, hall⟩
    · rw [hnil] at hop
      cases hop
    · exact ⟨header, image, rest, ha, hall op hop⟩
  exact {
    inside := by
      intro op hop x ht
      obtain ⟨_, _, _, ha, hi⟩ := hissued op hop
      exact hi.inside ha.bound ht
    place := by
      intro offset data ok hop
      obtain ⟨_, _, _, ha, hi⟩ := hissued _ hop
      exact hi.place ha.bound
    aligned := by
      intro offset data ok hop
      obtain ⟨_, _, _, -, hi⟩ := hissued _ hop
      exact hi.aligned
    erase_first := by
      rcases hst.erase_first with hnil | hfail | ⟨rest, hops, hno⟩
      · exact .inl hnil
      · exact .inr ⟨false, [], hfail, fun _ _ _ hmem => by cases hmem⟩
      · exact .inr ⟨true, rest, hops, hno⟩
    once := hst.words_nodup
    content := by
      rintro header image ha hcomplete ⟨offset, data, hlast, hend⟩
      exact hst.content hr ha hcomplete hlast hend
    read_back := by
      intro header image ha
      refine ⟨fun offset len found hop => ?_, ?_⟩
      · obtain ⟨_, _, _, ha', hi⟩ := hissued _ hop
        obtain ⟨rfl, -⟩ := ha.unique ha'
        cases hi with
        | readBack _ hlo hhi => exact ⟨hlo, hhi⟩
      by_cases hswap : ∃ ok, .program swapInfoOffset mcubootTestSwapInfoBlock ok ∈ operations w.events
      · obtain ⟨ok, hmem⟩ := hswap
        obtain ⟨hreads, hlen⟩ := hst.reads_all hr ha hmem
        exact ⟨image, hreads, List.prefix_refl _, fun _ => ⟨rfl, hlen⟩⟩
      · obtain ⟨back, hreads, hpre⟩ := hst.reads_prefix hr ha
        exact ⟨back, hreads, hpre, fun hyes => absurd hyes hswap⟩ }

theorem staging_discipline_sample : Disciplined Sample.activated := staging_discipline sample_run

end Nucleo.Firmware
