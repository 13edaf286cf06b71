import Nucleo.L1Encoding.Types
import Nucleo.Core.Crc

/-!
# Datagram framing

`sealFrame` (`seal`) appends eight upper-case hexadecimal digits of a CRC-32C to a body that
is already in the buffer, `openFrame` (`open`) takes them off again before
anything is decoded. The checksum is the `crc` crate's; here it is the
parameter `checksum`, and what is assumed of it is that it computes what the
host's bitwise reference `pyChecksum` does.

Results:
* `openFrame_on`: of the datagrams `body ++ t` with eight more bytes, exactly
  the one with the checksum's digits is accepted.
* `crc_protects`: a sealed datagram opens to its body, and every changed
  trailer, every one to three flipped bits and every burst of up to 32 bits in
  the body is rejected as a CRC error.
-/
namespace Nucleo.Framing

/-! ## `framing.rs` -/

/-- `HEX`. -/
def hex : Bytes := ascii "0123456789ABCDEF"

/-- `TRAILER_BYTES`. -/
def trailerBytes : Nat := 8

/-- `let extra = …`, the same in `seal` and `open`. -/
def extra (mode : CrcMode) : Nat := if mode = .on then trailerBytes else 0

/-- The digits `seal` writes, most significant first. -/
def trailer (value : UInt32) : Bytes :=
  (List.range trailerBytes).map fun index =>
    hex.getD ((value >>> UInt32.ofNat (28 - index * 4)) &&& 15).toNat 0

/-- `seal`: the buffer with the trailer after the body, and the length of both.
mirrors Rust/messaging/src/framing.rs:34-51 -/
def sealFrame (checksum : Bytes → UInt32) (mode : CrcMode) (buffer : Bytes) (bodyLen : Nat) :
    Except CodecError (Bytes × Nat) :=
  if maxBody < bodyLen ∨ buffer.length < bodyLen + extra mode then .error .size
  else if mode = .on then
    let value := checksum (buffer.take bodyLen)
    .ok (buffer.take bodyLen ++ trailer value ++ buffer.drop (bodyLen + trailerBytes),
      bodyLen + extra mode)
  else .ok (buffer, bodyLen + extra mode)

/-- The value of one upper-case digit. -/
def digit (b : UInt8) : Option UInt32 :=
  if 48 ≤ b ∧ b ≤ 57 then some (b - 48).toUInt32
  else if 65 ≤ b ∧ b ≤ 70 then some (b - 65 + 10).toUInt32
  else none

/-- The loop over the trailer; `none` is its early return. -/
def parseTrailer : UInt32 → Bytes → Option UInt32
  | expected, [] => some expected
  | expected, b :: rest =>
    match digit b with
    | none => none
    | some value => parseTrailer ((expected <<< 4) ||| value) rest

/-- `open`.
mirrors Rust/messaging/src/framing.rs:53-83 -/
def openFrame (checksum : Bytes → UInt32) (mode : CrcMode) (datagram : Bytes) :
    Except CodecError Bytes :=
  if maxBody + extra mode < datagram.length then .error .size
  else if mode = .off then .ok datagram
  else if datagram.length < trailerBytes then .error .crc
  else
    let bodyLen := datagram.length - trailerBytes
    let body := datagram.take bodyLen
    match parseTrailer 0 (datagram.drop bodyLen) with
    | none => .error .crc
    | some expected => if checksum body ≠ expected then .error .crc else .ok body

/-! ## The bitwise reference -/

/-- `(value >> 1) ^ (0x82F63B78 if value & 1 else 0)`. -/
def pyShift (value : Nat) : Nat := (value >>> 1) ^^^ (if value &&& 1 ≠ 0 then 0x82F63B78 else 0)

def pyByte (value : Nat) (byte : UInt8) : Nat :=
  (List.range 8).foldl (fun value _ => pyShift value) (value ^^^ byte.toNat)

/-- mirrors Rust/tools/message-demo/python/framing.py:9-16 -/
def pyChecksum (data : Bytes) : Nat := data.foldl pyByte 0xFFFFFFFF ^^^ 0xFFFFFFFF

/-! ## Trailers -/

theorem digit_hex : ∀ n < 16, digit (hex.getD n 0) = some (UInt32.ofNat n) := by decide

theorem digit_some {b : UInt8} {x : UInt32} (h : digit b = some x) :
    x.toNat < 16 ∧ b = hex.getD x.toNat 0 := by
  have key : ∀ k < 256, (digit (UInt8.ofNat k)).all
      (fun x => x.toNat < 16 && UInt8.ofNat k == hex.getD x.toNat 0) = true := by decide +kernel
  have := key b.toNat b.toNat_lt
  rw [UInt8.ofNat_toNat, h] at this
  simpa using this

/-- One digit more. -/
theorem toNat_push (e x : UInt32) (hx : x.toNat < 16) (he : e.toNat < 2 ^ 28) :
    ((e <<< 4) ||| x).toNat = e.toNat * 16 + x.toNat := by
  have hs : (e <<< 4).toNat = 2 ^ 4 * e.toNat := by
    rw [UInt32.toNat_shiftLeft, Nat.shiftLeft_eq]
    have h4 : 2 ^ ((4 : UInt32).toNat % 32) = 16 := rfl
    rw [h4]
    omega
  rw [UInt32.toNat_or, hs, ← Nat.two_pow_add_eq_or_of_lt hx]
  omega

/-- The last `n` hexadecimal digits of a number. -/
def digits : Nat → Nat → Bytes
  | 0, _ => []
  | n + 1, v => hex.getD (v / 16 ^ n % 16) 0 :: digits n v

@[simp] theorem digits_length (n v : Nat) : (digits n v).length = n := by
  induction n with
  | zero => rfl
  | succ n ih => simp [digits, ih]

theorem toNat_nibble (v : UInt32) {k : Nat} (hk : k < 32) :
    ((v >>> UInt32.ofNat k) &&& 15).toNat = v.toNat / 2 ^ k % 16 := by
  have h15 : (15 : UInt32).toNat = 2 ^ 4 - 1 := rfl
  have hk' : (UInt32.ofNat k).toNat % 32 = k := by rw [toNat_ofNat32]; omega
  rw [UInt32.toNat_and, h15, Nat.and_two_pow_sub_one_eq_mod, UInt32.toNat_shiftRight, hk',
    Nat.shiftRight_eq_div_pow]

theorem trailer_eq (value : UInt32) : trailer value = digits 8 value.toNat := by
  unfold trailer
  have hmap : ∀ index ∈ List.range trailerBytes,
      hex.getD ((value >>> UInt32.ofNat (28 - index * 4)) &&& 15).toNat 0 =
        hex.getD (value.toNat / 2 ^ (28 - index * 4) % 16) 0 := by
    intro index _
    rw [toNat_nibble value (by omega)]
  rw [List.map_congr_left hmap]
  rfl

@[simp] theorem trailer_length (value : UInt32) : (trailer value).length = 8 := by
  rw [trailer_eq, digits_length]

theorem parseTrailer_digits {n v : Nat} {acc : UInt32} (h : (acc.toNat + 1) * 16 ^ n ≤ 2 ^ 32) :
    parseTrailer acc (digits n v) = some (UInt32.ofNat (acc.toNat * 16 ^ n + v % 16 ^ n)) := by
  induction n generalizing acc with
  | zero => simp [digits, parseTrailer, Nat.mod_one]
  | succ n ih =>
    have hx : v / 16 ^ n % 16 < 16 := Nat.mod_lt _ (by decide)
    have hxn : (UInt32.ofNat (v / 16 ^ n % 16)).toNat = v / 16 ^ n % 16 := by
      rw [toNat_ofNat32]; omega
    have hpow : 16 ^ (n + 1) = 16 ^ n * 16 := Nat.pow_succ ..
    have hpos : 0 < 16 ^ n := Nat.pow_pos (by decide)
    have hacc : acc.toNat < 2 ^ 28 := by
      have : (acc.toNat + 1) * 16 ≤ (acc.toNat + 1) * 16 ^ (n + 1) :=
        Nat.mul_le_mul_left _ (by omega)
      omega
    have hpush := toNat_push acc _ (hxn ▸ hx) hacc
    have hle : (acc.toNat * 16 + v / 16 ^ n % 16 + 1) * 16 ^ n ≤ (acc.toNat + 1) * 16 ^ (n + 1) := by
      rw [hpow, ← Nat.mul_assoc, Nat.mul_right_comm]
      exact Nat.mul_le_mul_right _ (by omega)
    rw [digits, parseTrailer, digit_hex _ hx]
    refine (ih (by rw [hpush, hxn]; omega)).trans ?_
    rw [hpush, hxn, Nat.mod_pow_succ, hpow]
    congr 2
    rw [Nat.add_mul, Nat.mul_assoc, Nat.mul_comm 16, Nat.mul_comm (16 ^ n) (v / 16 ^ n % 16)]
    omega

theorem parseTrailer_some {t : Bytes} {acc r : UInt32} (h : parseTrailer acc t = some r)
    (hacc : (acc.toNat + 1) * 16 ^ t.length ≤ 2 ^ 32) :
    r.toNat / 16 ^ t.length = acc.toNat ∧ t = digits t.length r.toNat := by
  induction t generalizing acc with
  | nil => cases h; simp [digits]
  | cons b t ih =>
    simp only [List.length_cons] at hacc ⊢
    have hpow : 16 ^ (t.length + 1) = 16 ^ t.length * 16 := Nat.pow_succ ..
    have hpos : 0 < 16 ^ t.length := Nat.pow_pos (by decide)
    rw [parseTrailer] at h
    split at h
    · cases h
    · rename_i x hx
      obtain ⟨hlt, rfl⟩ := digit_some hx
      have hsmall : acc.toNat < 2 ^ 28 := by
        have : (acc.toNat + 1) * 16 ≤ (acc.toNat + 1) * 16 ^ (t.length + 1) :=
          Nat.mul_le_mul_left _ (by omega)
        omega
      have hpush := toNat_push acc x hlt hsmall
      have hle : (acc.toNat * 16 + x.toNat + 1) * 16 ^ t.length ≤
          (acc.toNat + 1) * 16 ^ (t.length + 1) := by
        rw [hpow, ← Nat.mul_assoc, Nat.mul_right_comm]
        exact Nat.mul_le_mul_right _ (by omega)
      obtain ⟨h1, h2⟩ := ih h (by rw [hpush]; omega)
      rw [hpush] at h1
      refine ⟨by rw [hpow, ← Nat.div_div_eq_div_mul, h1]; omega, ?_⟩
      rw [digits, h1, show (acc.toNat * 16 + x.toNat) % 16 = x.toNat by omega, ← h2]

/-- The digits of a value are the one trailer that reads as it. -/
theorem parseTrailer_iff {t : Bytes} (ht : t.length = 8) (v : UInt32) :
    parseTrailer 0 t = some v ↔ t = trailer v := by
  have hzero : ((0 : UInt32).toNat + 1) * 16 ^ 8 ≤ 2 ^ 32 := by decide
  rw [trailer_eq]
  constructor
  · intro h
    obtain ⟨-, h2⟩ := parseTrailer_some h (by rw [ht]; exact hzero)
    rwa [ht] at h2
  · rintro rfl
    have hlt : v.toNat < 16 ^ 8 := v.toNat_lt
    rw [parseTrailer_digits hzero, UInt32.toNat_zero, Nat.zero_mul, Nat.zero_add,
      Nat.mod_eq_of_lt hlt, UInt32.ofNat_toNat]

/-- **One trailer is accepted.** -/
theorem openFrame_on (checksum : Bytes → UInt32) {body t : Bytes} (hb : body.length ≤ maxBody)
    (ht : t.length = 8) : openFrame checksum .on (body ++ t) =
      if t = trailer (checksum body) then .ok body else .error .crc := by
  have hlen : (body ++ t).length = body.length + 8 := by rw [List.length_append, ht]
  have hsub : (body ++ t).length - trailerBytes = body.length := by rw [hlen]; rfl
  unfold openFrame
  rw [if_neg (by rw [hlen]; unfold extra trailerBytes; simp; omega), if_neg (by decide),
    if_neg (by rw [hlen]; unfold trailerBytes; omega)]
  simp only [hsub, List.take_left, List.drop_left]
  by_cases he : t = trailer (checksum body)
  · rw [(parseTrailer_iff ht _).2 he, if_pos he]
    simp
  · rw [if_neg he]
    split
    · rfl
    · rename_i expected hp
      refine if_pos fun h => he ?_
      rw [h]
      exact (parseTrailer_iff ht _).1 hp

/-! ## The checksum as a register -/

/-- The Castagnoli polynomial, reflected. -/
def castagnoli : BitVec 32 := 0x82F63B78#32

/-- The bits of a byte, least significant first. -/
def byteBits (b : UInt8) : List Bool := (List.range 8).map fun i => b.toNat.testBit i

def bits (data : Bytes) : List Bool := data.flatMap byteBits

@[simp] theorem bits_length (data : Bytes) : (bits data).length = 8 * data.length := by
  induction data with
  | nil => rfl
  | cons b data ih =>
    have h8 : (byteBits b).length = 8 := by simp [byteBits]
    rw [bits, List.flatMap_cons, List.length_append, h8, List.length_cons]
    rw [bits] at ih
    omega

theorem ofBits_byteBits (b : UInt8) : (Crc.ofBits (byteBits b) : BitVec 32).toNat = b.toNat := by
  refine Nat.eq_of_testBit_eq fun i => ?_
  rw [← BitVec.getLsbD, Crc.getLsbD_ofBits, List.getD_eq_getElem?_getD, byteBits, List.getElem?_map]
  by_cases hi : i < 8
  · rw [List.getElem?_range hi]
    simp
    omega
  · have hb : b.toNat < 2 ^ i := Nat.lt_of_lt_of_le b.toNat_lt (Nat.pow_le_pow_right (by decide) (by omega))
    rw [List.getElem?_eq_none (by simp; omega), Nat.testBit_lt_two_pow hb]
    simp

theorem pyShift_eq (v : BitVec 32) : pyShift v.toNat = (Crc.step castagnoli v).toNat := by
  have hlow : (v.toNat &&& 1 ≠ 0) ↔ v.getLsbD 0 = true := by
    rw [Nat.and_one_is_mod, BitVec.getLsbD, Nat.testBit_zero, decide_eq_true_eq]
    omega
  unfold pyShift Crc.step
  by_cases h : v.getLsbD 0 = true
  · rw [if_pos (hlow.2 h), if_pos h, BitVec.toNat_xor, BitVec.toNat_ushiftRight]
    rfl
  · rw [if_neg (fun e => h (hlow.1 e)), if_neg h, BitVec.toNat_ushiftRight, Nat.xor_zero]

theorem pyShift_fold {α : Type} (l : List α) (v : BitVec 32) :
    l.foldl (fun value _ => pyShift value) v.toNat = (Crc.steps castagnoli l.length v).toNat := by
  induction l generalizing v with
  | nil => rfl
  | cons a l ih => rw [List.foldl_cons, pyShift_eq, ih]; rfl

theorem pyByte_eq (v : BitVec 32) (b : UInt8) :
    pyByte v.toNat b = (Crc.feed castagnoli v (byteBits b)).toNat := by
  have h8 : (byteBits b).length = 8 := by simp [byteBits]
  rw [Crc.feed_ofBits castagnoli v (by omega), h8, pyByte, ← ofBits_byteBits, ← BitVec.toNat_xor,
    pyShift_fold, List.length_range]

/-- The reference, one bit at a time. -/
theorem pyChecksum_eq (data : Bytes) : pyChecksum data =
    (Crc.feed castagnoli (BitVec.allOnes 32) (bits data) ^^^ BitVec.allOnes 32).toNat := by
  have key : ∀ v : BitVec 32, data.foldl pyByte v.toNat = (Crc.feed castagnoli v (bits data)).toNat := by
    induction data with
    | nil => intro v; rfl
    | cons b data ih =>
      intro v
      rw [List.foldl_cons, pyByte_eq, ih, ← Crc.feed_append]
      rfl
  rw [BitVec.toNat_xor, ← key]
  rfl

theorem pyChecksum_lt (data : Bytes) : pyChecksum data < 2 ^ 32 := by
  rw [pyChecksum_eq]; exact BitVec.isLt _

/-! ## Damaged bodies -/

/-- The error pattern between two bodies: a one for each flipped bit. -/
def errors (body body' : Bytes) : List Bool := List.zipWith xor (bits body) (bits body')

/-- The register does not come back to one in a body's length. -/
theorem castagnoli_order :
    Crc.avoids castagnoli (Crc.bit true) (8 * maxBody) (Crc.step castagnoli (Crc.bit true)) = true := by
  decide +kernel

/-- Error patterns that reach the checksum. -/
theorem pyChecksum_ne {body body' : Bytes} (hl : body'.length = body.length)
    (h : Crc.feed castagnoli 0#32 (errors body body') ≠ 0#32) : pyChecksum body ≠ pyChecksum body' := by
  rw [pyChecksum_eq, pyChecksum_eq]
  intro he
  refine Crc.feed_ne (a := bits body) (b := bits body') (by simp [hl]) (BitVec.allOnes 32) h ?_
  exact (BitVec.xor_left_inj _).1 (BitVec.eq_of_toNat_eq he)

theorem errors_few {body body' : Bytes} (hb : body.length ≤ maxBody)
    (h : 1 ≤ (errors body body').count true ∧ (errors body body').count true ≤ 3) :
    Crc.feed castagnoli 0#32 (errors body body') ≠ 0#32 := by
  have hodd : Crc.parity castagnoli = true := by decide
  have htop : castagnoli.getLsbD (32 - 1) = true := by decide
  by_cases h2 : (errors body body').count true = 2
  · have hlen : (errors body body').length ≤ 8 * maxBody := by
      unfold errors
      rw [List.length_zipWith, bits_length]
      omega
    exact Crc.feed_two htop castagnoli_order hlen h2
  · exact Crc.feed_odd hodd (by decide) (by omega)

/-- What the trailer of the datagram `f` does for `body`. -/
structure Protected (checksum : Bytes → UInt32) (body f : Bytes) : Prop where
  opens : openFrame checksum .on f = .ok body
  /-- No other trailer. -/
  trailers : ∀ t, t.length = 8 → body ++ t ≠ f → openFrame checksum .on (body ++ t) = .error .crc
  unique : ∀ t, t.length = 8 → ((∃ b, openFrame checksum .on (body ++ t) = .ok b) ↔ body ++ t = f)
  /-- One to three flipped bits. -/
  flips : ∀ body', body'.length = body.length →
    1 ≤ (errors body body').count true ∧ (errors body body').count true ≤ 3 →
    openFrame checksum .on (body' ++ f.drop body.length) = .error .crc
  /-- Errors within 32 consecutive bits. -/
  bursts : ∀ body', body'.length = body.length → true ∈ errors body body' →
    (∀ i j, (errors body body')[i]? = some true → (errors body body')[j]? = some true → j < i + 32) →
    openFrame checksum .on (body' ++ f.drop body.length) = .error .crc

/-- A body before its own trailer is protected. -/
theorem Protected.of_trailer (checksum : Bytes → UInt32)
    (hcrc : ∀ body, (checksum body).toNat = pyChecksum body) {body : Bytes}
    (hb : body.length ≤ maxBody) : Protected checksum body (body ++ trailer (checksum body)) := by
  have hopen : ∀ t, t.length = 8 → openFrame checksum .on (body ++ t) =
      if body ++ t = body ++ trailer (checksum body) then .ok body else .error .crc := by
    intro t ht
    rw [openFrame_on checksum hb ht]
    simp only [List.append_cancel_left_eq]
  have hdamaged : ∀ body', body'.length = body.length →
      Crc.feed castagnoli 0#32 (errors body body') ≠ 0#32 →
      openFrame checksum .on (body' ++ (body ++ trailer (checksum body)).drop body.length) =
        .error .crc := by
    intro body' hl hne
    rw [List.drop_left, openFrame_on checksum (by omega) (trailer_length _), if_neg]
    intro he
    have hval : checksum body = checksum body' := by
      have h1 := (parseTrailer_iff (trailer_length (checksum body)) _).2 rfl
      have h2 := (parseTrailer_iff (trailer_length (checksum body)) _).2 he
      exact Option.some.inj (h1.symm.trans h2)
    refine pyChecksum_ne hl hne ?_
    rw [← hcrc, ← hcrc, hval]
  refine ⟨?_, ?_, ?_, ?_, ?_⟩
  · rw [hopen _ (trailer_length _), if_pos rfl]
  · intro t ht hne
    rw [hopen t ht, if_neg hne]
  · intro t ht
    rw [hopen t ht]
    by_cases h : body ++ t = body ++ trailer (checksum body)
    · rw [if_pos h]; exact ⟨fun _ => h, fun _ => ⟨body, rfl⟩⟩
    · rw [if_neg h]; exact ⟨(fun ⟨_, hb⟩ => by cases hb), fun hb => absurd hb h⟩
  · intro body' hl hcount
    exact hdamaged body' hl (errors_few hb hcount)
  · intro body' hl hmem hburst
    exact hdamaged body' hl (Crc.feed_burst (by decide) hmem hburst)

theorem sealFrame_on (checksum : Bytes → UInt32) {buffer : Bytes} {bodyLen : Nat}
    (hb : bodyLen ≤ maxBody) (hspace : bodyLen + 8 ≤ buffer.length) :
    ∃ out, sealFrame checksum .on buffer bodyLen = .ok (out, bodyLen + 8) ∧
      out.take (bodyLen + 8) = buffer.take bodyLen ++ trailer (checksum (buffer.take bodyLen)) := by
  have hlen : (buffer.take bodyLen ++ trailer (checksum (buffer.take bodyLen))).length = bodyLen + 8 := by
    rw [List.length_append, trailer_length, List.length_take]; omega
  refine ⟨buffer.take bodyLen ++ trailer (checksum (buffer.take bodyLen)) ++
    buffer.drop (bodyLen + trailerBytes), ?_, List.take_left' hlen⟩
  unfold sealFrame
  rw [if_neg (by unfold extra trailerBytes; simp; omega), if_pos rfl]
  rfl

/-- The frame stays in its buffer. -/
theorem sealFrame_length {checksum : Bytes → UInt32} {mode : CrcMode} {buffer out : Bytes} {bodyLen n : Nat}
    (h : sealFrame checksum mode buffer bodyLen = .ok (out, n)) : out.length = buffer.length := by
  unfold sealFrame at h
  split at h
  · cases h
  rename_i hfits
  split at h
  · rename_i hmode
    subst hmode
    have hspace : ¬ buffer.length < bodyLen + 8 := fun hlt => hfits (.inr hlt)
    cases h
    simp only [List.length_append, List.length_take, List.length_drop, trailer_length, trailerBytes]
    omega
  · cases h
    rfl

/-- In both modes what was sealed opens, whatever the checksum is. -/
theorem openFrame_sealFrame (checksum : Bytes → UInt32) (mode : CrcMode) {buffer : Bytes} {bodyLen : Nat}
    (hb : bodyLen ≤ maxBody) (hspace : bodyLen + extra mode ≤ buffer.length) :
    ∃ out, sealFrame checksum mode buffer bodyLen = .ok (out, bodyLen + extra mode) ∧
      out.take bodyLen = buffer.take bodyLen ∧
      openFrame checksum mode (out.take (bodyLen + extra mode)) = .ok (buffer.take bodyLen) := by
  have hlen : (buffer.take bodyLen).length = bodyLen := by rw [List.length_take]; omega
  cases mode with
  | on =>
    obtain ⟨out, hout, htake⟩ := sealFrame_on checksum hb hspace
    have hbody : out.take bodyLen = (out.take (bodyLen + 8)).take bodyLen := by
      rw [List.take_take, Nat.min_eq_left (Nat.le_add_right _ _)]
    refine ⟨out, hout, by rw [hbody, htake, List.take_left' hlen], ?_⟩
    rw [show bodyLen + extra .on = bodyLen + 8 from rfl, htake,
      openFrame_on checksum (by omega) (trailer_length _), if_pos rfl]
  | off =>
    have hextra : bodyLen + extra .off = bodyLen := rfl
    rw [hextra] at hspace ⊢
    refine ⟨buffer, ?_, rfl, ?_⟩
    · unfold sealFrame
      rw [hextra, if_neg (by omega), if_neg (by decide)]
    · unfold openFrame
      rw [if_neg (by rw [hlen]; exact Nat.not_lt.2 hb), if_pos rfl]

/-- **CRC protection.** With a checksum that agrees with the reference, a sealed
datagram opens to its body, and a datagram of the same length with another
trailer, with one to three flipped bits in the body, or with a burst of errors
within 32 consecutive bits of the body is a CRC error. -/
theorem crc_protects (checksum : Bytes → UInt32)
    (hcrc : ∀ body, (checksum body).toNat = pyChecksum body) (buffer : Bytes) (bodyLen : Nat)
    (hb : bodyLen ≤ maxBody) (hspace : bodyLen + 8 ≤ buffer.length) :
    ∃ out, sealFrame checksum .on buffer bodyLen = .ok (out, bodyLen + 8) ∧
      Protected checksum (buffer.take bodyLen) (out.take (bodyLen + 8)) := by
  obtain ⟨out, hout, htake⟩ := sealFrame_on checksum hb hspace
  refine ⟨out, hout, ?_⟩
  rw [htake]
  exact .of_trailer checksum hcrc (by rw [List.length_take]; omega)

/-- The reference as a checksum of its own. -/
def referenceChecksum (data : Bytes) : UInt32 := UInt32.ofNat (pyChecksum data)

theorem referenceChecksum_eq (data : Bytes) : (referenceChecksum data).toNat = pyChecksum data := by
  rw [referenceChecksum, toNat_ofNat32]
  exact Nat.mod_eq_of_lt (pyChecksum_lt data)

theorem crc_protects_vector :
    let buffer := ascii "123456789........"
    trailer (referenceChecksum (ascii "123456789")) = ascii "E3069283" ∧
    ∃ out, sealFrame referenceChecksum .on buffer 9 = .ok (out, 17) ∧
      Protected referenceChecksum (buffer.take 9) (out.take 17) :=
  ⟨by decide +kernel, crc_protects referenceChecksum referenceChecksum_eq (ascii "123456789........") 9
    (by decide) (by decide)⟩

end Nucleo.Framing
