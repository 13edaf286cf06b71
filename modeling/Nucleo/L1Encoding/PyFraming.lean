import Mathlib.Data.Nat.Digits.Lemmas
import Nucleo.L1Encoding.Framing

/-!
# Datagram framing in Python

`pySeal` and `pyOpen` are `seal` and `open_frame` of `framing.py`. Where the
firmware shifts nibbles out of the checksum and into it again, Python formats
it with `08X` and reads it back with `int`.

Results:
* `pyFormat_eq`: eight formatted digits are the firmware's trailer.
* `pyOpen_eq`: both sides open every datagram alike.
* `framings_agree`: opening, sealing and each side's frames on the other.
-/
namespace Nucleo.Framing

/-! ## `framing.py` -/

/-- `f"{value:X}"`. -/
def pyHex (value : Nat) : Bytes :=
  if value = 0 then [48] else ((Nat.digits 16 value).map fun d => hex.getD d 0).reverse

/-- `f"{value:08X}"`. -/
def pyFormat (value : Nat) : Bytes :=
  List.replicate (8 - (pyHex value).length) 48 ++ pyHex value

/-- `int(trailer, 16)` of upper-case digits. -/
def pyInt (trailer : Bytes) : Nat := trailer.foldl (fun value c => value * 16 + hex.idxOf c) 0

/-- mirrors Rust/tools/message-demo/python/framing.py:19-24 -/
def pySeal (mode : CrcMode) (body : Bytes) : Except CodecError Bytes :=
  if maxBody < body.length then .error .size
  else .ok (body ++ if mode = .on then pyFormat (pyChecksum body) else [])

/-- mirrors Rust/tools/message-demo/python/framing.py:27-39 -/
def pyOpen (mode : CrcMode) (data : Bytes) : Except CodecError Bytes :=
  if maxBody + (if mode = .on then 8 else 0) < data.length then .error .size
  else if mode = .off then .ok data
  else
    let last := data.drop (data.length - 8)
    if data.length < 8 ∨ last.any (fun c => !hex.contains c) then .error .crc
    else
      let body := data.take (data.length - 8)
      if pyChecksum body ≠ pyInt last then .error .crc else .ok body

/-! ## Formatting -/

/-- The last digit is the remainder. -/
theorem digits_snoc (n v : Nat) : digits (n + 1) v = digits n (v / 16) ++ [hex.getD (v % 16) 0] := by
  induction n with
  | zero => simp [digits]
  | succ n ih =>
    have hdiv : v / 16 ^ (n + 1) = v / 16 / 16 ^ n := by
      rw [Nat.div_div_eq_div_mul, Nat.pow_succ, Nat.mul_comm (16 ^ n)]
    rw [digits, ih, digits, hdiv, List.cons_append]

theorem digits_zero (n : Nat) : digits n 0 = List.replicate n 48 := by
  induction n with
  | zero => rfl
  | succ n ih =>
    rw [digits, ih, List.replicate_succ, Nat.zero_div]
    rfl

/-- Formatted digits, padded to a width that holds the number. -/
theorem digits_pad {n v : Nat} (h : v < 16 ^ n) :
    List.replicate (n - (Nat.digits 16 v).length) 48 ++
      ((Nat.digits 16 v).map fun d => hex.getD d 0).reverse = digits n v := by
  induction n generalizing v with
  | zero =>
    have hv : v = 0 := by omega
    subst hv
    simp [digits]
  | succ n ih =>
    by_cases hv : v = 0
    · subst hv
      simp [digits_zero]
    · have hlt : v / 16 < 16 ^ n := by
        rw [Nat.pow_succ] at h
        omega
      rw [Nat.digits_def' (by omega) (by omega), digits_snoc, ← ih hlt]
      simp [Nat.add_sub_add_right]

/-- **`08X` writes what the nibble shifts write.** -/
theorem pyFormat_eq {value : UInt32} : pyFormat value.toNat = trailer value := by
  have hlt : value.toNat < 16 ^ 8 := value.toNat_lt
  rw [trailer_eq]
  unfold pyFormat pyHex
  split
  · rename_i hzero
    rw [hzero, digits_zero]
    rfl
  · rw [← digits_pad hlt]
    simp

/-! ## Reading -/

theorem digit_isSome (b : UInt8) : (digit b).isSome = hex.contains b := by
  have key : ∀ k < 256, (digit (UInt8.ofNat k)).isSome = hex.contains (UInt8.ofNat k) := by
    decide +kernel
  have := key b.toNat b.toNat_lt
  rwa [UInt8.ofNat_toNat] at this

theorem idxOf_hex : ∀ n < 16, hex.idxOf (hex.getD n 0) = n := by decide

theorem hex_of_digit {b : UInt8} {x : UInt32} (h : digit b = some x) : hex.idxOf b = x.toNat := by
  obtain ⟨hlt, rfl⟩ := digit_some h
  exact idxOf_hex _ hlt

/-- The two readers accept the same trailers. -/
theorem parseTrailer_isSome (t : Bytes) (acc : UInt32) :
    (parseTrailer acc t).isSome = !t.any fun c => !hex.contains c := by
  induction t generalizing acc with
  | nil => rfl
  | cons b t ih =>
    have hb := digit_isSome b
    rw [parseTrailer, List.any_cons, ← hb]
    cases digit b with
    | none => rfl
    | some x => simpa using ih _

/-- And read the same number. -/
theorem parseTrailer_fold {t : Bytes} {acc r : UInt32} (h : parseTrailer acc t = some r)
    (hacc : (acc.toNat + 1) * 16 ^ t.length ≤ 2 ^ 32) :
    t.foldl (fun value c => value * 16 + hex.idxOf c) acc.toNat = r.toNat := by
  induction t generalizing acc with
  | nil => cases h; rfl
  | cons b t ih =>
    rw [parseTrailer] at h
    split at h
    · cases h
    · rename_i x hx
      obtain ⟨hlt, -⟩ := digit_some hx
      have hpos : 1 ≤ 16 ^ t.length := Nat.one_le_pow _ _ (by omega)
      have hpow : (acc.toNat + 1) * 16 * 16 ^ t.length ≤ 2 ^ 32 := by
        rwa [List.length_cons, Nat.pow_succ, Nat.mul_comm (16 ^ _), ← Nat.mul_assoc] at hacc
      have hsmall : acc.toNat < 2 ^ 28 := by
        have := Nat.le_trans (Nat.le_mul_of_pos_right ((acc.toNat + 1) * 16) hpos) hpow
        omega
      have hpush := toNat_push acc x hlt hsmall
      have hnext : (((acc <<< 4) ||| x).toNat + 1) * 16 ^ t.length ≤ 2 ^ 32 := by
        refine Nat.le_trans (Nat.mul_le_mul_right _ ?_) hpow
        omega
      rw [List.foldl_cons, ← ih h hnext, hpush, hex_of_digit hx]

/-- The trailer test of either side. -/
theorem trailer_test (body t : Bytes) (checksum : Bytes → UInt32) (ht : t.length = 8)
    (hcrc : ∀ data, (checksum data).toNat = pyChecksum data) :
    (match parseTrailer 0 t with
      | none => Except.error CodecError.crc
      | some expected => if checksum body ≠ expected then .error .crc else .ok body) =
    if t.any (fun c => !hex.contains c) then .error .crc
    else if pyChecksum body ≠ pyInt t then .error .crc else .ok body := by
  have hsome := parseTrailer_isSome t 0
  cases hp : parseTrailer 0 t with
  | none =>
    rw [hp] at hsome
    have hany : t.any (fun c => !hex.contains c) = true := by simpa using hsome.symm
    rw [if_pos hany]
  | some expected =>
    rw [hp] at hsome
    have hany : ¬ t.any (fun c => !hex.contains c) = true := by simpa using hsome.symm
    have hfold := parseTrailer_fold hp (by rw [ht]; decide)
    have hint : pyInt t = expected.toNat := hfold
    rw [if_neg hany, hint, ← hcrc]
    simp only [ne_eq, UInt32.toNat_inj]

/-- **Both sides open every datagram alike.** -/
theorem pyOpen_eq (checksum : Bytes → UInt32)
    (hcrc : ∀ data, (checksum data).toNat = pyChecksum data) (mode : CrcMode) (data : Bytes) :
    openFrame checksum mode data = pyOpen mode data := by
  unfold openFrame pyOpen extra trailerBytes
  by_cases hsize : maxBody + (if mode = .on then 8 else 0) < data.length
  · rw [if_pos hsize, if_pos hsize]
  rw [if_neg hsize, if_neg hsize]
  by_cases hoff : mode = .off
  · rw [if_pos hoff, if_pos hoff]
  rw [if_neg hoff, if_neg hoff]
  by_cases hshort : data.length < 8
  · simp [hshort]
  have hlast : (data.drop (data.length - 8)).length = 8 := by
    rw [List.length_drop]
    omega
  simp only [hshort, if_false, false_or]
  exact trailer_test _ _ checksum hlast hcrc

/-! ## Sealing -/

theorem pyOpen_error {mode : CrcMode} {data : Bytes} (h : maxBody + extra mode < data.length) :
    pyOpen mode data = .error .size := if_pos h

/-- What Python seals is what the firmware leaves in the buffer. -/
theorem sealFrame_eq (checksum : Bytes → UInt32)
    (hcrc : ∀ data, (checksum data).toNat = pyChecksum data) (mode : CrcMode) {buffer : Bytes}
    {bodyLen : Nat} (hspace : bodyLen + extra mode ≤ buffer.length) :
    (sealFrame checksum mode buffer bodyLen).map (fun r => r.1.take r.2) =
      pySeal mode (buffer.take bodyLen) := by
  have hlen : (buffer.take bodyLen).length = bodyLen := by
    rw [List.length_take]
    omega
  unfold pySeal
  rw [hlen]
  by_cases hsize : maxBody < bodyLen
  · rw [if_pos hsize]
    unfold sealFrame
    rw [if_pos (.inl hsize)]
    rfl
  · rw [if_neg hsize]
    cases mode with
    | on =>
      obtain ⟨out, hout, htake⟩ := sealFrame_on checksum (Nat.not_lt.1 hsize) hspace
      have hformat : pyFormat (pyChecksum (buffer.take bodyLen)) = trailer (checksum (buffer.take bodyLen)) := by
        rw [← hcrc, pyFormat_eq]
      rw [hout, hformat]
      exact congrArg Except.ok htake
    | off =>
      have hoff : sealFrame checksum .off buffer bodyLen = .ok (buffer, bodyLen) := by
        have hextra : bodyLen + extra .off = bodyLen := rfl
        unfold sealFrame
        rw [hextra] at hspace ⊢
        rw [if_neg (by omega), if_neg (by decide)]
      rw [hoff]
      simp [Except.map]

/-- What Python sealed, the firmware opens. -/
theorem openFrame_pySeal (checksum : Bytes → UInt32)
    (hcrc : ∀ data, (checksum data).toNat = pyChecksum data) {mode : CrcMode} {body out : Bytes}
    (h : pySeal mode body = .ok out) : openFrame checksum mode out = .ok body := by
  have hspace : body.length + extra mode ≤ (body ++ List.replicate (extra mode) 0).length := by simp
  have hbody : (body ++ List.replicate (extra mode) 0).take body.length = body := List.take_left
  have hsize : body.length ≤ maxBody := by
    unfold pySeal at h
    split at h
    · cases h
    · omega
  obtain ⟨buffer, hout, -, hopen⟩ := openFrame_sealFrame checksum mode hsize hspace
  have heq := sealFrame_eq checksum hcrc mode hspace
  rw [hbody] at hopen heq
  rw [hout, h] at heq
  have : buffer.take (body.length + extra mode) = out := Except.ok.inj heq
  rwa [this] at hopen

/-- What the firmware sealed, Python opens. -/
theorem pyOpen_sealFrame (checksum : Bytes → UInt32)
    (hcrc : ∀ data, (checksum data).toNat = pyChecksum data) {mode : CrcMode} {buffer out : Bytes}
    {bodyLen n : Nat} (h : sealFrame checksum mode buffer bodyLen = .ok (out, n)) :
    pyOpen mode (out.take n) = .ok (buffer.take bodyLen) := by
  have hlimits : bodyLen ≤ maxBody ∧ bodyLen + extra mode ≤ buffer.length := by
    unfold sealFrame at h
    split at h
    · cases h
    · omega
  obtain ⟨out', hout, -, hopen⟩ := openFrame_sealFrame checksum mode hlimits.1 hlimits.2
  rw [h] at hout
  cases hout
  rwa [pyOpen_eq checksum hcrc] at hopen

/-! ## Agreement -/

/-- Both framing layers on every input. -/
structure FramingsAgree (checksum : Bytes → UInt32) : Prop where
  opens : ∀ mode data, openFrame checksum mode data = pyOpen mode data
  /-- Before any CRC work. -/
  size : ∀ mode data, maxBody + extra mode < data.length → openFrame checksum mode data = .error .size
  short : ∀ data, data.length < 8 → openFrame checksum .on data = .error .crc
  /-- A trailer byte that is no upper-case digit. -/
  digits : ∀ body t, body.length ≤ maxBody → t.length = 8 → (∃ b ∈ t, b ∉ hex) →
    openFrame checksum .on (body ++ t) = .error .crc
  empty : ∀ mode, ∃ out, pySeal mode [] = .ok out ∧ openFrame checksum mode out = .ok []
  seals : ∀ mode buffer bodyLen, bodyLen + extra mode ≤ buffer.length →
    (sealFrame checksum mode buffer bodyLen).map (fun r => r.1.take r.2) = pySeal mode (buffer.take bodyLen)
  /-- The one failure of sealing. -/
  oversize : ∀ mode body, (maxBody < body.length → pySeal mode body = .error .size) ∧
    (body.length ≤ maxBody → ∃ out, pySeal mode body = .ok out)
  firmware : ∀ mode body out, pySeal mode body = .ok out → openFrame checksum mode out = .ok body
  python : ∀ mode buffer bodyLen out n, sealFrame checksum mode buffer bodyLen = .ok (out, n) →
    pyOpen mode (out.take n) = .ok (buffer.take bodyLen)

theorem openFrame_short (checksum : Bytes → UInt32) {data : Bytes} (h : data.length < 8) :
    openFrame checksum .on data = .error .crc := by
  have hmax : ¬ maxBody + extra .on < data.length := by
    have : maxBody = 1016 := rfl
    omega
  unfold openFrame
  rw [if_neg hmax, if_neg (by decide)]
  exact if_pos h

/-- A trailer with a byte that is no digit is not the checksum's. -/
theorem openFrame_digits (checksum : Bytes → UInt32) {body t : Bytes} (hb : body.length ≤ maxBody)
    (ht : t.length = 8) (h : ∃ b ∈ t, b ∉ hex) : openFrame checksum .on (body ++ t) = .error .crc := by
  obtain ⟨b, hmem, hno⟩ := h
  rw [openFrame_on checksum hb ht, if_neg]
  intro he
  have hsome := parseTrailer_isSome t 0
  rw [(parseTrailer_iff ht _).2 he] at hsome
  have hall : ∀ c ∈ t, c ∈ hex := by simpa using hsome
  exact hno (hall b hmem)

/-- **The framing layers agree.** With a checksum that agrees with the reference,
the firmware and Python open every datagram alike and seal every body alike, and
each opens what the other sealed. -/
theorem framings_agree (checksum : Bytes → UInt32)
    (hcrc : ∀ data, (checksum data).toNat = pyChecksum data) : FramingsAgree checksum where
  opens := pyOpen_eq checksum hcrc
  size := by
    intro mode data h
    rw [pyOpen_eq checksum hcrc, pyOpen_error h]
  short := fun _ => openFrame_short checksum
  digits := fun _ _ => openFrame_digits checksum
  empty := by
    intro mode
    exact ⟨_, rfl, @openFrame_pySeal checksum hcrc mode [] _ rfl⟩
  seals := fun mode _ _ => sealFrame_eq checksum hcrc mode
  oversize := by
    intro mode body
    refine ⟨fun h => if_pos h, fun h => ⟨_, if_neg (Nat.not_lt.2 h)⟩⟩
  firmware := fun _ _ _ => openFrame_pySeal checksum hcrc
  python := fun _ _ _ _ _ => pyOpen_sealFrame checksum hcrc

theorem framings_agree_reference :
    pyFormat (pyChecksum (ascii "123456789")) = ascii "E3069283" ∧ FramingsAgree referenceChecksum :=
  ⟨by decide +kernel, framings_agree referenceChecksum referenceChecksum_eq⟩

end Nucleo.Framing
