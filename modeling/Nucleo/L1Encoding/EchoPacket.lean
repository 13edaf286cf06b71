import Nucleo.L1Encoding.Types
import Nucleo.Core.Endian

/-!
# Datagrams of the UDP benchmark

The host tool sends datagrams with a 32-byte header and a payload computed
from run and sequence, and the board echoes them. `receive` is what the
receiver of a load decides about one datagram before it looks at any state.

Results:
* `receive_encode`: an unaltered echo is taken for its own sequence.
* `receive_echo`: what is taken for a sequence is the packet of that sequence
  except for byte 5 and the eight timestamp bytes, which nothing compares.
* `receive_echo_iff`: so it is the packet that was sent exactly when these nine
  bytes are.
-/
namespace Nucleo.Echo
open Endian

/-! ## `protocol.rs` -/

def headerLen : Nat := 32

/-- `MAGIC`. -/
def magic : Bytes := ascii "NUBE"

/-- `VERSION`. -/
def version : UInt8 := 1

/-- mirrors Rust/tools/udp-benchmark/src/protocol.rs:11-16 -/
structure Header where
  run_id : UInt64
  sequence : UInt64
  sent_ns : UInt64
  deriving DecidableEq, Repr

/-- `u64::rotate_left(17)`. -/
def rotateLeft17 (v : UInt64) : UInt64 := (v <<< 17) ||| (v >>> 47)

/-- mirrors Rust/tools/udp-benchmark/src/protocol.rs:72-80 -/
def patternByte (run_id sequence : UInt64) (index : Nat) : UInt8 :=
  let value := run_id ^^^ rotateLeft17 sequence ^^^ (UInt64.ofNat index * 0x9e3779b97f4a7c15)
  let value := value ^^^ (value >>> 30)
  let value := value * 0xbf58476d1ce4e5b9
  let value := value ^^^ (value >>> 27)
  let value := value * 0x94d049bb133111eb
  (value ^^^ (value >>> 31)).toUInt8

/-- The bytes `pattern_byte` gives from `index` on. -/
def payload (header : Header) (len : Nat) : Bytes :=
  (List.range len).map (patternByte header.run_id header.sequence)

/-- `packet[0..HEADER_LEN]`, with the value of the reserved byte 5. -/
def headerBytes (reserved : UInt8) (header : Header) : Bytes :=
  magic ++ ([version] ++ ([reserved] ++ (toBE 2 headerLen ++ (toBE 8 header.run_id.toNat ++
    (toBE 8 header.sequence.toNat ++ toBE 8 header.sent_ns.toNat)))))

/-- mirrors Rust/tools/udp-benchmark/src/protocol.rs:19-39 -/
def encode (size : Nat) (header : Header) : Except String Bytes :=
  if size < headerLen then .error "instrumented packets require at least 32 bytes"
  else .ok (headerBytes 0 header ++ payload header (size - headerLen))

/-- `u64::from_be_bytes(packet[from..from + 8])`. -/
def u64At (packet : Bytes) (start : Nat) : UInt64 :=
  UInt64.ofNat (ofBE (packet.extract start (start + 8)))

/-- mirrors Rust/tools/udp-benchmark/src/protocol.rs:42-61 -/
def decode (packet : Bytes) : Except String Header :=
  if packet.length < headerLen then .error "packet is shorter than the benchmark header"
  else if packet.extract 0 4 ≠ magic then .error "wrong benchmark magic"
  else if packet.getD 4 0 ≠ version then .error "unsupported benchmark protocol version"
  else if ofBE (packet.extract 6 8) ≠ headerLen then .error "wrong benchmark header length"
  else .ok { run_id := u64At packet 8, sequence := u64At packet 16, sent_ns := u64At packet 24 }

/-- mirrors Rust/tools/udp-benchmark/src/protocol.rs:64-69 -/
def validatePayload (packet : Bytes) (header : Header) : Bool :=
  (packet.drop headerLen).zipIdx.all fun (byte, index) =>
    byte == patternByte header.run_id header.sequence index

/-! ## The receiver -/

/-- What the receiver makes of one datagram; `echo` goes on to the state of
its sequence. -/
inductive Judgement
  | corrupt
  | foreign
  | echo (index : Nat)
  deriving DecidableEq, Repr

/-- mirrors Rust/tools/udp-benchmark/src/runner.rs:546-563 -/
def receive (run_id : UInt64) (sizes : List UInt16) (packet : Bytes) : Judgement :=
  match decode packet with
  | .error _ => .corrupt
  | .ok header =>
    if header.run_id ≠ run_id ∨ sizes.length ≤ header.sequence.toNat then .foreign
    else
      let index := header.sequence.toNat
      if packet.length ≠ (sizes.getD index 0).toNat ∨ validatePayload packet header = false then
        .corrupt
      else .echo index

/-! ## What the checks pin down -/

@[simp] theorem headerBytes_length (reserved : UInt8) (header : Header) :
    (headerBytes reserved header).length = headerLen := by
  simp [headerBytes, magic, ascii, headerLen]

@[simp] theorem payload_length (header : Header) (len : Nat) : (payload header len).length = len := by
  simp [payload]

theorem encode_ok {size : Nat} {header : Header} (h : headerLen ≤ size) :
    encode size header = .ok (headerBytes 0 header ++ payload header (size - headerLen)) :=
  if_neg (Nat.not_lt.2 h)

theorem encode_length {size : Nat} {header : Header} {packet : Bytes}
    (h : encode size header = .ok packet) : packet.length = size := by
  unfold encode at h
  split at h
  · cases h
  · rename_i hs
    cases h
    rw [List.length_append, headerBytes_length, payload_length]
    omega

theorem validatePayload_iff (packet : Bytes) (header : Header) :
    validatePayload packet header = true ↔
      packet.drop headerLen = payload header (packet.length - headerLen) := by
  unfold validatePayload payload
  rw [List.all_eq_true]
  constructor
  · intro h
    refine List.ext_getElem (by simp) fun i hi _ => ?_
    have hmem : ((packet.drop headerLen)[i], i) ∈ (packet.drop headerLen).zipIdx := by
      rw [List.mem_zipIdx_iff_getElem?]
      exact List.getElem?_eq_getElem hi
    simpa using h _ hmem
  · intro h e he
    rw [h, List.mem_zipIdx_iff_getElem?, List.getElem?_map] at he
    obtain ⟨i, hi, hb⟩ := Option.map_eq_some_iff.1 he
    rw [List.getElem?_range (by
      have := (List.getElem?_eq_some_iff.1 hi).1
      rwa [List.length_range] at this)] at hi
    cases hi
    simp [← hb]

theorem u64At_toNat (packet : Bytes) {start : Nat} (h : start + 8 ≤ packet.length) :
    (u64At packet start).toNat = ofBE (packet.extract start (start + 8)) := by
  have hlen : (packet.extract start (start + 8)).length = 8 := by
    simp [List.extract_eq_take_drop]; omega
  have hlt := ofBE_lt (packet.extract start (start + 8))
  rw [hlen] at hlt
  rw [u64At, UInt64.toNat_ofNat', Nat.mod_eq_of_lt (by omega)]

theorem toBE_u64At (packet : Bytes) {start : Nat} (h : start + 8 ≤ packet.length) :
    toBE 8 (u64At packet start).toNat = packet.extract start (start + 8) := by
  have hlen : (packet.extract start (start + 8)).length = 8 := by
    simp [List.extract_eq_take_drop]; omega
  have hround := toBE_ofBE (packet.extract start (start + 8))
  rwa [hlen, ← u64At_toNat packet h] at hround

theorem extract_append {packet : Bytes} {i j k : Nat} (hij : i ≤ j) (hjk : j ≤ k) :
    packet.extract i j ++ packet.extract j k = packet.extract i k := by
  simp only [List.extract_eq_take_drop]
  have hk : k - i = (j - i) + (k - j) := by omega
  have hd : packet.drop j = (packet.drop i).drop (j - i) := by
    rw [List.drop_drop, Nat.add_sub_cancel' hij]
  rw [hk, List.take_add, hd]

theorem extract_one {packet : Bytes} {i : Nat} (h : i < packet.length) :
    packet.extract i (i + 1) = [packet.getD i 0] := by
  rw [List.extract_eq_take_drop, Nat.add_sub_cancel_left, List.drop_eq_getElem_cons h,
    List.take_succ_cons, List.take_zero, List.getD_eq_getElem _ _ h]

/-- A field between what comes before and after it. -/
theorem extract_field {pre field post : Bytes} {i j : Nat} (hi : pre.length = i)
    (hj : i + field.length = j) : (pre ++ (field ++ post)).extract i j = field := by
  rw [List.extract_eq_take_drop, List.drop_left' hi, List.take_left' (by omega)]

/-- A packet cut at the fields of the header. -/
theorem packet_fields {packet : Bytes} (h : headerLen ≤ packet.length) :
    packet = packet.extract 0 4 ++ ([packet.getD 4 0] ++ ([packet.getD 5 0] ++
      (packet.extract 6 8 ++ (packet.extract 8 16 ++ (packet.extract 16 24 ++
        packet.extract 24 32))))) ++ packet.drop headerLen := by
  unfold headerLen at h ⊢
  rw [← extract_one (by omega), ← extract_one (by omega), extract_append (by omega) (by omega),
    extract_append (by omega) (by omega), extract_append (by omega) (by omega),
    extract_append (by omega) (by omega), extract_append (by omega) (by omega),
    extract_append (by omega) (by omega)]
  simp [List.extract_eq_take_drop]

/-- Every field of the header is where `decode` looks for it. -/
theorem headerBytes_fields (reserved : UInt8) (header : Header) (rest : Bytes) :
    let packet := headerBytes reserved header ++ rest
    packet.extract 0 4 = magic ∧ packet.getD 4 0 = version ∧ packet.getD 5 0 = reserved ∧
      packet.extract 6 8 = toBE 2 headerLen ∧ packet.extract 8 16 = toBE 8 header.run_id.toNat ∧
      packet.extract 16 24 = toBE 8 header.sequence.toNat ∧
      packet.extract 24 32 = toBE 8 header.sent_ns.toNat := by
  have field : ∀ (pre mid post : Bytes) {i j : Nat},
      headerBytes reserved header ++ rest = pre ++ (mid ++ post) → pre.length = i →
      i + mid.length = j → (headerBytes reserved header ++ rest).extract i j = mid := by
    intro pre mid post i j e hi hj
    rw [e, extract_field hi hj]
  have hmagic : magic.length = 4 := rfl
  refine ⟨rfl, rfl, rfl, rfl, ?_, ?_, ?_⟩
  · refine field (magic ++ [version] ++ [reserved] ++ toBE 2 headerLen) _
      (toBE 8 header.sequence.toNat ++ toBE 8 header.sent_ns.toNat ++ rest) ?_ ?_ ?_
    · simp only [headerBytes, List.append_assoc]
    · simp [hmagic]
    · simp
  · refine field (magic ++ [version] ++ [reserved] ++ toBE 2 headerLen ++
      toBE 8 header.run_id.toNat) _ (toBE 8 header.sent_ns.toNat ++ rest) ?_ ?_ ?_
    · simp only [headerBytes, List.append_assoc]
    · simp [hmagic]
    · simp
  · refine field (magic ++ [version] ++ [reserved] ++ toBE 2 headerLen ++
      toBE 8 header.run_id.toNat ++ toBE 8 header.sequence.toNat) _ rest ?_ ?_ ?_
    · simp only [headerBytes, List.append_assoc]
    · simp [hmagic]
    · simp

theorem ofNat_ofBE_toBE (v : UInt64) : UInt64.ofNat (ofBE (toBE 8 v.toNat)) = v := by
  rw [ofBE_toBE (by have := v.toNat_lt; omega), UInt64.ofNat_toNat]

theorem decode_headerBytes (reserved : UInt8) (header : Header) (rest : Bytes) :
    decode (headerBytes reserved header ++ rest) = .ok header := by
  obtain ⟨hmagic, hversion, -, hlen, hrun, hseq, hsent⟩ := headerBytes_fields reserved header rest
  have hnot : ¬ (headerBytes reserved header ++ rest).length < headerLen := by simp
  have h2 : ofBE (toBE 2 headerLen) = headerLen := ofBE_toBE (by decide)
  rw [decode, if_neg hnot, if_neg (not_not.2 hmagic), if_neg (not_not.2 hversion),
    if_neg (not_not.2 (by rw [hlen, h2]))]
  simp only [u64At, hrun, hseq, hsent, ofNat_ofBE_toBE]

/-- What `decode` accepts, byte for byte. -/
theorem decode_ok {packet : Bytes} {header : Header} (h : decode packet = .ok header) :
    headerLen ≤ packet.length ∧
      packet = headerBytes (packet.getD 5 0) header ++ packet.drop headerLen := by
  unfold decode at h
  split at h
  · cases h
  rename_i hlen
  split at h
  · cases h
  rename_i hmagic
  split at h
  · cases h
  rename_i hversion
  split at h
  · cases h
  rename_i hheader
  simp only [ne_eq, Decidable.not_not] at hmagic hversion hheader
  cases h
  have hlen : headerLen ≤ packet.length := Nat.not_lt.1 hlen
  have h32 : 32 ≤ packet.length := hlen
  have h6 : packet.extract 6 8 = toBE 2 headerLen := by
    have hl : (packet.extract 6 8).length = 2 := by simp [List.extract_eq_take_drop]; omega
    rw [← hheader, ← hl, toBE_ofBE]
  refine ⟨hlen, ?_⟩
  conv_lhs => rw [packet_fields hlen]
  rw [headerBytes, ← hmagic, ← hversion, ← h6, toBE_u64At packet (by omega),
    toBE_u64At packet (by omega), toBE_u64At packet (by omega)]

/-! ## Echoes -/

/-- The packet of sequence `index` as the sender stamps it. -/
def sentHeader (run_id : UInt64) (index : Nat) (sent_ns : UInt64) : Header :=
  { run_id, sequence := UInt64.ofNat index, sent_ns }

/-- What the receiver takes for a sequence: that packet, with any byte 5 and
any timestamp. -/
theorem receive_echo {run_id : UInt64} {sizes : List UInt16} {packet : Bytes} {index : Nat}
    (h : receive run_id sizes packet = .echo index) :
    ∃ sent_ns, index < sizes.length ∧ headerLen ≤ (sizes.getD index 0).toNat ∧
      packet = headerBytes (packet.getD 5 0) (sentHeader run_id index sent_ns) ++
        payload (sentHeader run_id index sent_ns) ((sizes.getD index 0).toNat - headerLen) := by
  unfold receive at h
  split at h
  · cases h
  rename_i header hdec
  split at h
  · cases h
  rename_i hours
  simp only at h
  split at h
  · cases h
  rename_i hbody
  cases h
  simp only [not_or, ne_eq, Decidable.not_not, Nat.not_le, Bool.not_eq_false] at hours hbody
  obtain ⟨hlen, hpacket⟩ := decode_ok hdec
  have hheader : sentHeader run_id header.sequence.toNat header.sent_ns = header := by
    rw [sentHeader, ← hours.1, UInt64.ofNat_toNat]
  refine ⟨header.sent_ns, hours.2, by omega, ?_⟩
  rw [hheader, ← hbody.1, ← (validatePayload_iff packet header).1 hbody.2]
  exact hpacket

/-- An unaltered echo is taken for its own sequence. -/
theorem receive_encode {run_id : UInt64} {sizes : List UInt16} {index : Nat} {sent_ns : UInt64}
    {packet : Bytes} (hi : index < sizes.length) (h64 : index < 2 ^ 64)
    (h : encode (sizes.getD index 0).toNat (sentHeader run_id index sent_ns) = .ok packet) :
    receive run_id sizes packet = .echo index := by
  have hlen := encode_length h
  unfold encode at h
  split at h
  · cases h
  rename_i hsize
  cases h
  have hseq : (sentHeader run_id index sent_ns).sequence.toNat = index := by
    rw [sentHeader, UInt64.toNat_ofNat', Nat.mod_eq_of_lt h64]
  rw [receive, decode_headerBytes]
  simp only [hseq]
  rw [if_neg (by simp [sentHeader, hi]), if_neg]
  simp only [not_or, ne_eq, Decidable.not_not, Bool.not_eq_false]
  refine ⟨hlen, (validatePayload_iff _ _).2 ?_⟩
  rw [hlen, List.drop_left' (headerBytes_length _ _)]

/-- An echo of another run is foreign. -/
theorem receive_other {run_id : UInt64} {sizes : List UInt16} {header : Header}
    {size : Nat} {packet : Bytes} (hne : header.run_id ≠ run_id) (h : encode size header = .ok packet) :
    receive run_id sizes packet = .foreign := by
  unfold encode at h
  split at h
  · cases h
  cases h
  rw [receive, decode_headerBytes]
  exact if_pos (Or.inl hne)

/-- **A datagram taken for a sequence is the one sent for it exactly when the
reserved byte and the timestamp are.** -/
theorem receive_echo_iff (run_id : UInt64) (sizes : List UInt16) (sent_times : Nat → UInt64)
    (packet : Bytes) (index : Nat) (h : receive run_id sizes packet = .echo index) :
    ∃ sent, encode (sizes.getD index 0).toNat (sentHeader run_id index (sent_times index)) = .ok sent ∧
      (packet = sent ↔
        packet.getD 5 0 = 0 ∧ packet.extract 24 32 = toBE 8 (sent_times index).toNat) := by
  obtain ⟨sent_ns, -, hsize, hpacket⟩ := receive_echo h
  refine ⟨_, encode_ok hsize, ?_⟩
  constructor
  · intro e
    obtain ⟨-, -, h5, -, -, -, hsent⟩ := headerBytes_fields 0
      (sentHeader run_id index (sent_times index))
      (payload (sentHeader run_id index (sent_times index)) ((sizes.getD index 0).toNat - headerLen))
    rw [e]
    exact ⟨h5, hsent⟩
  · rintro ⟨h5, hsent⟩
    obtain ⟨-, -, -, -, -, -, hfield⟩ := headerBytes_fields (packet.getD 5 0)
      (sentHeader run_id index sent_ns)
      (payload (sentHeader run_id index sent_ns) ((sizes.getD index 0).toNat - headerLen))
    rw [← hpacket, hsent] at hfield
    have hns : sent_times index = sent_ns := by
      rw [← ofNat_ofBE_toBE (sent_times index), hfield, sentHeader, ofNat_ofBE_toBE]
    rw [h5] at hpacket
    rw [hns]
    exact hpacket

/-- A 40-byte packet with its reserved byte set. -/
def marked : Bytes :=
  headerBytes 1 (sentHeader 7 0 5) ++ payload (sentHeader 7 0 5) 8

theorem receive_echo_marked :
    ∃ sent, encode 40 (sentHeader 7 0 5) = .ok sent ∧
      (marked = sent ↔ marked.getD 5 0 = 0 ∧ marked.extract 24 32 = toBE 8 5) :=
  receive_echo_iff 7 [40] (fun _ => 5) marked 0 (by decide +kernel)

/-- **An altered echo can pass**: one bit of byte 5 flipped on the way back. -/
theorem altered_echo_accepted :
    ¬ ∀ (run_id : UInt64) (sizes : List UInt16) (sent_times : Nat → UInt64) (packet : Bytes)
      (index : Nat), receive run_id sizes packet = .echo index →
        encode (sizes.getD index 0).toNat (sentHeader run_id index (sent_times index)) =
          .ok packet := by
  intro h
  have := h 7 [40] (fun _ => 5) marked 0 (by decide +kernel)
  exact absurd this (by decide +kernel)

end Nucleo.Echo
