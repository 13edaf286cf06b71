import Nucleo.L1Encoding.PyText
import Nucleo.L2Machine.ProbeTracker
import Nucleo.L2Machine.StreamTracker

/-!
# The evidence file of a load run

`load_report.py`: `RunReport` writes `events.jsonl`, one compact JSON record a
line, and `inspect_report` reads it back. The writer holds an interval against
the previous interval, the reader against the previous record of any type.

A call comes with the trackers as they stand; what happens to them in between
is open. The file is its bytes. A count of 0 and a missing count are not told
apart in the streams' `counts`. `intervals.csv` is left out: nothing reads it.

Results:
* `inspect_records`: the reader on a written file, record by record.
* `Call.read`: one accepted call, read or refused by its tie alone.
* `report_agrees_iff`: the two agree exactly on runs without a tie.
-/
namespace Nucleo.Metrics

open Json (Str)

/-- `float` where the report meets it. -/
structure Floats where
  /-- `x <= n` -/
  le : Json.Float → Int → Bool
  /-- `x == n` -/
  eq : Json.Float → Int → Bool
  /-- `count * 1e9 / duration` -/
  hz : Int → Int → Json.Float

/-! ## Records -/

def nat (n : Nat) : Json := .int n

/-- An ASCII string. -/
def text (s : String) : Json := .str (Str.lit s)

/-- `None` or a number. -/
def optional : Option Nat → Json
  | none => .null
  | some n => nat n

/-- An object from its fields, in the order of the source. -/
def object (fields : List (String × Json)) : Json := .obj (fields.map fun f => (Str.lit f.1, f.2))

/-- `dict(counts)`. -/
def Tally.json (t : Tally) : Json := .obj (t.map fun p => (p.1, .int p.2))

namespace Histogram

/-- mirrors Rust/tools/message-demo/python/load_metrics.py:98-111 -/
def Snapshot.json (s : Snapshot) : Json := object [
  ("count", nat s.count),
  ("sum_ns", nat s.sumNs),
  ("min_ns", optional s.minNs),
  ("max_ns", optional s.maxNs),
  ("p50_upper_ns", optional s.p50UpperNs),
  ("p95_upper_ns", optional s.p95UpperNs),
  ("p99_upper_ns", optional s.p99UpperNs),
  ("overflow", nat s.overflow),
  ("bins", .obj (s.bins.map fun b => ((Decimal.text b.1).map (·.toUInt16), nat b.2)))]

end Histogram

/-- mirrors Rust/tools/message-demo/python/load_metrics.py:211-223 -/
def ProbeTracker.Snapshot.json (s : Snapshot) : Json := object [
  ("counts", s.counts.json),
  ("outstanding", nat s.outstanding),
  ("outstanding_high_water", nat s.outstandingHighWater),
  ("retained_recent", nat s.retainedRecent),
  ("rtt", s.rtt.json),
  ("interval_rtt", s.intervalRtt.json),
  ("closed", .bool s.closed)]

def Outcome.name : Outcome → String
  | .invalidPublication => "invalid_publication"
  | .foreignPublication => "foreign_publication"
  | .afterClose => "after_close"
  | .baseline => "baseline"
  | .ambiguousSequence => "ambiguous_sequence"
  | .progress => "progress"
  | .outsideHistory => "outside_history"
  | .duplicatePublication => "duplicate_publication"
  | .reorderedPublication => "reordered_publication"

def StreamCount.name : StreamCount → String
  | .receivedDatagrams => "received_datagrams"
  | .receivedBytes => "received_bytes"
  | .finalGaps => "final_gaps"
  | .outcome o => o.name

def StreamCount.all : List StreamCount := [.receivedDatagrams, .receivedBytes, .finalGaps,
  .outcome .invalidPublication, .outcome .foreignPublication, .outcome .afterClose, .outcome .baseline,
  .outcome .ambiguousSequence, .outcome .progress, .outcome .outsideHistory,
  .outcome .duplicatePublication, .outcome .reorderedPublication]

def Freshness.name : Freshness → String
  | .notSeen => "not_seen"
  | .fresh => "fresh"
  | .stale => "stale"

/-- The counts that are not zero. -/
def Counter.json {K : Type} (c : Counter K) (keys : List K) (name : K → String) : Json :=
  object ((keys.filter fun k => c k ≠ 0).map fun k => (name k, .int (c k)))

/-- mirrors Rust/tools/message-demo/python/load_metrics.py:345-365 -/
def StreamTracker.Snapshot.json (s : Snapshot) : Json := object [
  ("counts", s.counts.json StreamCount.all StreamCount.name),
  ("pending_gaps", .int s.pendingGaps),
  ("highest_sequence", optional s.highestSequence),
  ("age_ns", s.ageNs.elim .null .int),
  ("freshness", text s.freshness.name),
  ("closed", .bool s.closed),
  ("freshness_ns", s.freshnessNs.json [.notSeen, .fresh, .stale] Freshness.name),
  ("forward_interarrival", s.forwardInterarrival.json)]

/-- `d[key] = value`. -/
def assign (fields : List (Str × Json)) (key : Str) (value : Json) : List (Str × Json) :=
  match fields with
  | [] => [(key, value)]
  | (k, v) :: fields => if k = key then (key, value) :: fields else (k, v) :: assign fields key value

/-- `str(n)`. -/
def str (n : Int) : Str := (Json.Numeral.ofInt n).text.map (·.toUInt16)

/-! ## `RunReport` -/

/-- What a call of the report is given. -/
structure Trackers (I : Type) where
  probes : ProbeTracker I
  pacing : Pacer
  streams : List (StreamTracker I)

/-- mirrors Rust/tools/message-demo/python/load_report.py:37-40 -/
structure RunReport where
  start : Nat
  previous : Nat
  previousCounts : Tally := []
  finished : Bool := false
  /-- `events.jsonl` as far as it is written. -/
  jsonl : Bytes := []

namespace RunReport

variable {I : Type}

/-- A record and its newline. -/
def line (record : Json) : Bytes := record.compact ++ [10]

/-- mirrors Rust/tools/message-demo/python/load_report.py:70-74 -/
def write (r : RunReport) (record : Json) : RunReport := { r with jsonl := r.jsonl ++ line record }

/-- mirrors Rust/tools/message-demo/python/load_report.py:51-64 -/
def manifest (metadata : Json) (startNs : Nat) : Json := object [
  ("type", text "manifest"),
  ("schema_version", .int 1),
  ("metadata", metadata),
  ("start_monotonic_ns", nat startNs),
  ("histogram", object [
    ("edges_ns", .arr (edges.map nat)),
    ("quantile", text "nearest-rank upper bound"),
    ("overflow", text "unknown quantile"),
    ("error", text "1% + 1 ns above 1 us")])]

/-- mirrors Rust/tools/message-demo/python/load_report.py:37-68 -/
def new (metadata : Json) (startNs : Int) : Except String RunReport := do
  let start ← stamp startNs
  .ok ({ start, previous := start : RunReport }.write (manifest metadata start))

/-- `{str(stream.kind): stream.snapshot(now) for stream in streams}`, up to the first that raises. -/
def snapshots (ranks : Ranks) (now : Int) (done : List (Str × Json)) : List (StreamTracker I) →
    List (StreamTracker I) × Except String (List (Str × Json))
  | [] => ([], .ok done)
  | s :: streams =>
    match s.snapshot ranks now with
    | (s, .error e) => (s :: streams, .error e)
    | (s, .ok snapshot) =>
      let (streams, fields) := snapshots ranks now (assign done (str s.kind) snapshot.json) streams
      (s :: streams, fields)

/-- `value - self.previous_counts.get(name, 0)` for each count. -/
def delta (previous counts : Tally) : Tally := counts.map fun p => (p.1, p.2 - previous.get p.1)

/-- mirrors Rust/tools/message-demo/python/load_report.py:89-100 -/
def intervalRecord (lib : Floats) (r : RunReport) (now : Nat) (probes : ProbeTracker.Snapshot) (pacing : Pacer)
    (health : Json) (streams : List (Str × Json)) : Json :=
  let delta := delta r.previousCounts probes.counts
  let duration : Int := now - r.previous
  object [
    ("type", text "interval"),
    ("elapsed_ns", .int (now - r.start)),
    ("interval_ns", .int duration),
    ("probes", probes.json),
    ("interval_counts", delta.json),
    ("pacing", pacing.counts.json),
    ("health", health),
    ("streams", .obj streams),
    ("send_hz", .float (lib.hz (delta.get (Str.lit "sent")) duration)),
    ("timely_reply_hz", .float (lib.hz (delta.get (Str.lit "timely_reply")) duration))]

/-- mirrors Rust/tools/message-demo/python/load_report.py:76-119 -/
def interval (lib : Floats) (ranks : Ranks) (r : RunReport) (now : Int) (t : Trackers I) :
    (RunReport × Trackers I) × Except String Unit :=
  match stamp now with
  | .error e => ((r, t), .error e)
  | .ok now =>
    if r.finished = true ∨ now ≤ r.previous then
      ((r, t), .error "report interval must advance time in an unfinished run")
    else match t.probes.tick now with
      | .error e => ((r, t), .error e)
      | .ok probes =>
        let snapshot := probes.snapshot ranks
        match snapshots ranks now [] t.streams with
        | (streams, .error e) => ((r, { t with probes, streams }), .error e)
        | (streams, .ok fields) =>
          let r' := r.write (intervalRecord lib r now snapshot t.pacing probes.lastHealth fields)
          (({ r' with previous := now, previousCounts := snapshot.counts },
            { t with probes := { probes with intervalRtt := {} }, streams }), .ok ())

/-- mirrors Rust/tools/message-demo/python/load_report.py:131-140 -/
def finalRecord (r : RunReport) (now : Nat) (reason : Str) (complete : Bool) (probes : ProbeTracker.Snapshot)
    (pacing : Pacer) (streams : List (Str × Json)) : Json := object [
  ("type", text "final"),
  ("elapsed_ns", .int (now - r.start)),
  ("reason", .str reason),
  ("complete", .bool complete),
  ("acceptance", text "not_evaluated"),
  ("probes", probes.json),
  ("pacing", pacing.counts.json),
  ("streams", .obj streams)]

/-- `for stream in streams: stream.finish(now)`. -/
def finishAll (now : Int) : List (StreamTracker I) → List (StreamTracker I) × Except String Unit
  | [] => ([], .ok ())
  | s :: streams =>
    match s.finish now with
    | (s, .error e) => (s :: streams, .error e)
    | (s, .ok _) =>
      let (streams, result) := finishAll now streams
      (s :: streams, result)

/-- mirrors Rust/tools/message-demo/python/load_report.py:121-142 -/
def finish (ranks : Ranks) (r : RunReport) (now : Int) (reason : Str) (complete : Bool) (t : Trackers I) :
    (RunReport × Trackers I) × Except String Unit :=
  if reason = [] then ((r, t), .error "finish requires an explicit reason and completion state")
  else match stamp now with
    | .error e => ((r, t), .error e)
    | .ok now =>
      if r.finished = true ∨ now < r.previous then ((r, t), .error "already finished or backwards final time")
      else match t.probes.finish now (!complete) with
        | (probes, .error e) => ((r, { t with probes }), .error e)
        | (probes, .ok _) =>
          match finishAll now t.streams with
          | (streams, .error e) => ((r, { t with probes, streams }), .error e)
          | (streams, .ok _) =>
            match snapshots ranks now [] streams with
            | (streams, .error e) => ((r, { t with probes, streams }), .error e)
            | (streams, .ok fields) =>
              let r' := r.write (finalRecord r now reason complete (probes.snapshot ranks) t.pacing fields)
              (({ r' with finished := true }, { t with probes, streams }), .ok ())

def diagnosticRecord (r : RunReport) (now : Nat) (values : List (Str × Json)) : Json := object [
  ("type", text "diagnostic"),
  ("elapsed_ns", .int (now - r.start)),
  ("values", .obj values)]

/-- mirrors Rust/tools/message-demo/python/load_report.py:149-153 -/
def diagnostic (r : RunReport) (now : Int) (values : List (Str × Json)) : Except String RunReport := do
  let now ← stamp now
  if r.finished = true ∨ now < r.previous then .error "diagnostic outside active reporting window"
  else .ok (r.write (diagnosticRecord r now values))

end RunReport

/-! ## `inspect_report` -/

/-- Text mode: `\r\n` and `\r` become `\n`; after a `\r` that is written, a `\n` is not. -/
def newlines : Bool → Bytes → Bytes
  | _, [] => []
  | after, b :: rest =>
    if b = 10 ∧ after = true then newlines false rest
    else if b = 13 then 10 :: newlines true rest
    else b :: newlines false rest

/-- The lines of a text, each with its newline but for the last. -/
def linesOf : Bytes → List Bytes
  | [] => []
  | b :: rest =>
    if b = 10 then [10] :: linesOf rest
    else match linesOf rest with
      | [] => [[b]]
      | l :: lines => (b :: l) :: lines

/-- `record["interval_ns"] <= 0` is evaluated and false. -/
def positive (lib : Floats) : Json → Bool
  | .int n => 0 < n
  | .bool b => b
  | .float x => !lib.le x 0
  | _ => false

/-- `v == 1`. -/
def equalsOne (lib : Floats) : Json → Bool
  | .int n => n = 1
  | .bool b => b
  | .float x => lib.eq x 1
  | _ => false

/-- The variables of the loop. -/
structure Reading where
  manifest : Option Json := none
  intervals : Nat := 0
  final : Option Json := none
  previous : Int := -1

structure Inspection where
  intervals : Nat
  manifest : Option Json
  final : Option Json
  complete : Bool
  evidenceIssue : Option String

namespace Reading

/-- `record["type"]` where it is a string. -/
def kind (record : Json) : Option Str :=
  match record.get? (Str.lit "type") with
  | some (.str s) => some s
  | _ => none

/-- `stamp(record["elapsed_ns"])`. -/
def elapsed (record : Json) : Except String Nat :=
  match record.get? (Str.lit "elapsed_ns") with
  | some (.int n) => stamp n
  | _ => .error "monotonic_ns"

/-- The first line.
mirrors Rust/tools/message-demo/python/load_report.py:179-186 -/
def first (lib : Floats) (s : Reading) (record : Json) : Except String Reading :=
  if kind record ≠ some (Str.lit "manifest") ∨
      (record.get? (Str.lit "schema_version")).any (equalsOne lib) = false then
    .error "missing or unsupported manifest"
  else .ok { s with manifest := some record }

/-- A later line.
mirrors Rust/tools/message-demo/python/load_report.py:187-202 -/
def next (lib : Floats) (s : Reading) (record : Json) : Except String Reading := do
  if s.final.isSome then .error "record after final"
  else
    let elapsed ← elapsed record
    if elapsed < s.previous then .error "backwards report time"
    else if kind record = some (Str.lit "interval") then
      if elapsed ≤ s.previous ∨ (record.get? (Str.lit "interval_ns")).any (positive lib) = false then
        .error "invalid interval"
      else .ok { s with intervals := s.intervals + 1, previous := elapsed }
    else if kind record = some (Str.lit "final") then .ok { s with final := some record, previous := elapsed }
    else if kind record = some (Str.lit "diagnostic") then .ok { s with previous := elapsed }
    else .error "unexpected record type"

/-- One record, the manifest or another. -/
def record (lib : Floats) (s : Reading) (record : Json) : Except String Reading :=
  if s.manifest.isNone then s.first lib record else s.next lib record

/-- The loop; whether it stopped at a line without a newline.
mirrors Rust/tools/message-demo/python/load_report.py:174-202 -/
def lines (lib : Floats) : Reading → List Bytes → Except String (Reading × Bool)
  | s, [] => .ok (s, false)
  | s, line :: rest =>
    if line.getLast? ≠ some 10 then .ok (s, true)
    else match Json.parse line with
      | none => .error "JSONDecodeError"
      | some r =>
        match s.record lib r with
        | .error e => .error e
        | .ok s => lines lib s rest

/-- `final.get("complete") is True`. -/
def isComplete (final : Json) : Bool :=
  match final.get? (Str.lit "complete") with
  | some (.bool b) => b
  | _ => false

end Reading

/-- What is returned after the loop. -/
def Reading.result (s : Reading) (damage : Bool) : Inspection where
  intervals := s.intervals
  manifest := s.manifest
  final := s.final
  complete := s.manifest.isSome && s.final.any Reading.isComplete && !damage
  evidenceIssue := if damage then some "truncated_record" else if s.final.isNone then some "missing_final" else none

/-- mirrors Rust/tools/message-demo/python/load_report.py:162-211 -/
def inspectReport (lib : Floats) (file : Bytes) : Except String Inspection :=
  if utf8Valid file = false then .error "UnicodeDecodeError"
  else (Reading.lines lib {} (linesOf (newlines false file))).map fun p => p.1.result p.2

/-! ## The reader on a written file -/

theorem linesOf_line {l : Bytes} (hl : ∀ b ∈ l, b ≠ 10) (rest : Bytes) :
    linesOf (l ++ 10 :: rest) = (l ++ [10]) :: linesOf rest := by
  induction l with
  | nil => simp [linesOf]
  | cons b l ih =>
    have hb : b ≠ 10 := hl b (by simp)
    have hrest := ih fun c hc => hl c (by simp [hc])
    rw [List.cons_append, linesOf, if_neg hb, hrest]
    rfl

theorem newlines_eq {bs : Bytes} (h : ∀ b ∈ bs, b ≠ 13) : newlines false bs = bs := by
  induction bs with
  | nil => rfl
  | cons b bs ih =>
    rw [newlines, if_neg (by simp), if_neg (h b (by simp)), ih fun c hc => h c (by simp [hc])]

namespace RunReport

theorem mem_compact {record : Json} {b : UInt8} (h : b ∈ record.compact) : b ≠ 10 ∧ b ≠ 13 ∧ b < 0x80 := by
  have hb := Json.isPrintable_iff.1 (List.all_eq_true.1 (Json.compact_printable record) b h)
  refine ⟨?_, ?_, ?_⟩
  · intro e
    simp [e] at hb
  · intro e
    simp [e] at hb
  · rw [UInt8.lt_iff_toNat_lt]
    exact Nat.lt_trans hb.2 (by decide)

theorem mem_line {record : Json} {b : UInt8} (h : b ∈ line record) : b ≠ 13 ∧ b < 0x80 := by
  rcases List.mem_append.1 h with h | h
  · exact (mem_compact h).2
  · obtain rfl : b = 10 := by simpa using h
    decide

theorem mem_lines {records : List Json} {b : UInt8} (h : b ∈ records.flatMap line) : b ≠ 13 ∧ b < 0x80 := by
  obtain ⟨record, -, hb⟩ := List.mem_flatMap.1 h
  exact mem_line hb

theorem parse_line (record : Json) : Json.parse (line record) = some record := Json.parse_compact record (by rfl)

/-- Record by record. -/
theorem lines_records (lib : Floats) (s : Reading) (records : List Json) :
    Reading.lines lib s (linesOf (records.flatMap line)) =
      (records.foldlM (Reading.record lib) s).map fun s => (s, false) := by
  induction records generalizing s with
  | nil => rfl
  | cons record records ih =>
    have hsplit : linesOf ((record :: records).flatMap line) = line record :: linesOf (records.flatMap line) := by
      rw [List.flatMap_cons, line, List.append_assoc, List.singleton_append]
      exact linesOf_line (fun b hb => (mem_compact hb).1) _
    have hlast : (line record).getLast? = some 10 := by simp [line]
    rw [hsplit, Reading.lines, if_neg (by simp [hlast]), parse_line, List.foldlM_cons]
    cases hr : s.record lib record with
    | error e =>
      simp only [hr]
      rfl
    | ok s' =>
      simp only [hr]
      exact ih s'

/-- **The reader on a written file.** -/
theorem inspect_records (lib : Floats) (records : List Json) :
    inspectReport lib (records.flatMap line) =
      (records.foldlM (Reading.record lib) {}).map fun s => s.result false := by
  have hutf8 : utf8Valid (records.flatMap line) = true := utf8Valid_ascii fun b hb => (mem_lines hb).2
  unfold inspectReport
  rw [if_neg (by simp [hutf8]), newlines_eq fun b hb => (mem_lines hb).1, lines_records]
  cases records.foldlM (Reading.record lib) {} <;> rfl

/-! ## Calls -/

inductive Call (I : Type)
  | interval (now : Int) (trackers : Trackers I)
  | diagnostic (now : Int) (values : List (Str × Json))
  | finish (now : Int) (reason : Str) (complete : Bool) (trackers : Trackers I)

variable {I : Type}

def Call.now : Call I → Int
  | .interval now _ => now
  | .diagnostic now _ => now
  | .finish now _ _ _ => now

def Call.isInterval : Call I → Bool
  | .interval .. => true
  | _ => false

def Call.isDiagnostic : Call I → Bool
  | .diagnostic .. => true
  | _ => false

/-- `finish(complete=True)`. -/
def Call.completes : Call I → Bool
  | .finish _ _ complete _ => complete
  | _ => false

/-- The report after a call that does not raise. -/
def call (lib : Floats) (ranks : Ranks) (r : RunReport) : Call I → Except String RunReport
  | .interval now t => let step := r.interval lib ranks now t; step.2.map fun _ => step.1.1
  | .diagnostic now values => r.diagnostic now values
  | .finish now reason complete t => let step := r.finish ranks now reason complete t; step.2.map fun _ => step.1.1

/-- The report after a sequence of calls of which none raises. -/
def run (lib : Floats) (ranks : Ranks) (metadata : Json) (startNs : Int) (calls : List (Call I)) :
    Except String RunReport := do
  let r ← new metadata startNs
  calls.foldlM (call lib ranks) r

/-- A diagnostic and an interval at one clock reading. -/
def Tied (a b : Call I) : Prop := a.isDiagnostic = true ∧ b.isInterval = true ∧ a.now = b.now

/-- What an accepted call writes and leaves. -/
inductive Writes (lib : Floats) (r : RunReport) : Call I → Json → RunReport → Prop
  | interval {now : Nat} {t : Trackers I} (snapshot : ProbeTracker.Snapshot) (health : Json)
      (fields : List (Str × Json)) (ho : r.finished = false) (hn : r.previous < now) (hmax : now ≤ 2 ^ 63 - 1) :
      Writes lib r (.interval now t) (intervalRecord lib r now snapshot t.pacing health fields)
        { r.write (intervalRecord lib r now snapshot t.pacing health fields) with
          previous := now, previousCounts := snapshot.counts }
  | diagnostic {now : Nat} {values : List (Str × Json)} (ho : r.finished = false) (hn : r.previous ≤ now)
      (hmax : now ≤ 2 ^ 63 - 1) :
      Writes lib r (.diagnostic now values) (diagnosticRecord r now values) (r.write (diagnosticRecord r now values))
  | finish {now : Nat} {reason : Str} {complete : Bool} {t : Trackers I} (snapshot : ProbeTracker.Snapshot)
      (fields : List (Str × Json)) (ho : r.finished = false) (hn : r.previous ≤ now) (hmax : now ≤ 2 ^ 63 - 1) :
      Writes lib r (.finish now reason complete t) (finalRecord r now reason complete snapshot t.pacing fields)
        { r.write (finalRecord r now reason complete snapshot t.pacing fields) with finished := true }

theorem interval_ok {lib : Floats} {ranks : Ranks} {r : RunReport} {now : Int} {t : Trackers I}
    (h : (interval lib ranks r now t).2 = .ok ()) :
    ∃ record, Writes lib r (.interval now t) record (interval lib ranks r now t).1.1 := by
  unfold interval at h ⊢
  cases hs : stamp now with
  | error e => simp [hs] at h
  | ok n =>
    obtain ⟨rfl, hmax⟩ := stamp_ok.1 hs
    simp only [hs] at h ⊢
    split at h
    · cases h
    · rename_i hno
      rw [if_neg hno]
      simp only [not_or, Bool.not_eq_true, Nat.not_le] at hno
      cases ht : t.probes.tick n with
      | error e => simp [ht] at h
      | ok probes =>
        simp only [ht] at h ⊢
        cases hf : snapshots ranks n [] t.streams with
        | mk streams fields =>
          cases fields with
          | error e => simp [hf] at h
          | ok fields => exact ⟨_, .interval _ _ fields hno.1 hno.2 (by omega)⟩

theorem diagnostic_ok {lib : Floats} {r r' : RunReport} {now : Int} {values : List (Str × Json)}
    (h : r.diagnostic now values = .ok r') :
    ∃ record, Writes (I := I) lib r (.diagnostic now values) record r' := by
  unfold diagnostic at h
  cases hs : stamp now with
  | error e =>
    rw [hs] at h
    cases h
  | ok n =>
    obtain ⟨rfl, hmax⟩ := stamp_ok.1 hs
    rw [hs, except_ok_bind] at h
    split at h
    · cases h
    · rename_i hno
      simp only [not_or, Bool.not_eq_true, Nat.not_lt] at hno
      cases h
      exact ⟨_, .diagnostic hno.1 hno.2 (by omega)⟩

theorem finish_ok {lib : Floats} {ranks : Ranks} {r : RunReport} {now : Int} {reason : Str} {complete : Bool}
    {t : Trackers I} (h : (finish ranks r now reason complete t).2 = .ok ()) :
    ∃ record, Writes lib r (.finish now reason complete t) record (finish ranks r now reason complete t).1.1 := by
  unfold finish at h ⊢
  split at h
  · cases h
  rename_i hreason
  rw [if_neg hreason]
  cases hs : stamp now with
  | error e => simp [hs] at h
  | ok n =>
    obtain ⟨rfl, hmax⟩ := stamp_ok.1 hs
    simp only [hs] at h ⊢
    split at h
    · cases h
    · rename_i hno
      rw [if_neg hno]
      simp only [not_or, Bool.not_eq_true, Nat.not_lt] at hno
      cases hp : t.probes.finish n (!complete) with
      | mk probes result =>
        cases result with
        | error e => simp [hp] at h
        | ok u =>
          simp only [hp] at h ⊢
          cases hf : finishAll n t.streams with
          | mk streams result =>
            cases result with
            | error e => simp [hf] at h
            | ok u =>
              simp only [hf] at h ⊢
              cases hsnap : snapshots ranks n [] streams with
              | mk streams fields =>
                cases fields with
                | error e => simp [hsnap] at h
                | ok fields => exact ⟨_, .finish _ fields hno.1 hno.2 (by omega)⟩

theorem call_writes {lib : Floats} {ranks : Ranks} {r r' : RunReport} {c : Call I}
    (h : r.call lib ranks c = .ok r') : ∃ record, Writes lib r c record r' := by
  cases c with
  | interval now t =>
    change (interval lib ranks r now t).2.map (fun _ => (interval lib ranks r now t).1.1) = .ok r' at h
    cases hres : (interval lib ranks r now t).2 with
    | error e =>
      rw [hres] at h
      cases h
    | ok u =>
      rw [hres] at h
      cases h
      exact interval_ok hres
  | diagnostic now values => exact diagnostic_ok h
  | finish now reason complete t =>
    change (finish ranks r now reason complete t).2.map (fun _ => (finish ranks r now reason complete t).1.1) =
      .ok r' at h
    cases hres : (finish ranks r now reason complete t).2 with
    | error e =>
      rw [hres] at h
      cases h
    | ok u =>
      rw [hres] at h
      cases h
      exact finish_ok hres

/-! ## Writer and reader side by side -/

theorem manifest_get (metadata : Json) (start : Nat) :
    (manifest metadata start).get? (Str.lit "type") = some (text "manifest") ∧
      (manifest metadata start).get? (Str.lit "schema_version") = some (.int 1) := by
  unfold manifest object
  simp only [Json.get?, List.map_cons, List.map_nil]
  exact ⟨rfl, rfl⟩

theorem intervalRecord_get (lib : Floats) (r : RunReport) (now : Nat) (probes : ProbeTracker.Snapshot)
    (pacing : Pacer) (health : Json) (streams : List (Str × Json)) :
    let record := intervalRecord lib r now probes pacing health streams
    record.get? (Str.lit "type") = some (text "interval") ∧
      record.get? (Str.lit "elapsed_ns") = some (.int (now - r.start)) ∧
      record.get? (Str.lit "interval_ns") = some (.int (now - r.previous)) := by
  unfold intervalRecord object
  simp only [Json.get?, List.map_cons, List.map_nil]
  exact ⟨rfl, rfl, rfl⟩

theorem diagnosticRecord_get (r : RunReport) (now : Nat) (values : List (Str × Json)) :
    (diagnosticRecord r now values).get? (Str.lit "type") = some (text "diagnostic") ∧
      (diagnosticRecord r now values).get? (Str.lit "elapsed_ns") = some (.int (now - r.start)) := by
  unfold diagnosticRecord object
  simp only [Json.get?, List.map_cons, List.map_nil]
  exact ⟨rfl, rfl⟩

theorem finalRecord_get (r : RunReport) (now : Nat) (reason : Str) (complete : Bool)
    (probes : ProbeTracker.Snapshot) (pacing : Pacer) (streams : List (Str × Json)) :
    let record := finalRecord r now reason complete probes pacing streams
    record.get? (Str.lit "type") = some (text "final") ∧
      record.get? (Str.lit "elapsed_ns") = some (.int (now - r.start)) ∧
      record.get? (Str.lit "complete") = some (.bool complete) := by
  unfold finalRecord object
  simp only [Json.get?, List.map_cons, List.map_nil]
  exact ⟨rfl, rfl, rfl⟩

/-- The stamp of a record is read back. -/
theorem elapsed_of {record : Json} {now start : Nat} (hs : start ≤ now) (hmax : now ≤ 2 ^ 63 - 1)
    (h : record.get? (Str.lit "elapsed_ns") = some (.int (now - start))) :
    Reading.elapsed record = .ok (now - start) := by
  unfold Reading.elapsed
  rw [h]
  exact stamp_ok.2 ⟨by omega, by omega⟩

theorem kind_of {record : Json} {s : Str} (h : record.get? (Str.lit "type") = some (.str s)) :
    Reading.kind record = some s := by
  unfold Reading.kind
  rw [h]

/-- The reader after the records of a run, `last` its last call. -/
structure Follows (r : RunReport) (last : Option (Call I)) (s : Reading) : Prop where
  manifest : s.manifest.isNone = false
  start : r.start ≤ r.previous
  final : s.final.isSome = r.finished
  complete : s.final.any Reading.isComplete = last.any Call.completes
  first : last = none → s.previous = -1
  elapsed : ∀ c, last = some c → s.previous = c.now - r.start
  /-- Only a diagnostic leaves the writer's time behind the reader's. -/
  previous : r.finished = false → ∀ c, last = some c → c.isDiagnostic = false → c.now = r.previous

theorem new_follows (lib : Floats) {metadata : Json} {startNs : Int} {r : RunReport}
    (h : new metadata startNs = .ok r) :
    ∃ s, r.jsonl = line (manifest metadata r.start) ∧
      Reading.record lib {} (manifest metadata r.start) = .ok s ∧ s.intervals = 0 ∧ Follows (I := I) r none s := by
  obtain ⟨n, -, h⟩ := except_bind_ok.1 h
  cases h
  obtain ⟨htype, hversion⟩ := manifest_get metadata n
  have hfirst : Reading.record lib {} (manifest metadata n) = .ok { manifest := some (manifest metadata n) } := by
    change Reading.first lib {} (manifest metadata n) = _
    unfold Reading.first
    rw [kind_of htype, hversion]
    rfl
  refine ⟨_, rfl, hfirst, rfl, ⟨rfl, Nat.le_refl _, rfl, rfl, fun _ => rfl, nofun, nofun⟩⟩

namespace Follows

variable {lib : Floats} {r r' : RunReport} {last : Option (Call I)} {s : Reading}

/-- The reader is not ahead of a call in order. -/
theorem previous_le (hf : Follows r last s) {now : Nat} (hn : r.previous ≤ now)
    (hmono : ∀ p, last = some p → p.now ≤ now) : s.previous ≤ ((now - r.start : Nat) : Int) := by
  have hstart := hf.start
  cases hl : last with
  | none =>
    rw [hf.first hl]
    omega
  | some p =>
    rw [hf.elapsed p hl]
    have := hmono p hl
    omega

/-- It has come up with an interval only through a diagnostic. -/
theorem previous_lt_iff (hf : Follows r last s) (ho : r.finished = false) {now : Nat} (hn : r.previous < now)
    (hmono : ∀ p, last = some p → p.now ≤ now) (t : Trackers I) :
    s.previous < ((now - r.start : Nat) : Int) ↔ ∀ p, last = some p → ¬ Tied p (.interval now t) := by
  have hstart := hf.start
  cases hl : last with
  | none =>
    rw [hf.first hl]
    simp
    omega
  | some p =>
    have hp := hmono p hl
    have hprev := hf.previous ho p hl
    have htied : Tied p (.interval now t) ↔ p.isDiagnostic = true ∧ p.now = now := by
      simp [Tied, Call.isInterval, Call.now.eq_1]
    rw [hf.elapsed p hl]
    simp only [Option.some.injEq, forall_eq', htied, not_and]
    constructor
    · intro hlt _ heq
      omega
    · intro hne
      cases hd : p.isDiagnostic with
      | true =>
        have := hne hd
        omega
      | false =>
        have := hprev hd
        omega

theorem final_none (hf : Follows r last s) (ho : r.finished = false) : s.final = none := by
  have := hf.final
  rw [ho] at this
  simpa using this

/-- **One accepted call.** Its record is read, unless it is an interval that ties with a diagnostic. -/
theorem read (hf : Follows r last s) {c : Call I} {record : Json} (hw : Writes lib r c record r')
    (hmono : ∀ p, last = some p → p.now ≤ c.now) :
    ((∀ p, last = some p → ¬ Tied p c) → ∃ s', s.record lib record = .ok s' ∧
      s'.intervals = s.intervals + (if c.isInterval then 1 else 0) ∧ Follows r' (some c) s') ∧
    (¬ (∀ p, last = some p → ¬ Tied p c) → ∃ e, s.record lib record = .error e) := by
  have hstart := hf.start
  have hrecord : s.record lib record = s.next lib record := if_neg (by simp [hf.manifest])
  rw [hrecord]
  cases hw with
  | @interval now t snapshot health fields ho hn hmax =>
    have hfinal := hf.final_none ho
    obtain ⟨htype, helapsed, hinterval⟩ := intervalRecord_get lib r now snapshot t.pacing health fields
    generalize intervalRecord lib r now snapshot t.pacing health fields = record at *
    have helapsed := elapsed_of (Nat.le_trans hstart (Nat.le_of_lt hn)) hmax helapsed
    have hle := hf.previous_le (Nat.le_of_lt hn) hmono
    have hlt := hf.previous_lt_iff ho hn hmono t
    have hnext : s.next lib record = if ((now - r.start : Nat) : Int) ≤ s.previous then .error "invalid interval"
        else .ok { s with intervals := s.intervals + 1, previous := (now - r.start : Nat) } := by
      unfold Reading.next
      rw [if_neg (by simp [hfinal]), helapsed, except_ok_bind, if_neg (by omega), if_pos (kind_of htype), hinterval]
      simp [positive, hn]
    rw [hnext]
    constructor
    · intro hno
      have hlt := hlt.2 hno
      rw [if_neg (by omega)]
      refine ⟨_, rfl, by simp [Call.isInterval], ⟨hf.manifest, ?_, hf.final, ?_, nofun, ?_, ?_⟩⟩
      · exact Nat.le_trans hstart (Nat.le_of_lt hn)
      · simp [hfinal, Call.completes]
      · intro c hc
        cases hc
        simp only [Call.now, write]
        omega
      · intro _ c hc _
        cases hc
        rfl
    · intro htie
      have hge := mt hlt.1 htie
      rw [if_pos (by omega)]
      exact ⟨_, rfl⟩
  | @diagnostic now values ho hn hmax =>
    have hfinal := hf.final_none ho
    obtain ⟨htype, helapsed⟩ := diagnosticRecord_get r now values
    generalize diagnosticRecord r now values = record at *
    have helapsed := elapsed_of (Nat.le_trans hstart hn) hmax helapsed
    have hle := hf.previous_le hn hmono
    have hnext : s.next lib record = .ok { s with previous := (now - r.start : Nat) } := by
      unfold Reading.next
      rw [if_neg (by simp [hfinal]), helapsed, except_ok_bind, if_neg (by omega), kind_of htype,
        if_neg (by decide), if_neg (by decide), if_pos rfl]
    refine ⟨fun _ => ⟨_, hnext, rfl, ⟨hf.manifest, hstart, hf.final, ?_, nofun, ?_, ?_⟩⟩, fun htie => ?_⟩
    · simp [hfinal, Call.completes]
    · intro c hc
      cases hc
      simp only [Call.now, write]
      omega
    · intro _ c hc hd
      cases hc
      cases hd
    · exact absurd (fun p _ h => Bool.false_ne_true h.2.1) htie
  | @finish now reason complete t snapshot fields ho hn hmax =>
    have hfinal := hf.final_none ho
    obtain ⟨htype, helapsed, hcomplete⟩ := finalRecord_get r now reason complete snapshot t.pacing fields
    generalize finalRecord r now reason complete snapshot t.pacing fields = record at *
    have helapsed := elapsed_of (Nat.le_trans hstart hn) hmax helapsed
    have hle := hf.previous_le hn hmono
    have hnext : s.next lib record = .ok { s with final := some record, previous := (now - r.start : Nat) } := by
      unfold Reading.next
      rw [if_neg (by simp [hfinal]), helapsed, except_ok_bind, if_neg (by omega), kind_of htype,
        if_neg (by decide), if_pos rfl]
    refine ⟨fun _ => ⟨_, hnext, rfl, ⟨hf.manifest, hstart, rfl, ?_, nofun, ?_, nofun⟩⟩, fun htie => ?_⟩
    · simp [Reading.isComplete, hcomplete, Call.completes]
    · intro c hc
      cases hc
      simp only [Call.now, write]
      omega
    · exact absurd (fun p _ h => Bool.false_ne_true h.2.1) htie

end Follows

/-- The accepted calls of a run, each with the record it wrote. -/
inductive Wrote (lib : Floats) : RunReport → List (Call I × Json) → RunReport → Prop
  | nil (r : RunReport) : Wrote lib r [] r
  | cons {r r₁ r' : RunReport} {c : Call I} {record : Json} {steps : List (Call I × Json)}
      (hw : Writes lib r c record r₁) (h : Wrote lib r₁ steps r') : Wrote lib r ((c, record) :: steps) r'

theorem run_wrote {lib : Floats} {ranks : Ranks} {calls : List (Call I)} {r r' : RunReport}
    (h : calls.foldlM (call lib ranks) r = .ok r') :
    ∃ steps, steps.map Prod.fst = calls ∧ Wrote lib r steps r' := by
  induction calls generalizing r with
  | nil =>
    cases h
    exact ⟨[], rfl, .nil _⟩
  | cons c calls ih =>
    rw [List.foldlM_cons] at h
    obtain ⟨r₁, hcall, h⟩ := except_bind_ok.1 h
    obtain ⟨record, hw⟩ := call_writes hcall
    obtain ⟨steps, hsteps, hwrote⟩ := ih h
    exact ⟨(c, record) :: steps, by simp [hsteps], .cons hw hwrote⟩

theorem Wrote.jsonl {lib : Floats} {r r' : RunReport} {steps : List (Call I × Json)} (h : Wrote lib r steps r') :
    r'.jsonl = r.jsonl ++ (steps.map Prod.snd).flatMap line := by
  induction h with
  | nil r => simp
  | cons hw h ih =>
    rw [ih]
    cases hw <;> simp [write]

/-- A chain from the call before it. -/
theorem chain_step {R : Call I → Call I → Prop} {last : Option (Call I)} {c : Call I} {calls : List (Call I)} :
    (last.toList ++ c :: calls).IsChain R ↔ (∀ p, last = some p → R p c) ∧ (c :: calls).IsChain R := by
  cases last <;> simp

/-- **Whole runs.** The records are read to the end, or the reader stops at the first tie. -/
theorem Wrote.reads {lib : Floats} {r r' : RunReport} {steps : List (Call I × Json)} (h : Wrote lib r steps r')
    {last : Option (Call I)} {s : Reading} (hf : Follows r last s)
    (hmono : (last.toList ++ steps.map Prod.fst).IsChain fun a b => a.now ≤ b.now) :
    ((last.toList ++ steps.map Prod.fst).IsChain (fun a b => ¬ Tied a b) →
      ∃ s', (steps.map Prod.snd).foldlM (Reading.record lib) s = .ok s' ∧
        s'.intervals = s.intervals + (steps.map Prod.fst).countP Call.isInterval ∧
        Follows r' ((steps.map Prod.fst).getLast?.or last) s') ∧
    (¬ (last.toList ++ steps.map Prod.fst).IsChain (fun a b => ¬ Tied a b) →
      ∃ e, (steps.map Prod.snd).foldlM (Reading.record lib) s = .error e) := by
  induction h generalizing last s with
  | nil r =>
    refine ⟨fun _ => ⟨s, rfl, rfl, by simpa using hf⟩, fun h => absurd ?_ h⟩
    cases last <;> simp
  | @cons r r₁ r' c record steps hw h ih =>
    simp only [List.map_cons] at hmono ⊢
    obtain ⟨hc, hrest⟩ := chain_step.1 hmono
    obtain ⟨hread, htie⟩ := hf.read hw hc
    rw [List.foldlM_cons]
    by_cases hno : ∀ p, last = some p → ¬ Tied p c
    · obtain ⟨s₁, hs₁, hcount, hf₁⟩ := hread hno
      obtain ⟨hgood, hbad⟩ := ih hf₁ hrest
      rw [hs₁, except_ok_bind]
      constructor
      · intro hchain
        obtain ⟨s', hs', hcount', hf'⟩ := hgood (chain_step.1 hchain).2
        refine ⟨s', hs', ?_, ?_⟩
        · rw [hcount', hcount, List.countP_cons]
          omega
        · rw [List.getLast?_cons]
          cases hl : (steps.map Prod.fst).getLast? with
          | none => simpa [hl] using hf'
          | some p => simpa [hl] using hf'
      · intro hchain
        exact hbad fun h => hchain (chain_step.2 ⟨hno, h⟩)
    · obtain ⟨e, he⟩ := htie hno
      rw [he]
      exact ⟨fun hchain => absurd (chain_step.1 hchain).1 hno, fun _ => ⟨e, rfl⟩⟩

/-- What the reader should say of a run. -/
structure Faithful (lib : Floats) (r : RunReport) (calls : List (Call I)) (i : Inspection) : Prop where
  inspects : inspectReport lib r.jsonl = .ok i
  intervals : i.intervals = calls.countP Call.isInterval
  complete : i.complete = true ↔ ∃ c, calls.getLast? = some c ∧ c.completes = true

/-- A run without a tie is read as it was written, a run with one is refused. -/
theorem run_reads {lib : Floats} {ranks : Ranks} {metadata : Json} {startNs : Int} {calls : List (Call I)}
    {r : RunReport} (hrun : run lib ranks metadata startNs calls = .ok r)
    (hmono : calls.IsChain fun a b => a.now ≤ b.now) :
    (calls.IsChain (fun a b => ¬ Tied a b) → ∃ i, Faithful lib r calls i) ∧
      (¬ calls.IsChain (fun a b => ¬ Tied a b) → ∃ e, inspectReport lib r.jsonl = .error e) := by
  obtain ⟨r₀, hnew, hfold⟩ := except_bind_ok.1 hrun
  obtain ⟨s₀, hjsonl, hfirst, hzero, hf⟩ := new_follows (I := I) lib hnew
  obtain ⟨steps, rfl, hwrote⟩ := run_wrote hfold
  obtain ⟨hgood, hbad⟩ := hwrote.reads hf (by simpa using hmono)
  simp only [Option.toList_none, List.nil_append] at hgood hbad
  have hfile : r.jsonl = (manifest metadata r₀.start :: steps.map Prod.snd).flatMap line := by
    rw [hwrote.jsonl, hjsonl, List.flatMap_cons]
  have hinspect := inspect_records lib (manifest metadata r₀.start :: steps.map Prod.snd)
  rw [← hfile, List.foldlM_cons, hfirst, except_ok_bind] at hinspect
  constructor
  · intro hchain
    obtain ⟨s, hs, hcount, hf'⟩ := hgood hchain
    rw [hs] at hinspect
    refine ⟨_, hinspect, ?_, ?_⟩
    · simpa [Reading.result, hzero] using hcount
    · have hmanifest : s.manifest.isSome = true := by simpa using hf'.manifest
      have hcomplete := hf'.complete
      simp only [Option.or_none] at hcomplete
      simp only [Reading.result, hmanifest, hcomplete, Bool.true_and, Bool.not_false, Bool.and_true,
        Option.any_eq_true]
  · intro hchain
    obtain ⟨e, he⟩ := hbad hchain
    rw [he] at hinspect
    exact ⟨e, hinspect⟩

/-- **The writer and the reader agree exactly on the runs without a tie**: a diagnostic and, right after it,
an interval at the same clock reading. -/
theorem report_agrees_iff (lib : Floats) (ranks : Ranks) (metadata : Json) (startNs : Int) (calls : List (Call I))
    (r : RunReport) (hrun : run lib ranks metadata startNs calls = .ok r)
    (hmono : calls.IsChain fun a b => a.now ≤ b.now) :
    (∃ i, Faithful lib r calls i) ↔ calls.IsChain fun a b => ¬ Tied a b := by
  obtain ⟨hgood, hbad⟩ := run_reads hrun hmono
  refine ⟨fun ⟨i, hi⟩ => ?_, hgood⟩
  by_contra hno
  obtain ⟨e, he⟩ := hbad hno
  rw [hi.inspects] at he
  cases he

namespace Sample

/-- The float 0.0, which is all an idle run needs. -/
def zero : Json.Float := ⟨.decimal 0 0, Json.Numeral.real_decimal 0 0⟩

def floats : Floats where
  le _ n := 0 ≤ n
  eq _ n := n = 0
  hz _ _ := zero

def ranks : Ranks where
  p50 n := (n + 1) / 2
  p95 n := (95 * n + 99) / 100
  p99 n := (99 * n + 99) / 100

/-- No probe sent, no stream. -/
def idle : Trackers Unit where
  probes := { identity := (), limit := 64, deadlineNs := 1000000000, history := 4096 }
  pacing := { start := 0, hz := 10 }
  streams := []

end Sample

theorem report_agrees_iff_sample :
    let calls : List (Call Unit) := [.interval 5 Sample.idle, .diagnostic 5 [], .interval 9 Sample.idle,
      .finish 9 (Str.lit "duration") true Sample.idle]
    ∃ r, run Sample.floats Sample.ranks (.obj []) 0 calls = .ok r ∧
      ((∃ i, Faithful Sample.floats r calls i) ↔ calls.IsChain fun a b => ¬ Tied a b) :=
  ⟨_, rfl, report_agrees_iff Sample.floats Sample.ranks (.obj []) 0 _ _ rfl (by decide)⟩

/-- A diagnostic and an interval at 5 are both written, and the reader raises. -/
theorem report_disagrees_tie :
    let calls : List (Call Unit) := [.diagnostic 5 [], .interval 5 Sample.idle]
    (calls.IsChain fun a b => a.now ≤ b.now) ∧
      ∃ r, run Sample.floats Sample.ranks (.obj []) 0 calls = .ok r ∧
        ∃ e, inspectReport Sample.floats r.jsonl = .error e := by
  refine ⟨by decide, _, rfl, ?_⟩
  refine (@run_reads Unit Sample.floats Sample.ranks (.obj []) 0 [.diagnostic 5 [], .interval 5 Sample.idle] _ rfl
    (by decide)).2 fun h => ?_
  exact h.rel ⟨rfl, rfl, rfl⟩

end RunReport
end Nucleo.Metrics
