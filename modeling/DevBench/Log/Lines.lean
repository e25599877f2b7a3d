import DevBench.Log.Backlog
import DevBench.Log.Levels
import Mathlib.Data.List.TakeWhile

/-!
# Assembling lines

`line_out` and `dev_bench_log_process` (`dev_bench_log.c`). A record's bytes come in chunks
and are put together in one static buffer, which keeps what earlier lines left in it. A
line is the next piece of the record between newlines, whatever the chunks were.
-/

namespace DevBench.Log

open DevBench.Core DevBench.Wire

/-- `TRUNC_MARK` -/
def truncMark : List UInt8 := ascii " [cut]"

/-- A line as `emit_line` is handed it. -/
abbrev Text := CharArray (dbmMaxLogLineLen + 1)

/-- `cur_line`, `cur_len` and `cur_truncated`. -/
structure Assembly where
  curLine : List UInt8
  curLen : Nat
  curTruncated : Bool

namespace Assembly

/-- All statics are zero. -/
def boot : Assembly := ⟨List.replicate (dbmMaxLogLineLen + 1) 0, 0, false⟩

/-- The line in the buffer is ended and handed on, if there is one. -/
def emit (a : Assembly) : Assembly × List Text :=
  if 0 < a.curLen then
    let line := a.curLine.set a.curLen 0
    ({ a with curLine := line }, [.copy (line.takeWhile (· ≠ 0))])
  else (a, [])

/-- The next line starts. -/
def reset (a : Assembly) : Assembly := { a with curLen := 0, curTruncated := false }

/-- The mark is written over the end of the line. -/
def mark (a : Assembly) : Assembly :=
  { a with
    curTruncated := true
    curLine := a.curLine.take (dbmMaxLogLineLen - truncMark.length) ++ truncMark ++
      a.curLine.drop dbmMaxLogLineLen }

end Assembly

/-- One round of the loop of `line_out`. A `char` above `0x7e` is printable neither where
it is signed nor where it is not. -/
def lineOutByte (a : Assembly) (c : UInt8) : Assembly × List Text :=
  if c = 10 then
    let (a, lines) := a.emit
    (a.reset, lines)
  else
    let c := if c < 0x20 ∨ c > 0x7e then 46 else c
    if a.curLen < dbmMaxLogLineLen then
      ({ a with curLine := a.curLine.set a.curLen c, curLen := a.curLen + 1 }, [])
    else if a.curTruncated = false then (a.mark, [])
    else (a, [])

/-- `line_out`, and the lines it hands to `emit_line`. -/
def lineOut (a : Assembly) : List UInt8 → Assembly × List Text
  | [] => (a, [])
  | c :: data =>
    let (a, lines) := lineOutByte a c
    let (a, more) := lineOut a data
    (a, lines ++ more)

/-- `log_output_msg_process` and `log_output_flush` call `line_out` with one chunk after
the other. -/
def logOutput (a : Assembly) : List (List UInt8) → Assembly × List Text
  | [] => (a, [])
  | chunk :: chunks =>
    let (a, lines) := lineOut a chunk
    let (a, more) := logOutput a chunks
    (a, lines ++ more)

/-- A log message: its level, the index of its source, and the text it is formatted to as
it comes. -/
structure LogRecord where
  level : UInt8
  source : Option Nat
  chunks : List (List UInt8)

/-- What the log thread works with. -/
structure LogThread where
  levels : Levels
  assembly : Assembly

/-- `dev_bench_log_process`, and the lines it hands to `emit_line`. -/
def devBenchLogProcess (t : LogThread) (msg : LogRecord) : LogThread × List Text :=
  if recordPasses t.levels msg.level msg.source then
    let (a, lines) := logOutput t.assembly msg.chunks
    if 0 < a.curLen then
      let (a, last) := a.emit
      ({ t with assembly := a.reset }, lines ++ last)
    else ({ t with assembly := a }, lines)
  else (t, [])

/-- What happens to the backend: a record, or a request for a level. -/
inductive LogEvent where
  | record (msg : LogRecord)
  | setLevel (level : UInt8)

namespace LogThread

/-- The thread before its first event. -/
def boot (levels : Levels) : LogThread := ⟨levels, .boot⟩

/-- One event. -/
def step (t : LogThread) : LogEvent → LogThread
  | .record msg => (devBenchLogProcess t msg).1
  | .setLevel level => { t with levels := (devBenchLogSetLevel t.levels level).1 }

/-- The state behind any number of events. -/
def after (t : LogThread) (events : List LogEvent) : LogThread := events.foldl step t

end LogThread

/-! ## The lines of a text -/

/-- What is forwarded of a byte. -/
def printable (c : UInt8) : UInt8 := if 0x20 ≤ c ∧ c ≤ 0x7e then c else 46

/-- A piece of a text as a line: as it is, or its beginning and the mark. -/
def rendered (piece : List UInt8) : List UInt8 :=
  if piece.length ≤ dbmMaxLogLineLen then piece.map printable
  else (piece.take (dbmMaxLogLineLen - truncMark.length)).map printable ++ truncMark

/-- The lines of a text are its pieces between newlines, without the empty ones. -/
def linesOf (text : List UInt8) : List (List UInt8) :=
  ((text.splitOn 10).filter (· ≠ [])).map rendered

/-- Nothing forwarded is the terminator. -/
theorem printable_ne_zero (c : UInt8) : printable c ≠ 0 := by
  unfold printable
  grind

/-- The mark has six bytes. -/
theorem length_truncMark : truncMark.length = 6 := by decide

/-- A line is cut to what the buffer holds. -/
theorem length_rendered (piece : List UInt8) :
    (rendered piece).length = min piece.length dbmMaxLogLineLen := by
  unfold rendered
  split
  · rw [List.length_map]
    omega
  · have hmax : dbmMaxLogLineLen = 128 := rfl
    rw [List.length_append, List.length_map, List.length_take, length_truncMark]
    omega

/-- A line has no terminator inside. -/
theorem ne_zero_of_mem_rendered {piece : List UInt8} {c : UInt8} (h : c ∈ rendered piece) :
    c ≠ 0 := by
  unfold rendered at h
  split at h
  · obtain ⟨b, _, rfl⟩ := List.mem_map.mp h
    exact printable_ne_zero b
  · rcases List.mem_append.mp h with h | h
    · obtain ⟨b, _, rfl⟩ := List.mem_map.mp h
      exact printable_ne_zero b
    · rintro rfl
      revert h
      decide

/-- A text without a newline is one line, if it is not empty. -/
theorem linesOf_of_notMem {piece : List UInt8} (h : 10 ∉ piece) :
    linesOf piece = if piece = [] then [] else [rendered piece] := by
  rw [linesOf, List.splitOn_eq_singleton h]
  by_cases hnil : piece = []
  · simp [hnil]
  · simp [hnil]

/-- The lines of a text are those of its first line and of the rest. -/
theorem linesOf_append {piece : List UInt8} (h : 10 ∉ piece) (text : List UInt8) :
    linesOf (piece ++ 10 :: text) = linesOf piece ++ linesOf text := by
  rw [linesOf, linesOf, linesOf, List.splitOn_append_cons_self_of_not_mem h,
    List.splitOn_eq_singleton h, ← List.singleton_append, List.filter_append, List.map_append]

/-! One byte more of a piece: -/

/-- One more byte of a line that is not full. -/
theorem rendered_append_of_lt {piece : List UInt8} (h : piece.length < dbmMaxLogLineLen)
    (c : UInt8) : rendered (piece ++ [c]) = rendered piece ++ [printable c] := by
  have hlen : (piece ++ [c]).length ≤ dbmMaxLogLineLen := by
    rw [List.length_append, List.length_singleton]
    omega
  rw [rendered, if_pos hlen, rendered, if_pos (Nat.le_of_lt h), List.map_append]
  rfl

/-- The first byte too many puts the mark at the end of the line. -/
theorem rendered_append_of_eq {piece : List UInt8} (h : piece.length = dbmMaxLogLineLen)
    (c : UInt8) :
    rendered (piece ++ [c]) =
      (rendered piece).take (dbmMaxLogLineLen - truncMark.length) ++ truncMark := by
  have hlen : ¬ (piece ++ [c]).length ≤ dbmMaxLogLineLen := by
    rw [List.length_append, List.length_singleton]
    omega
  rw [rendered, if_neg hlen, rendered, if_pos (Nat.le_of_eq h), ← List.map_take,
    List.take_append_of_le_length (by omega)]

/-- Further bytes change nothing. -/
theorem rendered_append_of_gt {piece : List UInt8} (h : dbmMaxLogLineLen < piece.length)
    (c : UInt8) : rendered (piece ++ [c]) = rendered piece := by
  have hlen : ¬ (piece ++ [c]).length ≤ dbmMaxLogLineLen := by
    rw [List.length_append, List.length_singleton]
    omega
  rw [rendered, if_neg hlen, rendered, if_neg (Nat.not_le.mpr h),
    List.take_append_of_le_length (by omega)]

/-! ## The line in the buffer -/

/-- The buffer holds the line of `piece`, and behind it whatever it held before. -/
structure Assembly.Holds (a : Assembly) (piece : List UInt8) : Prop where
  length_eq : a.curLine.length = dbmMaxLogLineLen + 1
  curLen_eq : a.curLen = min piece.length dbmMaxLogLineLen
  truncated_iff : a.curTruncated = true ↔ dbmMaxLogLineLen < piece.length
  take_eq : a.curLine.take a.curLen = rendered piece

namespace Assembly.Holds

variable {a : Assembly} {piece : List UInt8}

/-- Nothing is held at boot. -/
theorem boot : Assembly.boot.Holds [] := ⟨by simp [Assembly.boot], rfl, by decide, rfl⟩

/-- There is room for the terminator. -/
theorem curLen_lt (h : a.Holds piece) : a.curLen < a.curLine.length := by
  rw [h.length_eq, h.curLen_eq]
  omega

/-- Something is held as soon as a byte came. -/
theorem curLen_pos_iff (h : a.Holds piece) : 0 < a.curLen ↔ piece ≠ [] := by
  have hmax : dbmMaxLogLineLen = 128 := rfl
  rw [h.curLen_eq, ← List.length_pos_iff]
  omega

/-- The line is emitted if it is not empty, and the buffer can take the next one. -/
theorem emit (h : a.Holds piece) :
    a.emit.2.map CharArray.bytes = (if piece = [] then [] else [rendered piece]) ∧
      a.emit.1.reset.Holds [] := by
  have hreset : ∀ line : List UInt8, line.length = dbmMaxLogLineLen + 1 →
      Assembly.Holds ⟨line, 0, false⟩ [] :=
    fun line hline => ⟨hline, rfl, by simp, rfl⟩
  unfold Assembly.emit
  by_cases hnil : piece = []
  · have hlen : ¬ 0 < a.curLen := fun hpos => h.curLen_pos_iff.mp hpos hnil
    rw [if_neg hlen, if_pos hnil]
    exact ⟨rfl, hreset _ h.length_eq⟩
  · have hstring : (a.curLine.set a.curLen 0).takeWhile (· ≠ 0) = rendered piece := by
      rw [List.set_eq_take_append_cons_drop, if_pos h.curLen_lt, h.take_eq,
        List.takeWhile_append_of_pos]
      · simp
      · intro c hc
        simpa using ne_zero_of_mem_rendered hc
    have hfits : (rendered piece).take dbmMaxLogLineLen = rendered piece := by
      apply List.take_of_length_le
      rw [length_rendered]
      exact Nat.min_le_right _ _
    rw [if_pos (h.curLen_pos_iff.mpr hnil), if_neg hnil]
    simp only [List.map_cons, List.map_nil, CharArray.copy, hstring, hfits, true_and]
    exact hreset _ (by rw [List.length_set, h.length_eq])

/-- A byte stored behind the others. -/
theorem store (h : a.Holds piece) (hroom : piece.length < dbmMaxLogLineLen) (c : UInt8) :
    Assembly.Holds ⟨a.curLine.set a.curLen (printable c), a.curLen + 1, a.curTruncated⟩
      (piece ++ [c]) := by
  have hlen : a.curLen = piece.length := by
    rw [h.curLen_eq]
    omega
  refine ⟨by rw [List.length_set, h.length_eq], ?_, ?_, ?_⟩
  · simp only [hlen, List.length_append, List.length_singleton]
    omega
  · rw [h.truncated_iff, List.length_append, List.length_singleton]
    omega
  · have hshort : (a.curLine.take a.curLen).length ≤ a.curLen := List.length_take_le _ _
    rw [rendered_append_of_lt hroom, ← h.take_eq]
    simp [List.take_set, List.take_add_one, List.set_eq_of_length_le hshort, h.curLen_lt]

/-- The first byte there is no room for. -/
theorem mark (h : a.Holds piece) (hfull : piece.length = dbmMaxLogLineLen) (c : UInt8) :
    a.mark.Holds (piece ++ [c]) := by
  have hmax : dbmMaxLogLineLen = 128 := rfl
  have hlen : a.curLen = dbmMaxLogLineLen := by
    rw [h.curLen_eq, hfull, Nat.min_self]
  have hmark : a.mark.curLine.length = dbmMaxLogLineLen + 1 := by
    have hline := h.length_eq
    simp only [Assembly.mark, List.length_append, List.length_take, List.length_drop,
      length_truncMark]
    omega
  refine ⟨hmark, ?_, ?_, ?_⟩
  · simp [Assembly.mark, hlen, hfull]
  · simp [Assembly.mark, hfull]
  · have htake : (a.curLine.take (dbmMaxLogLineLen - truncMark.length) ++ truncMark).length =
        dbmMaxLogLineLen := by
      have hline := h.length_eq
      rw [List.length_append, List.length_take, length_truncMark]
      omega
    rw [rendered_append_of_eq hfull, ← h.take_eq, List.take_take,
      Nat.min_eq_left (by rw [hlen]; exact Nat.sub_le _ _)]
    simp only [Assembly.mark, hlen]
    exact List.take_left' htake

/-- A byte behind the mark. -/
theorem discard (h : a.Holds piece) (hover : dbmMaxLogLineLen < piece.length) (c : UInt8) :
    a.Holds (piece ++ [c]) := by
  refine ⟨h.length_eq, ?_, ?_, ?_⟩
  · rw [h.curLen_eq, List.length_append]
    omega
  · rw [h.truncated_iff, List.length_append]
    omega
  · rw [h.take_eq, rendered_append_of_gt hover]

/-- A byte that is no newline is the next one of the piece. -/
theorem push (h : a.Holds piece) {c : UInt8} (hc : c ≠ 10) :
    (lineOutByte a c).2 = [] ∧ (lineOutByte a c).1.Holds (piece ++ [c]) := by
  have hprint : (if c < 0x20 ∨ c > 0x7e then 46 else c) = printable c := by
    unfold printable
    grind
  have hlen := h.curLen_eq
  unfold lineOutByte
  simp only [hc, if_false, hprint]
  by_cases hroom : piece.length < dbmMaxLogLineLen
  · rw [if_pos (show a.curLen < dbmMaxLogLineLen by omega)]
    exact ⟨rfl, h.store hroom c⟩
  · rw [if_neg (show ¬ a.curLen < dbmMaxLogLineLen by omega)]
    by_cases htrunc : a.curTruncated = true
    · rw [if_neg (by simp [htrunc])]
      exact ⟨rfl, h.discard (h.truncated_iff.mp htrunc) c⟩
    · have hfull : piece.length = dbmMaxLogLineLen := by
        have hle := mt h.truncated_iff.mpr htrunc
        omega
      rw [if_pos (by simpa using htrunc)]
      exact ⟨rfl, h.mark hfull c⟩

end Assembly.Holds

/-! ## Records -/

/-- A chunk goes on with the piece in the buffer: the lines that end inside it are
emitted, and the piece behind the last newline is in the buffer. -/
theorem lineOut_lines (data : List UInt8) : ∀ {a : Assembly} {piece : List UInt8},
    a.Holds piece → 10 ∉ piece →
      ∃ rest, (lineOut a data).1.Holds rest ∧ 10 ∉ rest ∧ ∀ text,
        (lineOut a data).2.map CharArray.bytes ++ linesOf (rest ++ text) =
          linesOf (piece ++ (data ++ text)) := by
  induction data with
  | nil =>
    intro a piece h hpiece
    exact ⟨piece, h, hpiece, fun text => rfl⟩
  | cons c data ih =>
    intro a piece h hpiece
    rw [lineOut]
    by_cases hc : c = 10
    · subst hc
      obtain ⟨hlines, hnext⟩ := h.emit
      have hbyte : lineOutByte a 10 = (a.emit.1.reset, a.emit.2) := rfl
      obtain ⟨rest, hrest, hnot, htext⟩ := ih hnext List.not_mem_nil
      refine ⟨rest, by rw [hbyte]; exact hrest, hnot, fun text => ?_⟩
      rw [hbyte, List.cons_append, linesOf_append hpiece, linesOf_of_notMem hpiece, ← hlines,
        List.map_append, List.append_assoc, htext text, List.nil_append]
    · obtain ⟨hquiet, hpush⟩ := h.push hc
      have hmore : 10 ∉ piece ++ [c] := by
        simp [hpiece, Ne.symm hc]
      obtain ⟨rest, hrest, hnot, htext⟩ := ih hpush hmore
      refine ⟨rest, hrest, hnot, fun text => ?_⟩
      simp only [hquiet, List.nil_append, htext text, List.append_assoc, List.cons_append]

/-- The chunks of a record leave the same lines as all its bytes at once. -/
theorem logOutput_lines (chunks : List (List UInt8)) : ∀ {a : Assembly} {piece : List UInt8},
    a.Holds piece → 10 ∉ piece →
      ∃ rest, (logOutput a chunks).1.Holds rest ∧ 10 ∉ rest ∧
        (logOutput a chunks).2.map CharArray.bytes ++ linesOf rest =
          linesOf (piece ++ chunks.flatten) := by
  induction chunks with
  | nil =>
    intro a piece h hpiece
    exact ⟨piece, h, hpiece, by simp [logOutput]⟩
  | cons chunk chunks ih =>
    intro a piece h hpiece
    obtain ⟨mid, hmid, hnot, htext⟩ := lineOut_lines chunk h hpiece
    obtain ⟨rest, hrest, hnot', hlines⟩ := ih hmid hnot
    refine ⟨rest, hrest, hnot', ?_⟩
    rw [logOutput, List.map_append, List.append_assoc, hlines, htext chunks.flatten,
      List.flatten_cons]

/-- What a record that is forwarded is made of: its lines, none of an earlier record and
none left for a later one. -/
theorem devBenchLogProcess_lines {t : LogThread} (h : t.assembly.Holds []) (msg : LogRecord) :
    (devBenchLogProcess t msg).2.map CharArray.bytes =
        (if recordPasses t.levels msg.level msg.source then linesOf msg.chunks.flatten else []) ∧
      (devBenchLogProcess t msg).1.assembly.Holds [] := by
  unfold devBenchLogProcess
  by_cases hpass : recordPasses t.levels msg.level msg.source = true
  · obtain ⟨rest, hrest, hnot, hlines⟩ := logOutput_lines msg.chunks h List.not_mem_nil
    rw [List.nil_append, linesOf_of_notMem hnot] at hlines
    rw [if_pos hpass, if_pos hpass]
    simp only
    by_cases hnil : rest = []
    · have hempty : ¬ 0 < (logOutput t.assembly msg.chunks).1.curLen := fun hpos =>
        hrest.curLen_pos_iff.mp hpos hnil
      rw [if_neg hempty, ← hlines, if_pos hnil, List.append_nil]
      exact ⟨rfl, hnil ▸ hrest⟩
    · obtain ⟨hlast, hnext⟩ := hrest.emit
      rw [if_pos (hrest.curLen_pos_iff.mpr hnil), ← hlines, ← hlast, List.map_append]
      exact ⟨rfl, hnext⟩
  · rw [if_neg hpass, if_neg hpass]
    exact ⟨rfl, h⟩

/-- Between two records nothing is in the buffer. -/
theorem holds_after {t : LogThread} (h : t.assembly.Holds []) (events : List LogEvent) :
    (t.after events).assembly.Holds [] := by
  induction events generalizing t with
  | nil => exact h
  | cons event events ih =>
    apply ih
    cases event with
    | record msg => exact (devBenchLogProcess_lines h msg).2
    | setLevel level => exact h

/-- Behind any records and requests for a level, the lines emitted for a record are those
of its text, however it was cut into chunks, if the backend forwards it. -/
theorem record_lines (levels : Levels) (events : List LogEvent) (msg : LogRecord) :
    let t := (LogThread.boot levels).after events
    (devBenchLogProcess t msg).2.map CharArray.bytes =
      if recordPasses t.levels msg.level msg.source then linesOf msg.chunks.flatten else [] :=
  (devBenchLogProcess_lines (holds_after .boot events) msg).1

/-! ## The backlog behind it -/

/-- The steps of `emit_line` on one line after the other. -/
def emitMoves {κ : Type} (lines : List Text) : List (Move κ) :=
  lines.flatMap fun text => [.readSink text, .finishLine]

/-- `emit_line` gets through the lines it is handed, in their order. -/
theorem emitted_of_emitMoves {κ : Type} (lines : List Text) : ∀ {s : Backend κ},
    s.emitting = none →
      ∃ s', play Log.step (fun _ _ => True) s (emitMoves lines) = some s' ∧ s'.emitting = none ∧
        s'.emitted.map Line.text = s.emitted.map Line.text ++ lines := by
  induction lines with
  | nil =>
    intro s h
    exact ⟨s, rfl, h, by simp⟩
  | cons text lines ih =>
    intro s h
    let line : Line := ⟨s.emitted.length, text⟩
    let s₁ : Backend κ := { s with emitting := some (line, s.logSink) }
    have hread : Log.step s (.readSink text) = some s₁ := by
      simp only [Log.step, h]
      rfl
    have hfinish : Log.step s₁ .finishLine = some (s₁.finishLine line s.logSink) := rfl
    have hover : (s₁.finishLine line s.logSink).emitting = none := rfl
    obtain ⟨s', hplay, hidle, htexts⟩ := ih hover
    refine ⟨s', ?_, hidle, ?_⟩
    · simp only [emitMoves, List.flatMap_cons, List.cons_append, List.nil_append, play, if_true,
        hread, hfinish, Option.bind_some]
      exact hplay
    · rw [htexts]
      simp [Backend.finishLine, line, s₁]

/-- A record that is forwarded ends up as its lines in what `emit_line` is through with. -/
theorem emitted_of_record {κ : Type} {t : LogThread} (h : t.assembly.Holds []) {msg : LogRecord}
    (hpass : recordPasses t.levels msg.level msg.source = true) {s : Backend κ}
    (hidle : s.emitting = none) :
    ∃ s', play Log.step (fun _ _ => True) s (emitMoves (devBenchLogProcess t msg).2) = some s' ∧
      s'.emitted.map (fun line => line.text.bytes) =
        s.emitted.map (fun line => line.text.bytes) ++ linesOf msg.chunks.flatten := by
  obtain ⟨s', hplay, _, htexts⟩ := emitted_of_emitMoves (devBenchLogProcess t msg).2 hidle
  have hlines := (devBenchLogProcess_lines h msg).1
  rw [if_pos hpass] at hlines
  have hbytes := congrArg (List.map CharArray.bytes) htexts
  rw [List.map_append, hlines, List.map_map, List.map_map] at hbytes
  exact ⟨s', hplay, hbytes⟩

end DevBench.Log
