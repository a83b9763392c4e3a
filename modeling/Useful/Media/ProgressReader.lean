/-
# Reading progress lines

`BoundedProgressReader` reads the output of the encoder line by line. What has been read of a line
stays in the reader while the next bytes are awaited, so that a call may be dropped there and
started again. The results depend on the bytes alone, not on how the pipe delivers them.
-/

import Useful.Math.Transition
import Useful.Math.Utf8

namespace Useful.Media

open Useful.Math

def MAX_PROGRESS_LINE_BYTES : Nat := 64 * 1024

/-- What a call of `next_line` returns. -/
inductive ProgressResult
  | line (text : List Char)
  | done
  | outputTooLarge
  deriving DecidableEq

/-! ## The reader -/

/-- The reader with the bytes that its source has buffered, the reads that the pipe will deliver,
whether a call is under way, and the results so far. -/
structure ProgressReader where
  pending : List Nat
  buffered : List Nat
  reads : List (List Nat)
  calling : Bool
  results : List ProgressResult
  deriving DecidableEq

namespace ProgressReader

def new (reads : List (List Nat)) : ProgressReader :=
  { pending := [], buffered := [], reads := reads, calling := false, results := [] }

/-- `self.reader.fill_buf().await`: what is buffered, or else the next read. Nothing is left at the
end of the stream. -/
def fillBuf (r : ProgressReader) : ProgressReader :=
  if r.buffered = [] then
    match r.reads with
    | [] => r
    | read :: reads => { r with buffered := read, reads := reads }
  else r

/-- `while matches!(self.pending.last(), Some(b'\n' | b'\r'))` -/
def popLineEnd (bytes : List Nat) : List Nat :=
  (bytes.reverse.dropWhile fun byte => byte == 10 || byte == 13).reverse

/-- The call returns. -/
def return_ (r : ProgressReader) (result : ProgressResult) : ProgressReader :=
  { r with calling := false, results := r.results ++ [result] }

/-- One turn of the loop of `next_line`, once there is something to read. -/
def turn (r : ProgressReader) : ProgressReader :=
  if r.buffered = [] then
    if r.pending = [] then r.return_ .done
    else { r with pending := [] }.return_ (.line (fromUtf8Lossy r.pending))
  else
    let take := (r.buffered.idxOf? 10).elim r.buffered.length (· + 1)
    if MAX_PROGRESS_LINE_BYTES < r.pending.length + take then r.return_ .outputTooLarge
    else
      let pending := r.pending ++ r.buffered.take take
      let consumed := { r with pending := pending, buffered := r.buffered.drop take }
      if r.buffered[take - 1]? = some 10 then
        { consumed with pending := [] }.return_ (.line (fromUtf8Lossy (popLineEnd pending)))
      else consumed

/-- What may happen to the reader. -/
inductive Event
  | call
  | turn
  | cancel
  deriving DecidableEq

/-- A call is only cancelled while it waits, that is when nothing is buffered. -/
def next (r : ProgressReader) : Event → Option ProgressReader
  | .call => if r.calling then none else some { r with calling := true }
  | .turn => if r.calling then some r.fillBuf.turn else none
  | .cancel => if r.calling ∧ r.buffered = [] then some { r with calling := false } else none

/-- The bytes that no result has accounted for. -/
def remaining (r : ProgressReader) : List Nat := r.pending ++ (r.buffered ++ r.reads.flatten)

end ProgressReader

/-! ## What the bytes say -/

/-- The bytes up to the first newline, which is included, or all of them. -/
@[grind =]
def firstLine : List Nat → List Nat
  | [] => []
  | byte :: bytes => if byte = 10 then [10] else byte :: firstLine bytes

/-- The text of a line: without the newline and the carriage returns before it, where it is
terminated. -/
def lineText (line : List Nat) : List Char :=
  fromUtf8Lossy (if line.getLast? = some 10 then
    (line.dropLast.reverse.dropWhile (· == 13)).reverse else line)

/-- The result of a call after some others: a line of the stream, its end, or the error at the first
line that is too long. -/
@[grind =]
def expected : Nat → List Nat → ProgressResult
  | calls, bytes =>
      if bytes = [] then .done
      else if MAX_PROGRESS_LINE_BYTES < (firstLine bytes).length then .outputTooLarge
      else match calls with
        | 0 => .line (lineText (firstLine bytes))
        | calls + 1 => expected calls (bytes.drop (firstLine bytes).length)

/-! ## Lines -/

theorem firstLine_append {front back : List Nat} (h : 10 ∉ front) :
    firstLine (front ++ back) = front ++ firstLine back := by
  induction front with
  | nil => rfl
  | cons byte front ih =>
      rw [List.mem_cons, not_or] at h
      rw [List.cons_append, firstLine, if_neg (Ne.symm h.1), ih h.2, List.cons_append]

theorem firstLine_append_of_mem {front back : List Nat} (h : 10 ∈ front) :
    firstLine (front ++ back) = firstLine front := by
  induction front with
  | nil => cases h
  | cons byte front ih =>
      rw [List.cons_append, firstLine, firstLine]
      split_ifs with hbyte
      · rfl
      · rw [ih ((List.mem_cons.mp h).resolve_left (Ne.symm hbyte))]

theorem firstLine_eq_self {bytes : List Nat} (h : 10 ∉ bytes) : firstLine bytes = bytes := by
  have happend := @firstLine_append _ [] h
  rwa [List.append_nil, firstLine, List.append_nil] at happend

/-- How far the reader takes what is buffered. -/
theorem take_firstLine (bytes : List Nat) :
    bytes.take ((bytes.idxOf? 10).elim bytes.length (· + 1)) = firstLine bytes ∧
      (bytes.idxOf? 10).elim bytes.length (· + 1) = (firstLine bytes).length := by
  induction bytes with
  | nil => exact ⟨rfl, rfl⟩
  | cons byte bytes ih =>
      rw [List.idxOf?_cons, firstLine]
      by_cases hbyte : byte = 10
      · simp [hbyte]
      · rw [if_neg (by simpa using hbyte), if_neg hbyte]
        cases hindex : bytes.idxOf? 10 with
        | none =>
            rw [hindex] at ih
            simpa using ih
        | some position =>
            rw [hindex] at ih
            simpa using ih

/-- A line with a newline ends in it and has no other. -/
theorem firstLine_of_mem {bytes : List Nat} (h : 10 ∈ bytes) :
    ∃ content, 10 ∉ content ∧ firstLine bytes = content ++ [10] := by
  induction bytes with
  | nil => cases h
  | cons byte bytes ih =>
      rw [firstLine]
      by_cases hbyte : byte = 10
      · exact ⟨[], by simp, by rw [if_pos hbyte]; rfl⟩
      · obtain ⟨content, hcontent, hline⟩ :=
          ih ((List.mem_cons.mp h).resolve_left (Ne.symm hbyte))
        refine ⟨byte :: content, ?_, by rw [if_neg hbyte, hline]; rfl⟩
        rw [List.mem_cons, not_or]
        exact ⟨Ne.symm hbyte, hcontent⟩

theorem firstLine_isPrefixOf (bytes : List Nat) : firstLine bytes <+: bytes := by
  rw [← (take_firstLine bytes).1]
  exact List.take_prefix _ _

/-- Where there is a newline, the reader finds it at the end of what it takes. -/
theorem getElem?_firstLine {bytes : List Nat} (h : 10 ∈ bytes) :
    bytes[(firstLine bytes).length - 1]? = some 10 := by
  obtain ⟨content, -, hline⟩ := firstLine_of_mem h
  obtain ⟨back, hback⟩ := firstLine_isPrefixOf bytes
  have hget : (firstLine bytes ++ back)[(firstLine bytes).length - 1]? = some 10 := by
    rw [hline]
    simp
  rwa [hback] at hget

theorem firstLine_ne_nil {bytes : List Nat} (h : bytes ≠ []) : firstLine bytes ≠ [] := by
  cases bytes with
  | nil => exact absurd rfl h
  | cons byte bytes =>
      rw [firstLine]
      split_ifs <;> simp

/-- Popping newlines and carriage returns leaves the text of a terminated line. -/
theorem lineText_append_newline {content : List Nat} (h : 10 ∉ content) :
    lineText (content ++ [10]) = fromUtf8Lossy (ProgressReader.popLineEnd (content ++ [10])) := by
  have hdrop (bytes : List Nat) (hbytes : 10 ∉ bytes) :
      bytes.dropWhile (fun byte => byte == 10 || byte == 13) = bytes.dropWhile (· == 13) := by
    induction bytes with
    | nil => rfl
    | cons byte bytes ih =>
        rw [List.mem_cons, not_or] at hbytes
        rw [List.dropWhile_cons, List.dropWhile_cons, ih hbytes.2,
          beq_eq_false_iff_ne.mpr (Ne.symm hbytes.1), Bool.false_or]
  rw [lineText, if_pos List.getLast?_concat, List.dropLast_concat, ProgressReader.popLineEnd,
    List.reverse_append, List.reverse_singleton, List.singleton_append,
    List.dropWhile_cons_of_pos (by rfl), hdrop _ (by simpa using h)]

/-- A line without a newline is returned as it is. -/
theorem lineText_of_not_mem {line : List Nat} (h : 10 ∉ line) : lineText line = fromUtf8Lossy line := by
  rw [lineText, if_neg]
  exact fun hlast => h (List.mem_of_getLast? hlast)

/-! ## What is expected -/

theorem expected_nil (calls : Nat) : expected calls [] = .done := by
  cases calls <;> simp [expected]

theorem expected_of_lt {bytes : List Nat} (hne : bytes ≠ [])
    (h : MAX_PROGRESS_LINE_BYTES < (firstLine bytes).length) (calls : Nat) :
    expected calls bytes = .outputTooLarge := by
  cases calls <;> rw [expected, if_neg hne, if_pos h]

theorem expected_zero {bytes : List Nat} (hne : bytes ≠ [])
    (h : (firstLine bytes).length ≤ MAX_PROGRESS_LINE_BYTES) :
    expected 0 bytes = .line (lineText (firstLine bytes)) := by
  rw [expected, if_neg hne, if_neg (Nat.not_lt.mpr h)]

theorem expected_succ {bytes : List Nat} (hne : bytes ≠ [])
    (h : (firstLine bytes).length ≤ MAX_PROGRESS_LINE_BYTES) (calls : Nat) :
    expected (calls + 1) bytes = expected calls (bytes.drop (firstLine bytes).length) := by
  rw [expected, if_neg hne, if_neg (Nat.not_lt.mpr h)]

/-! ## One step -/

namespace ProgressReader

/-- What holds of the reader on every run over a stream: nothing is empty that is still to be read,
a line is kept without its end and within the limit, and what remains gives the results that are
still to come. -/
structure Follows (stream : List Nat) (r : ProgressReader) : Prop where
  reads : ∀ read ∈ r.reads, read ≠ []
  pending : 10 ∉ r.pending
  bounded : r.pending.length ≤ MAX_PROGRESS_LINE_BYTES
  results : r.results = (List.range r.results.length).map (expected · stream)
  rest : ∀ calls, expected calls r.remaining = expected (r.results.length + calls) stream

theorem follows_new {reads : List (List Nat)} (h : ∀ read ∈ reads, read ≠ []) :
    (new reads).Follows reads.flatten where
  reads := h
  pending := by simp [new]
  bounded := Nat.zero_le _
  results := rfl
  rest calls := by simp [new, remaining]

/-- A result that is the expected one is added. -/
theorem Follows.return_ {stream : List Nat} {r r' : ProgressReader} {result : ProgressResult}
    (h : r.Follows stream) (hreads : ∀ read ∈ r'.reads, read ≠ []) (hpending : 10 ∉ r'.pending)
    (hbounded : r'.pending.length ≤ MAX_PROGRESS_LINE_BYTES) (hresults : r'.results = r.results)
    (hresult : expected 0 r.remaining = result)
    (hrest : ∀ calls, expected calls r'.remaining = expected (calls + 1) r.remaining) :
    (r'.return_ result).Follows stream where
  reads := hreads
  pending := hpending
  bounded := hbounded
  results := by
    have hlength : (r'.return_ result).results.length = r.results.length + 1 := by
      show (r'.results ++ [result]).length = _
      rw [List.length_append, List.length_singleton, hresults]
    rw [hlength, List.range_succ, List.map_append, ← h.results, List.map_singleton]
    show r'.results ++ [result] = _
    rw [hresults, ← hresult, h.rest 0, Nat.add_zero]
  rest calls := by
    show expected calls r'.remaining = expected ((r'.results ++ [result]).length + calls) stream
    rw [hrest, h.rest, List.length_append, List.length_singleton, hresults, Nat.add_assoc,
      Nat.add_comm calls 1]

theorem Follows.fillBuf {stream : List Nat} {r : ProgressReader} (h : r.Follows stream) :
    r.fillBuf.Follows stream ∧ (r.fillBuf.buffered = [] → r.fillBuf.reads = []) := by
  unfold ProgressReader.fillBuf
  split_ifs with hbuffered
  · cases hreads : r.reads with
    | nil => exact ⟨h, fun _ => hreads⟩
    | cons read reads =>
        have hall := h.reads
        rw [hreads, List.forall_mem_cons] at hall
        refine ⟨⟨hall.2, h.pending, h.bounded, h.results, fun calls => ?_⟩,
          fun hnil => absurd hnil hall.1⟩
        rw [← h.rest calls]
        simp only [remaining, hbuffered, hreads, List.flatten_cons, List.nil_append]
  · exact ⟨h, fun hnil => absurd hnil hbuffered⟩

/-- At the end of the stream, what is pending is the last line. -/
theorem Follows.turn_end {stream : List Nat} {r : ProgressReader} (h : r.Follows stream)
    (hbuffered : r.buffered = []) (hreads : r.reads = []) : r.turn.Follows stream := by
  have hremaining : r.remaining = r.pending := by
    rw [remaining, hbuffered, hreads, List.flatten_nil, List.append_nil, List.append_nil]
  unfold ProgressReader.turn
  rw [if_pos hbuffered]
  split_ifs with hpending
  · apply h.return_ h.reads h.pending h.bounded rfl
    · rw [hremaining, hpending, expected_nil]
    · intro calls
      rw [hremaining, hpending, expected_nil, expected_nil]
  · have hline := firstLine_eq_self h.pending
    have hbounded : (firstLine r.pending).length ≤ MAX_PROGRESS_LINE_BYTES := by
      rw [hline]
      exact h.bounded
    refine h.return_ h.reads List.not_mem_nil (Nat.zero_le _) ?_ ?_ ?_
    · rfl
    · rw [hremaining, expected_zero hpending hbounded, hline, lineText_of_not_mem h.pending]
    · intro calls
      rw [hremaining, expected_succ hpending hbounded, hline, List.drop_length]
      simp only [remaining, hbuffered, hreads, List.flatten_nil, List.append_nil]

/-- The line that the next turn extends begins with what is pending and goes at least to the end of
what is buffered, or to the newline there. -/
theorem firstLine_remaining {r : ProgressReader} (hpending : 10 ∉ r.pending) :
    firstLine r.remaining = r.pending ++ firstLine (r.buffered ++ r.reads.flatten) ∧
      firstLine r.buffered <+: firstLine (r.buffered ++ r.reads.flatten) := by
  refine ⟨firstLine_append hpending, ?_⟩
  by_cases hmem : 10 ∈ r.buffered
  · exact (firstLine_append_of_mem hmem).symm ▸ List.prefix_rfl
  · rw [firstLine_append hmem, firstLine_eq_self hmem]
    exact List.prefix_append _ _

theorem Follows.turn {stream : List Nat} {r : ProgressReader} (h : r.Follows stream)
    (hend : r.buffered = [] → r.reads = []) : r.turn.Follows stream := by
  by_cases hbuffered : r.buffered = []
  · exact h.turn_end hbuffered (hend hbuffered)
  obtain ⟨htake, hlength⟩ := take_firstLine r.buffered
  obtain ⟨hline, hpre⟩ := firstLine_remaining h.pending
  have hremaining : r.remaining ≠ [] := by simp [remaining, hbuffered]
  unfold ProgressReader.turn
  rw [if_neg hbuffered]
  simp only [hlength] at htake ⊢
  split_ifs with hlong hnewline
  · -- The line is too long already, whatever follows.
    have hlong' : MAX_PROGRESS_LINE_BYTES < (firstLine r.remaining).length := by
      rw [hline, List.length_append]
      exact hlong.trans_le (Nat.add_le_add_left hpre.length_le _)
    apply h.return_ h.reads h.pending h.bounded rfl
    · exact expected_of_lt hremaining hlong' 0
    · intro calls
      rw [expected_of_lt hremaining hlong', expected_of_lt hremaining hlong']
  · -- The newline is buffered and completes the line.
    have hmem : 10 ∈ r.buffered := List.mem_of_getElem? hnewline
    obtain ⟨content, hcontent, hfirst⟩ := firstLine_of_mem hmem
    have hall : firstLine r.remaining = r.pending ++ content ++ [10] := by
      rw [hline, firstLine_append_of_mem hmem, hfirst, List.append_assoc]
    have hbounded : (firstLine r.remaining).length ≤ MAX_PROGRESS_LINE_BYTES := by
      rw [hline, firstLine_append_of_mem hmem, List.length_append]
      exact Nat.le_of_not_lt hlong
    have hno : 10 ∉ r.pending ++ content := by
      rw [List.mem_append, not_or]
      exact ⟨h.pending, hcontent⟩
    refine h.return_ h.reads List.not_mem_nil (Nat.zero_le _) ?_ ?_ ?_
    · rfl
    · rw [expected_zero hremaining hbounded, hall, lineText_append_newline hno, htake, hfirst,
        List.append_assoc]
    · intro calls
      rw [expected_succ hremaining hbounded, hline, firstLine_append_of_mem hmem,
        List.length_append]
      have hdrop : r.remaining.drop (r.pending.length + (firstLine r.buffered).length) =
          r.buffered.drop (firstLine r.buffered).length ++ r.reads.flatten := by
        rw [remaining, List.drop_append, List.drop_eq_nil_of_le (Nat.le_add_right _ _),
          Nat.add_sub_cancel_left, List.nil_append,
          List.drop_append_of_le_length (firstLine_isPrefixOf _).length_le]
      rw [hdrop]
      rfl
  · -- All that is buffered belongs to the line, and more is to come.
    have hmem : 10 ∉ r.buffered := fun hmem => hnewline (getElem?_firstLine hmem)
    have hfirst := firstLine_eq_self hmem
    rw [hfirst] at hlong ⊢
    rw [List.take_length, List.drop_length]
    refine ⟨h.reads, ?_, ?_, h.results, fun calls => ?_⟩
    · rw [List.mem_append, not_or]
      exact ⟨h.pending, hmem⟩
    · rw [List.length_append]
      exact Nat.le_of_not_lt hlong
    · rw [← h.rest calls]
      simp only [remaining, List.nil_append, List.append_assoc]

/-! ## Runs -/

theorem Follows.next {stream : List Nat} {r r' : ProgressReader} {event : Event}
    (h : r.Follows stream) (hstep : r.next event = some r') : r'.Follows stream := by
  cases event with
  | call =>
      rw [ProgressReader.next] at hstep
      split_ifs at hstep
      cases hstep
      exact ⟨h.reads, h.pending, h.bounded, h.results, h.rest⟩
  | turn =>
      rw [ProgressReader.next] at hstep
      split_ifs at hstep
      cases hstep
      exact h.fillBuf.1.turn h.fillBuf.2
  | cancel =>
      rw [ProgressReader.next] at hstep
      split_ifs at hstep
      cases hstep
      exact ⟨h.reads, h.pending, h.bounded, h.results, h.rest⟩

theorem Follows.run {stream : List Nat} {r r' : ProgressReader} {events : List Event}
    (h : r.Follows stream) (hrun : Run (StepsTo ProgressReader.next) r events r') :
    r'.Follows stream :=
  hrun.invariant (fun _ _ _ hr hstep => hr.next hstep) h

/-- A turn returns, or it takes in all that is buffered. -/
theorem turn_cases (r : ProgressReader) :
    r.turn.calling = false ∧ r.turn.results.length = r.results.length + 1 ∨
      r.turn.calling = r.calling ∧ r.turn.results = r.results ∧ r.turn.buffered = [] ∧
        r.turn.reads = r.reads ∧ r.buffered ≠ [] := by
  unfold ProgressReader.turn
  obtain ⟨htake, hlength⟩ := take_firstLine r.buffered
  simp only [hlength]
  split_ifs with hbuffered hpending hlong hnewline
  · exact .inl ⟨rfl, by simp [return_]⟩
  · exact .inl ⟨rfl, by simp [return_]⟩
  · exact .inl ⟨rfl, by simp [return_]⟩
  · exact .inl ⟨rfl, by simp [return_]⟩
  · have hfirst := firstLine_eq_self fun hmem => hnewline (getElem?_firstLine hmem)
    exact .inr ⟨rfl, rfl, by rw [hfirst, List.drop_length], rfl, hbuffered⟩

/-- A call returns when the pipe delivers: it takes a turn for each read at most, and one more for
what is buffered and one for the end. -/
theorem exists_turns_return {r : ProgressReader} (hcalling : r.calling = true) :
    ∃ turns r', turns ≤ r.reads.length + 2 ∧
      Run (StepsTo ProgressReader.next) r (List.replicate turns .turn) r' ∧
      r'.calling = false ∧ r'.results.length = r.results.length + 1 := by
  have hstep (r : ProgressReader) (hcalling : r.calling = true) :
      StepsTo ProgressReader.next r .turn r.fillBuf.turn := by
    rw [StepsTo, ProgressReader.next, if_pos hcalling]
  have hfill (r : ProgressReader) : r.fillBuf.calling = r.calling ∧ r.fillBuf.results = r.results := by
    unfold ProgressReader.fillBuf
    split_ifs
    · split <;> exact ⟨rfl, rfl⟩
    · exact ⟨rfl, rfl⟩
  -- With nothing buffered, every turn that does not return uses up a read.
  have hempty (reads : List (List Nat)) (r : ProgressReader) (hreads : r.reads = reads)
      (hbuffered : r.buffered = []) (hcalling : r.calling = true) :
      ∃ turns r', turns ≤ reads.length + 1 ∧
        Run (StepsTo ProgressReader.next) r (List.replicate turns .turn) r' ∧
        r'.calling = false ∧ r'.results.length = r.results.length + 1 := by
    induction reads generalizing r with
    | nil =>
        have hsame : r.fillBuf = r := by
          unfold ProgressReader.fillBuf
          rw [if_pos hbuffered, hreads]
        refine ⟨1, r.fillBuf.turn, by simp, .single (hstep r hcalling), ?_⟩
        rw [hsame]
        rcases r.turn_cases with hreturn | ⟨-, -, -, -, hno⟩
        · exact hreturn
        · exact absurd hbuffered hno
    | cons read reads ih =>
        have hrest : r.fillBuf.reads = reads := by
          unfold ProgressReader.fillBuf
          rw [if_pos hbuffered, hreads]
        obtain ⟨hcalling', hresults'⟩ := hfill r
        rcases r.fillBuf.turn_cases with ⟨hreturned, hlength⟩ | ⟨hgoes, hresults, hnone, hsame, -⟩
        · refine ⟨1, r.fillBuf.turn, by simp, .single (hstep r hcalling), hreturned, ?_⟩
          rw [hlength, hresults']
        · obtain ⟨turns, r', hle, hrun, hreturned, hlength⟩ := ih r.fillBuf.turn (hsame.trans hrest)
            hnone (by rw [hgoes, hcalling', hcalling])
          refine ⟨turns + 1, r', Nat.succ_le_succ hle, .cons (hstep r hcalling) hrun, hreturned, ?_⟩
          rw [hlength, hresults, hresults']
  by_cases hbuffered : r.buffered = []
  · obtain ⟨turns, r', hle, hrun⟩ := hempty r.reads r rfl hbuffered hcalling
    exact ⟨turns, r', by omega, hrun⟩
  · have hsame : r.fillBuf = r := by
      unfold ProgressReader.fillBuf
      rw [if_neg hbuffered]
    have hfirst := hstep r hcalling
    rw [hsame] at hfirst
    rcases r.turn_cases with ⟨hreturned, hlength⟩ | ⟨hgoes, hresults, hnone, hreads, -⟩
    · exact ⟨1, r.turn, by omega, .single hfirst, hreturned, hlength⟩
    · obtain ⟨turns, r', hle, hrun, hreturned, hlength⟩ := hempty r.reads r.turn hreads hnone
        (by rw [hgoes, hcalling])
      exact ⟨turns + 1, r', by omega, .cons hfirst hrun, hreturned, by rw [hlength, hresults]⟩

end ProgressReader

/-- However the bytes are delivered and whichever calls are cancelled, the results are those of the
lines of the stream, what is kept of a line is within the limit, and a call that is not cancelled
returns. -/
theorem progress_results {reads : List (List Nat)} (hreads : ∀ read ∈ reads, read ≠ [])
    {events : List ProgressReader.Event} {r : ProgressReader}
    (hrun : Run (StepsTo ProgressReader.next) (.new reads) events r) :
    r.results = (List.range r.results.length).map (expected · reads.flatten) ∧
      r.pending.length ≤ MAX_PROGRESS_LINE_BYTES ∧
      (r.calling = true → ∃ turns r',
        Run (StepsTo ProgressReader.next) r (List.replicate turns .turn) r' ∧
          r'.calling = false ∧ r'.results.length = r.results.length + 1) := by
  have hfollows := (ProgressReader.follows_new hreads).run hrun
  refine ⟨hfollows.results, hfollows.bounded, fun hcalling => ?_⟩
  obtain ⟨turns, r', -, hturns⟩ := ProgressReader.exists_turns_return hcalling
  exact ⟨turns, r', hturns⟩

/-- Two lines, cut between the carriage return and the newline, and a call that is cancelled. -/
theorem progress_results_sample :
    [.line ['a'], .line ['b']] =
      (List.range 2).map (expected · ([[97, 13], [10, 98]] : List (List Nat)).flatten) := by
  have hrun : Run (StepsTo ProgressReader.next) (.new [[97, 13], [10, 98]])
      [.call, .turn, .cancel, .call, .turn, .call, .turn, .turn]
      ⟨[], [], [], false, [.line ['a'], .line ['b']]⟩ := Run.of_foldlM (by decide)
  exact (progress_results (by decide) hrun).1

end Useful.Media
