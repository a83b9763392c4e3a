/-
# Rows that are written and read back

A cell is read back from what `encode` makes of it, whatever follows that is not a quotation mark;
rows are read by induction, and the end of the text decides about the last one.
-/

import Useful.Office.Csv

namespace Useful.Office.Csv

open Useful.Math JsText

variable {limits : ReadLimits} {delimiter : JsText}

/-! ## One cell -/

theorem append_eq_ok {st st' : State} {unit : Nat} : st.append limits unit = .ok st' ↔
    st.field.length + 1 ≤ limits.fieldChars ∧ { st with field := st.field ++ [unit] } = st' := by
  simp only [State.append, bind_eq_ok, assert_eq_ok, pure_eq_ok, List.length_append,
    List.length_singleton, exists_const]

theorem pushField_eq_ok {st st' : State} : st.pushField limits = .ok st' ↔
    (st.row.length + 1 ≤ limits.columns ∧ st.cells + 1 ≤ limits.cells) ∧
      { st with row := st.row ++ [st.field], field := [], cells := st.cells + 1 } = st' := by
  simp only [State.pushField, bind_eq_ok, assert_eq_ok, pure_eq_ok, List.length_append,
    List.length_singleton, exists_const, and_assoc]

theorem pushRow_eq_ok {st st' : State} : st.pushRow limits = .ok st' ↔
    st.rows.length + 1 ≤ limits.rows ∧
      { st with rows := st.rows ++ [st.row], row := [] } = st' := by
  simp only [State.pushRow, bind_eq_ok, assert_eq_ok, pure_eq_ok, List.length_append,
    List.length_singleton, exists_const]

section Cell

variable (rows : List (List JsText)) (row : List JsText) (cells : Nat)

/-- A closing mark ends the quoted part. -/
theorem scan_close {field rest : JsText} (hrest : rest.head? ≠ some quoteMark) :
    scan limits delimiter ⟨rows, row, field, true, cells⟩ (quoteMark :: rest) =
      scan limits delimiter ⟨rows, row, field, false, cells⟩ rest := by
  rw [scan]
  · simp
  · rintro rest rfl
    exact hrest rfl

/-- Marks are doubled between marks, and everything else is taken as it is. -/
theorem scan_doubled {cell field rest : JsText} (hrest : rest.head? ≠ some quoteMark)
    (hlength : field.length + cell.length ≤ limits.fieldChars) :
    scan limits delimiter ⟨rows, row, field, true, cells⟩ (doubled cell ++ quoteMark :: rest) =
      scan limits delimiter ⟨rows, row, field ++ cell, false, cells⟩ rest := by
  induction cell generalizing field with
  | nil =>
      rw [List.append_nil]
      exact scan_close rows row cells hrest
  | cons unit cell ih =>
      rw [List.length_cons] at hlength
      have hone : field.length + 1 ≤ limits.fieldChars := by omega
      have hnext := @ih (field ++ [unit]) (by rw [List.length_append, List.length_singleton]; omega)
      rw [List.append_assoc, List.singleton_append] at hnext
      rw [← hnext]
      have happend := (@append_eq_ok limits ⟨rows, row, field, true, cells⟩ _ unit).mpr ⟨hone, rfl⟩
      by_cases hmark : unit = quoteMark
      · subst hmark
        have htext : doubled (quoteMark :: cell) = quoteMark :: quoteMark :: doubled cell := rfl
        rw [htext, List.cons_append, List.cons_append]
        conv_lhs => unfold scan
        simp only [if_true]
        exact bind_of_eq_ok happend _
      · have htext : doubled (unit :: cell) = unit :: doubled cell := by
          simp [doubled, hmark]
        rw [htext, List.cons_append]
        conv_lhs => unfold scan
        simp only [if_true, if_neg hmark]
        exact bind_of_eq_ok happend _

/-- Text that needs no quotes is taken as it is. -/
theorem scan_plain {cell field rest : JsText} (hplain : needsQuotes delimiter cell = false)
    (hlength : field.length + cell.length ≤ limits.fieldChars) :
    scan limits delimiter ⟨rows, row, field, false, cells⟩ (cell ++ rest) =
      scan limits delimiter ⟨rows, row, field ++ cell, false, cells⟩ rest := by
  induction cell generalizing field with
  | nil => rw [List.append_nil, List.nil_append]
  | cons unit cell ih =>
      rw [List.length_cons] at hlength
      simp only [needsQuotes, List.any_cons, Bool.or_eq_false_iff, beq_eq_false_iff_ne, ne_eq,
        isLineBreak] at hplain
      obtain ⟨⟨⟨hdelimiter, hmark⟩, hreturn, hfeed⟩, hcell⟩ := hplain
      have hother : [unit] ≠ delimiter := by
        intro heq
        simp [← heq] at hdelimiter
      have hone : field.length + 1 ≤ limits.fieldChars := by omega
      have hnext := @ih (field ++ [unit]) (by simpa [needsQuotes, isLineBreak] using hcell)
        (by rw [List.length_append, List.length_singleton]; omega)
      rw [List.append_assoc, List.singleton_append] at hnext
      rw [← hnext, List.cons_append]
      conv_lhs => unfold scan
      have happend := (@append_eq_ok limits ⟨rows, row, field, false, cells⟩ _ unit).mpr ⟨hone, rfl⟩
      simp only [Bool.false_eq_true, if_false, hmark, hother, hreturn, hfeed, false_and, or_self]
      rw [bind_of_eq_ok (assert_eq_ok (r := ⟨⟩).mpr hmark)]
      exact bind_of_eq_ok happend _

/-- A cell is read back from what is written for it. -/
theorem scan_quoted {cell rest : JsText} (hrest : rest.head? ≠ some quoteMark)
    (hlength : cell.length ≤ limits.fieldChars) :
    scan limits delimiter ⟨rows, row, [], false, cells⟩ (quoted delimiter cell ++ rest) =
      scan limits delimiter ⟨rows, row, cell, false, cells⟩ rest := by
  rw [quoted]
  split_ifs with hquotes
  · rw [List.cons_append, List.append_assoc, List.singleton_append]
    conv_lhs => unfold scan
    simp only [Bool.false_eq_true, if_false, List.length_nil, and_self, if_true]
    exact scan_doubled rows row cells hrest (by simpa using hlength)
  · rw [Bool.not_eq_true] at hquotes
    have hsame : doubled cell = cell := by
      have hfree : ∀ unit ∈ cell, unit ≠ quoteMark := by
        intro unit hunit heq
        subst heq
        have hmem : quoteMark ∈ doubled cell :=
          List.mem_flatMap.mpr ⟨quoteMark, hunit, by simp⟩
        have hall := List.any_eq_false.mp hquotes quoteMark hmem
        simp at hall
      rw [doubled]
      calc cell.flatMap _ = cell.flatMap fun unit => [unit] :=
            List.flatMap_congr fun unit hunit => if_neg (hfree unit hunit)
        _ = cell := List.flatMap_singleton' cell
    rw [hsame] at hquotes ⊢
    exact scan_plain rows row cells hquotes (by simpa using hlength)

end Cell

/-! ## Rows -/

/-- The text of rows whose cells are what is to be read back. -/
def rowsText (delimiter lineEnding : JsText) (rows : List (List JsText)) : JsText :=
  lineEnding.intercalate (rows.map fun row => delimiter.intercalate (row.map (quoted delimiter)))

section Rows

variable {unit : Nat} {rows : List (List JsText)} {row : List JsText} {field rest : JsText} {cells : Nat}

theorem scan_delimiter (hmark : unit ≠ quoteMark) (hcolumns : row.length + 1 ≤ limits.columns)
    (hcells : cells + 1 ≤ limits.cells) :
    scan limits [unit] ⟨rows, row, field, false, cells⟩ (unit :: rest) =
      scan limits [unit] ⟨rows, row ++ [field], [], false, cells + 1⟩ rest := by
  have hpush := (@pushField_eq_ok limits ⟨rows, row, field, false, cells⟩ _).mpr
    ⟨⟨hcolumns, hcells⟩, rfl⟩
  conv_lhs => unfold scan
  simp only [Bool.false_eq_true, if_false, hmark, false_and, if_true]
  exact bind_of_eq_ok hpush _

/-- Both line endings end the field and the row. -/
theorem scan_lineEnding {lineEnding : JsText} (hend : lineEnding = [10] ∨ lineEnding = [13, 10])
    (hreturn : unit ≠ 13) (hfeed : unit ≠ 10) (hcolumns : row.length + 1 ≤ limits.columns)
    (hcells : cells + 1 ≤ limits.cells) (hrows : rows.length + 1 ≤ limits.rows) :
    scan limits [unit] ⟨rows, row, field, false, cells⟩ (lineEnding ++ rest) =
      scan limits [unit] ⟨rows ++ [row ++ [field]], [], [], false, cells + 1⟩ rest := by
  have hfield := (@pushField_eq_ok limits ⟨rows, row, field, false, cells⟩ _).mpr
    ⟨⟨hcolumns, hcells⟩, rfl⟩
  have hrow := (@pushRow_eq_ok limits ⟨rows, row ++ [field], [], false, cells + 1⟩ _).mpr ⟨hrows, rfl⟩
  have hmark : (10 : Nat) ≠ quoteMark ∧ (13 : Nat) ≠ quoteMark := by decide
  rcases hend with rfl | rfl
  · rw [List.singleton_append]
    conv_lhs => unfold scan
    simp only [Bool.false_eq_true, if_false, hmark.1, false_and, List.cons.injEq, and_true,
      hfeed.symm, or_true, if_true]
    rw [bind_of_eq_ok hfield, bind_of_eq_ok hrow]
  · rw [List.cons_append, List.singleton_append]
    conv_lhs => unfold scan
    simp only [Bool.false_eq_true, if_false, hmark.2, false_and, List.cons.injEq, and_true,
      hreturn.symm, true_or, if_true]
    rw [bind_of_eq_ok hfield, bind_of_eq_ok hrow]

/-- A row is read up to its last cell, which what follows ends. -/
theorem scan_row {front : List JsText} {last : JsText} (hmark : unit ≠ quoteMark)
    (hrest : rest.head? ≠ some quoteMark)
    (hfield : ∀ cell ∈ front ++ [last], cell.length ≤ limits.fieldChars)
    (hcolumns : row.length + front.length ≤ limits.columns)
    (hcells : cells + front.length ≤ limits.cells) :
    scan limits [unit] ⟨rows, row, [], false, cells⟩
        ([unit].intercalate ((front ++ [last]).map (quoted [unit])) ++ rest) =
      scan limits [unit] ⟨rows, row ++ front, last, false, cells + front.length⟩ rest := by
  induction front generalizing row cells with
  | nil =>
      rw [List.nil_append, List.map_singleton, List.intercalate_singleton, List.append_nil]
      exact scan_quoted rows row cells hrest (hfield last (by simp))
  | cons cell front ih =>
      rw [List.length_cons] at hcolumns hcells
      have hnext := @ih (row ++ [cell]) (cells + 1)
        (fun c hc => hfield c (List.mem_cons_of_mem _ hc))
        (by rw [List.length_append, List.length_singleton]; omega) (by omega)
      have htext : [unit].intercalate ((cell :: front ++ [last]).map (quoted [unit])) ++ rest =
          quoted [unit] cell ++
            unit :: ([unit].intercalate ((front ++ [last]).map (quoted [unit])) ++ rest) := by
        rw [List.cons_append, List.map_cons, List.intercalate_cons_of_ne_nil (by simp)]
        simp
      rw [htext, scan_quoted rows row cells (by simpa using hmark) (hfield cell (by simp)),
        scan_delimiter hmark (by omega) (by omega), hnext, List.append_assoc, List.singleton_append,
        List.length_cons, Nat.add_assoc, Nat.add_comm 1]

/-- Every row but the last is read as it was written. -/
theorem scan_rowsText {lineEnding : JsText} {before : List (List JsText)} {front : List JsText}
    {last : JsText} (hend : lineEnding = [10] ∨ lineEnding = [13, 10]) (hmark : unit ≠ quoteMark)
    (hreturn : unit ≠ 13) (hfeed : unit ≠ 10) (hne : ∀ line ∈ before, line ≠ [])
    (hfield : ∀ line ∈ before ++ [front ++ [last]], ∀ cell ∈ line, cell.length ≤ limits.fieldChars)
    (hcolumns : ∀ line ∈ before ++ [front ++ [last]], line.length ≤ limits.columns)
    (hcells : cells + ((before ++ [front ++ [last]]).map List.length).sum ≤ limits.cells)
    (hrows : rows.length + before.length ≤ limits.rows) :
    scan limits [unit] ⟨rows, [], [], false, cells⟩
        (rowsText [unit] lineEnding (before ++ [front ++ [last]])) =
      .ok ⟨rows ++ before, front, last, false,
        cells + (before.map List.length).sum + front.length⟩ := by
  induction before generalizing rows cells with
  | nil =>
      simp only [List.nil_append, List.map_cons, List.map_nil, List.sum_cons, List.sum_nil,
        List.length_append, List.length_singleton, List.mem_singleton, forall_eq] at *
      have hread := @scan_row limits unit rows [] [] cells front last
        hmark (by simp) hfield (by simp; omega) (by omega)
      rw [List.append_nil, List.nil_append] at hread
      rw [rowsText, List.map_singleton, List.intercalate_singleton, hread, scan, List.append_nil,
        Nat.add_zero]
  | cons line before ih =>
      obtain ⟨initial, final, rfl⟩ : ∃ initial final, line = initial ++ [final] :=
        ⟨line.dropLast, line.getLast (hne line List.mem_cons_self),
          (List.dropLast_append_getLast _).symm⟩
      rw [List.cons_append] at hfield hcolumns hcells
      simp only [List.map_cons, List.sum_cons, List.length_append, List.length_singleton] at hcells
      have hwidth := hcolumns _ List.mem_cons_self
      rw [List.length_append, List.length_singleton] at hwidth
      rw [List.length_cons] at hrows
      have hnext := @ih (rows ++ [initial ++ [final]]) (cells + (initial.length + 1))
        (fun line hline => hne line (List.mem_cons_of_mem _ hline))
        (fun line hline => hfield line (List.mem_cons_of_mem _ hline))
        (fun line hline => hcolumns line (List.mem_cons_of_mem _ hline))
        (by omega)
        (by rw [List.length_append, List.length_singleton]; omega)
      have htext : rowsText [unit] lineEnding ((initial ++ [final]) :: before ++ [front ++ [last]]) =
          [unit].intercalate ((initial ++ [final]).map (quoted [unit])) ++
            (lineEnding ++ rowsText [unit] lineEnding (before ++ [front ++ [last]])) := by
        rw [rowsText, List.cons_append, List.map_cons, List.intercalate_cons_of_ne_nil (by simp),
          List.append_assoc, rowsText]
      have hhead : (lineEnding ++
          rowsText [unit] lineEnding (before ++ [front ++ [last]])).head? ≠ some quoteMark := by
        rcases hend with rfl | rfl <;> simp [quoteMark]
      rw [htext, scan_row hmark hhead (hfield _ List.mem_cons_self) (by simp; omega) (by omega),
        scan_lineEnding hend hreturn hfeed (by simp; omega) (by omega) (by omega), List.nil_append,
        Nat.add_assoc cells, hnext, List.append_assoc, List.singleton_append, List.map_cons,
        List.sum_cons, List.length_append, List.length_singleton, Nat.add_assoc cells]

end Rows

/-! ## The whole text -/

theorem finish_eq_ok {text : JsText} {st : State} {rows : List (List JsText)} :
    finish limits text st = .ok rows ↔ st.quoted = false ∧
      ∃ last, pushPending limits text st = .ok last ∧ last.rows.length ≤ limits.rows ∧
        last.rows = rows := by
  simp only [finish, bind_eq_ok, assert_eq_ok, pure_eq_ok, exists_const]

/-- Rows that the reader allows. -/
structure Fits (limits : ReadLimits) (rows : List (List JsText)) : Prop where
  fieldChars : ∀ row ∈ rows, ∀ cell ∈ row, cell.length ≤ limits.fieldChars
  columns : ∀ row ∈ rows, row.length ≤ limits.columns
  cells : (rows.map List.length).sum ≤ limits.cells
  rows : rows.length ≤ limits.rows

/-- What is left of rows in their text: an empty cell that is alone in the last row is lost. -/
def kept (rows : List (List JsText)) : List (List JsText) :=
  if rows.getLast? = some [[]] then rows.dropLast else rows

theorem kept_eq_self_iff {rows : List (List JsText)} :
    kept rows = rows ↔ rows.getLast? ≠ some [[]] := by
  unfold kept
  split_ifs with hlast
  · refine iff_of_false (fun heq => ?_) (not_not.mpr hlast)
    have hne : rows ≠ [] := by
      rintro rfl
      exact absurd hlast (by simp)
    have hlength := congrArg List.length heq
    rw [List.length_dropLast] at hlength
    have hpos := List.length_pos_of_ne_nil hne
    omega
  · exact iff_of_true rfl hlast

theorem mem_of_mem_kept {rows : List (List JsText)} {row : List JsText} (h : row ∈ kept rows) :
    row ∈ rows := by
  unfold kept at h
  split_ifs at h
  · exact List.mem_of_mem_dropLast h
  · exact h

theorem readRows_rowsText {unit : Nat} {lineEnding : JsText} {rows : List (List JsText)}
    (hend : lineEnding = [10] ∨ lineEnding = [13, 10]) (hmark : unit ≠ quoteMark)
    (hreturn : unit ≠ 13) (hfeed : unit ≠ 10) (hne : ∀ row ∈ rows, row ≠ [])
    (hfits : Fits limits rows) :
    readRows limits [unit] (rowsText [unit] lineEnding rows) = .ok (kept rows) := by
  rcases List.eq_nil_or_concat rows with rfl | ⟨before, lastRow, rfl⟩
  · have hskip : ¬ Pending [] State.empty := by
      simp [Pending, State.empty]
    refine bind_eq_ok.mpr ⟨State.empty, rfl, finish_eq_ok.mpr ⟨rfl, State.empty, if_neg hskip, ?_, rfl⟩⟩
    exact Nat.zero_le _
  obtain ⟨front, last, rfl⟩ : ∃ front last, lastRow = front ++ [last] :=
    ⟨lastRow.dropLast, lastRow.getLast (hne lastRow (by simp)), (List.dropLast_append_getLast _).symm⟩
  obtain ⟨hfield, hcolumns, hcells, hrows⟩ := hfits
  have hwidth := hcolumns (front ++ [last]) (by simp)
  have htotal := hcells
  simp only [List.concat_eq_append, List.map_append, List.map_cons, List.map_nil, List.sum_append,
    List.sum_cons, List.sum_nil, List.length_append, List.length_cons, List.length_nil] at hwidth htotal hrows
  have hscan := @scan_rowsText limits _ [] 0 _ before front last hend hmark hreturn hfeed
    (fun line hline => hne line (by simp [hline])) (by simpa using hfield) (by simpa using hcolumns)
    (by simpa using hcells) (by simp; omega)
  rw [List.nil_append] at hscan
  rw [List.concat_eq_append, readRows, State.empty, bind_of_eq_ok hscan]
  by_cases hempty : front = [] ∧ last = []
  · obtain ⟨rfl, rfl⟩ := hempty
    have hkept : kept (before ++ [[] ++ [[]]]) = before := by
      simp [kept]
    rw [hkept]
    refine finish_eq_ok.mpr ⟨rfl, _, if_neg ?_, by simp only; omega, rfl⟩
    rintro (h | h | ⟨h, htext⟩)
    · exact h rfl
    · exact h rfl
    · have hbefore : before = [] := List.eq_nil_of_length_eq_zero h
      subst hbefore
      exact htext (by simp [rowsText, quoted, needsQuotes, doubled])
  · have hkept : kept (before ++ [front ++ [last]]) = before ++ [front ++ [last]] := by
      rw [kept, if_neg]
      intro heq
      simp only [List.getLast?_append, List.getLast?_singleton, Option.some_or, Option.some.injEq,
        List.append_eq_singleton_iff, List.cons.injEq, and_true, List.cons_ne_nil, and_false,
        or_false] at heq
      exact hempty heq
    have hpending : Pending (rowsText [unit] lineEnding (before ++ [front ++ [last]]))
        ⟨before, front, last, false, 0 + (before.map List.length).sum + front.length⟩ := by
      simp only [Pending, ne_eq, List.length_eq_zero_iff]
      tauto
    rw [hkept]
    have hfield := (@pushField_eq_ok limits ⟨before, front, last, false,
      0 + (before.map List.length).sum + front.length⟩ _).mpr
      ⟨⟨by simpa using hwidth, by simp only; omega⟩, rfl⟩
    have hrow := (@pushRow_eq_ok limits ⟨before, front ++ [last], [], false,
      0 + (before.map List.length).sum + front.length + 1⟩ _).mpr ⟨by simpa using hrows, rfl⟩
    refine finish_eq_ok.mpr ⟨rfl, ⟨before ++ [front ++ [last]], [], [], false,
      0 + (before.map List.length).sum + front.length + 1⟩, ?_, by simpa using hrows, rfl⟩
    rw [pushPending, if_pos hpending]
    exact bind_eq_ok.mpr ⟨_, hfield, hrow⟩

/-! ## Limits of the reader -/

/-- What follows a line break. -/
def afterBreak : Nat → JsText → JsText
  | 13, 10 :: rest => rest
  | _, rest => rest

theorem afterBreak_of_other {unit : Nat} {rest : JsText}
    (h : ∀ tail, unit = 13 → rest = 10 :: tail → False) : afterBreak unit rest = rest := by
  rw [afterBreak]
  exact h

theorem scan_break {st : State} {unit : Nat} {rest : JsText} (hquoted : ¬ st.quoted = true)
    (hopen : ¬ (unit = quoteMark ∧ st.field.length = 0)) (hdelimiter : ¬ [unit] = delimiter)
    (hbreak : unit = 13 ∨ unit = 10) :
    scan limits delimiter st (unit :: rest) = st.pushField limits >>= fun st =>
      st.pushRow limits >>= fun st => scan limits delimiter st (afterBreak unit rest) := by
  rw [scan.eq_def]
  simp only [hquoted, hopen, hdelimiter, hbreak, if_true, if_false]
  refine bind_congr fun field => bind_congr fun next => ?_
  split
  · rfl
  · rename_i hother
    rw [afterBreak_of_other hother]

theorem afterBreak_of_match {M : JsText → Prop} {unit : Nat} {rest : JsText}
    (h : match unit, rest with
      | 13, 10 :: rest => M rest
      | _, rest => M rest) : M (afterBreak unit rest) := by
  split at h
  · exact h
  · rename_i hother
    rwa [afterBreak_of_other hother]

/-- When other limits allow the same fields and rows, the loop comes to the same state under them,
and what every step preserves holds there. -/
theorem scan_transfer {limits' : ReadLimits} {P : State → Prop}
    (happend : ∀ st st' unit, P st → st.append limits unit = .ok st' →
      st.append limits' unit = .ok st' ∧ P st')
    (hfield : ∀ st st', P st → st.pushField limits = .ok st' →
      st.pushField limits' = .ok st' ∧ P st')
    (hrow : ∀ st st', P st → st.pushRow limits = .ok st' → st.pushRow limits' = .ok st' ∧ P st')
    (hquoted : ∀ st quoted, P st → P { st with quoted }) {st st' : State} {text : JsText}
    (h : scan limits delimiter st text = .ok st') (hst : P st) :
    scan limits' delimiter st text = .ok st' ∧ P st' := by
  induction st, text using scan.induct delimiter with
  | case1 st =>
      rw [scan, Except.ok.injEq] at h
      exact ⟨congrArg _ h, h ▸ hst⟩
  | case2 st hq rest ih =>
      rw [scan.eq_def] at h ⊢
      simp only [hq, if_true] at h ⊢
      obtain ⟨next, hnext, h⟩ := bind_eq_ok.mp h
      obtain ⟨hnext, hst⟩ := happend _ _ _ hst hnext
      exact ⟨bind_eq_ok.mpr ⟨next, hnext, (ih next h hst).1⟩, (ih next h hst).2⟩
  | case3 st hq rest hrest ih =>
      obtain ⟨rows, row, field, quoted, cells⟩ := st
      subst hq
      have hhead : rest.head? ≠ some quoteMark := by
        intro heq
        obtain ⟨tail, htail⟩ := List.head?_eq_some_iff.mp heq
        exact hrest tail htail
      rw [scan_close rows row cells hhead] at h ⊢
      exact ih h (hquoted _ false hst)
  | case4 st unit rest hq hmark ih =>
      rw [scan.eq_def] at h ⊢
      simp only [hq, if_true, hmark, if_false] at h ⊢
      obtain ⟨next, hnext, h⟩ := bind_eq_ok.mp h
      obtain ⟨hnext, hst⟩ := happend _ _ _ hst hnext
      exact ⟨bind_eq_ok.mpr ⟨next, hnext, (ih next h hst).1⟩, (ih next h hst).2⟩
  | case5 st unit rest hq hopen ih =>
      rw [scan.eq_def] at h ⊢
      simp only [hq, hopen, and_self, if_true] at h ⊢
      exact ih h (hquoted _ _ hst)
  | case6 st unit rest hq hopen hdelimiter ih =>
      rw [scan.eq_def] at h ⊢
      simp only [hq, hopen, hdelimiter, if_true, if_false] at h ⊢
      obtain ⟨next, hnext, h⟩ := bind_eq_ok.mp h
      obtain ⟨hnext, hst⟩ := hfield _ _ hst hnext
      exact ⟨bind_eq_ok.mpr ⟨next, hnext, (ih next h hst).1⟩, (ih next h hst).2⟩
  | case7 st unit rest hq hopen hdelimiter hbreak ih =>
      have ih := fun next => afterBreak_of_match (ih next)
      rw [scan_break hq hopen hdelimiter hbreak] at h ⊢
      obtain ⟨field, hpush, h⟩ := bind_eq_ok.mp h
      obtain ⟨next, hnext, h⟩ := bind_eq_ok.mp h
      obtain ⟨hpush, hst⟩ := hfield _ _ hst hpush
      obtain ⟨hnext, hst⟩ := hrow _ _ hst hnext
      exact ⟨bind_eq_ok.mpr ⟨field, hpush, bind_eq_ok.mpr ⟨next, hnext, (ih next h hst).1⟩⟩,
        (ih next h hst).2⟩
  | case8 st unit rest hq hopen hdelimiter hbreak ih =>
      rw [scan.eq_def] at h ⊢
      simp only [hq, hopen, hdelimiter, hbreak, if_false] at h ⊢
      obtain ⟨_, hmark, h⟩ := bind_eq_ok.mp h
      obtain ⟨next, hnext, h⟩ := bind_eq_ok.mp h
      obtain ⟨hnext, hst⟩ := happend _ _ _ hst hnext
      exact ⟨bind_eq_ok.mpr ⟨_, hmark, bind_eq_ok.mpr ⟨next, hnext, (ih next h hst).1⟩⟩,
        (ih next h hst).2⟩

/-- The fields of a state are not longer than a bound. -/
def ShortFields (bound : Nat) (st : State) : Prop :=
  ∀ cell, (cell = st.field ∨ cell ∈ st.row ∨ ∃ row ∈ st.rows, cell ∈ row) → cell.length ≤ bound

theorem shortFields_pushField {bound : Nat} {st st' : State} (hst : ShortFields bound st)
    (h : st.pushField limits = .ok st') : ShortFields bound st' := by
  obtain ⟨-, rfl⟩ := pushField_eq_ok.mp h
  rintro cell (rfl | hcell | hcell)
  · exact Nat.zero_le _
  · rcases List.mem_append.mp hcell with hcell | hcell
    · exact hst cell (.inr (.inl hcell))
    · exact hst cell (.inl (List.mem_singleton.mp hcell))
  · exact hst cell (.inr (.inr hcell))

theorem shortFields_pushRow {bound : Nat} {st st' : State} (hst : ShortFields bound st)
    (h : st.pushRow limits = .ok st') : ShortFields bound st' := by
  obtain ⟨-, rfl⟩ := pushRow_eq_ok.mp h
  rintro cell (hcell | hcell | ⟨row, hrow, hcell⟩)
  · exact hst cell (.inl hcell)
  · exact absurd hcell List.not_mem_nil
  · rcases List.mem_append.mp hrow with hrow | hrow
    · exact hst cell (.inr (.inr ⟨row, hrow, hcell⟩))
    · exact hst cell (.inr (.inl (List.mem_singleton.mp hrow ▸ hcell)))

/-- What is read has short fields, and is also read where longer ones are allowed. -/
theorem readRows_transfer {bound : Nat} {text : JsText} {rows : List (List JsText)}
    (hbound : limits.fieldChars ≤ bound) (h : readRows limits delimiter text = .ok rows) :
    readRows { limits with fieldChars := bound } delimiter text = .ok rows ∧
      ∀ row ∈ rows, ∀ cell ∈ row, cell.length ≤ limits.fieldChars := by
  have hfield : ∀ st st' : State, ShortFields limits.fieldChars st → st.pushField limits = .ok st' →
      st.pushField { limits with fieldChars := bound } = .ok st' ∧
        ShortFields limits.fieldChars st' := fun st st' hst hpush =>
    ⟨hpush, shortFields_pushField hst hpush⟩
  have hrow : ∀ st st' : State, ShortFields limits.fieldChars st → st.pushRow limits = .ok st' →
      st.pushRow { limits with fieldChars := bound } = .ok st' ∧
        ShortFields limits.fieldChars st' := fun st st' hst hpush =>
    ⟨hpush, shortFields_pushRow hst hpush⟩
  obtain ⟨st, hscan, hfinish⟩ := bind_eq_ok.mp h
  have htransfer : scan { limits with fieldChars := bound } delimiter .empty text = .ok st ∧
      ShortFields limits.fieldChars st := by
    refine scan_transfer (fun st st' unit hst happend => ?_) hfield hrow (fun st quoted hst => hst)
      hscan ?_
    · obtain ⟨hlength, rfl⟩ := append_eq_ok.mp happend
      refine ⟨append_eq_ok.mpr ⟨hlength.trans hbound, rfl⟩, ?_⟩
      rintro cell (rfl | hcell)
      · simpa using hlength
      · exact hst cell (.inr hcell)
    · rintro cell (rfl | hcell | ⟨row, hrow, -⟩)
      · exact Nat.zero_le _
      · exact absurd hcell List.not_mem_nil
      · exact absurd hrow List.not_mem_nil
  obtain ⟨hscan, hshort⟩ := htransfer
  obtain ⟨hquoted, last, hlast, hrows, rfl⟩ := finish_eq_ok.mp hfinish
  have hpending : pushPending { limits with fieldChars := bound } text st = .ok last ∧
      ShortFields limits.fieldChars last := by
    unfold pushPending at hlast ⊢
    split_ifs at hlast ⊢
    · obtain ⟨field, hpush, hnext⟩ := bind_eq_ok.mp hlast
      obtain ⟨hpush, hshort⟩ := hfield _ _ hshort hpush
      obtain ⟨hnext, hshort⟩ := hrow _ _ hshort hnext
      exact ⟨bind_eq_ok.mpr ⟨field, hpush, hnext⟩, hshort⟩
    · rw [Except.ok.injEq] at hlast
      exact ⟨congrArg _ hlast, hlast ▸ hshort⟩
  exact ⟨bind_eq_ok.mpr ⟨st, hscan, finish_eq_ok.mpr ⟨hquoted, last, hpending.1, hrows, rfl⟩⟩,
    fun row hrow cell hcell => hpending.2 cell (.inr (.inr ⟨row, hrow, hcell⟩))⟩

/-! ## Formulas -/

theorem isFormula_escapeSpreadsheetFormula (text : JsText) :
    isFormula (escapeSpreadsheetFormula text) = false := by
  unfold escapeSpreadsheetFormula
  split_ifs with h
  · rfl
  · simpa using h

theorem written_eq_nil_iff {escapeFormulas : Bool} {cell : JsText} :
    written escapeFormulas cell = [] ↔ cell = [] := by
  unfold written escapeSpreadsheetFormula
  split_ifs with hescape hformula
  · refine iff_of_false (by simp) ?_
    rintro rfl
    exact absurd hformula (by decide)
  · rfl
  · rfl

/-- The rows that are written for rows. -/
def writtenRows (escapeFormulas : Bool) (rows : List (List JsText)) : List (List JsText) :=
  rows.map fun row => row.map (written escapeFormulas)

theorem mem_writtenRows {escapeFormulas : Bool} {rows : List (List JsText)} {row : List JsText} :
    row ∈ writtenRows escapeFormulas rows ↔ ∃ line ∈ rows, line.map (written escapeFormulas) = row :=
  List.mem_map

theorem getLast?_writtenRows {escapeFormulas : Bool} {rows : List (List JsText)} :
    (writtenRows escapeFormulas rows).getLast? = some [[]] ↔ rows.getLast? = some [[]] := by
  rw [writtenRows, List.getLast?_map, Option.map_eq_some_iff]
  constructor
  · rintro ⟨row, hlast, hrow⟩
    rw [List.map_eq_singleton_iff] at hrow
    obtain ⟨cell, rfl, hcell⟩ := hrow
    rw [hlast, written_eq_nil_iff.mp hcell]
  · intro hlast
    refine ⟨_, hlast, ?_⟩
    rw [List.map_singleton, written_eq_nil_iff.mpr rfl]

/-! ## The round trip -/

theorem encoded_of_mapM {escapeFormulas : Bool} {row texts : List JsText}
    (h : row.mapM (encode delimiter escapeFormulas) = .ok texts) :
    texts = (row.map (written escapeFormulas)).map (quoted delimiter) ∧
      ∀ cell ∈ row, cell.length ≤ OFFICE_LIMITS.modelTextChars := by
  rw [mapM_eq_ok] at h
  induction h with
  | nil => exact ⟨rfl, fun cell hcell => absurd hcell List.not_mem_nil⟩
  | cons hcell _ ih =>
      simp only [encode, bind_eq_ok, assert_eq_ok, pure_eq_ok, exists_const] at hcell
      refine ⟨?_, List.forall_mem_cons.mpr ⟨hcell.1, ih.2⟩⟩
      rw [List.map_cons, List.map_cons, ← hcell.2, ih.1]

theorem lines_eq_ok {escapeFormulas : Bool} {cells : Nat} {rows : List (List JsText)}
    {fields : List JsText} (h : lines delimiter escapeFormulas cells rows = .ok fields) :
    fields = (writtenRows escapeFormulas rows).map (fun row =>
      delimiter.intercalate (row.map (quoted delimiter))) ∧
    (cells ≤ OFFICE_LIMITS.cells → cells + (rows.map List.length).sum ≤ OFFICE_LIMITS.cells) ∧
    ∀ row ∈ rows, ∀ cell ∈ row, cell.length ≤ OFFICE_LIMITS.modelTextChars := by
  induction rows generalizing cells fields with
  | nil =>
      rw [lines, Except.ok.injEq] at h
      exact ⟨h.symm, fun hcells => by simpa using hcells, fun row hrow => absurd hrow List.not_mem_nil⟩
  | cons row rows ih =>
      simp only [lines, bind_eq_ok, assert_eq_ok, pure_eq_ok, exists_const] at h
      obtain ⟨-, hcells, texts, htexts, rest, hrest, rfl⟩ := h
      obtain ⟨hfields, hsum, hshort⟩ := ih hrest
      obtain ⟨htext, hcell⟩ := encoded_of_mapM htexts
      refine ⟨by rw [hfields, htext]; rfl, fun _ => ?_, List.forall_mem_cons.mpr ⟨hcell, hshort⟩⟩
      rw [List.map_cons, List.sum_cons, ← Nat.add_assoc]
      exact hsum hcells

/-- What the options of the reader allow. -/
structure Allows (options : ParseOptions) (rows : List (List JsText)) : Prop where
  maxRows : 1 ≤ options.maxRows.getD 100000 ∧
    options.maxRows.getD 100000 ≤ OFFICE_LIMITS.rowsPerSheet
  maxColumns : 1 ≤ options.maxColumns.getD 1000 ∧
    options.maxColumns.getD 1000 ≤ OFFICE_LIMITS.csvColumns
  height : (rows.length : Int) ≤ options.maxRows.getD 100000
  width : ∀ row ∈ rows, (row.length : Int) ≤ options.maxColumns.getD 1000

/-- The limits that the options of the reader set. -/
def limitsOf (options : ParseOptions) : ReadLimits :=
  ⟨OFFICE_LIMITS.modelTextChars, (options.maxColumns.getD 1000).toNat, OFFICE_LIMITS.cells,
    (options.maxRows.getD 100000).toNat⟩

theorem parseCsv_eq_ok {text : JsText} {options : ParseOptions} {rows : List (List JsText)}
    {d : JsText} : parseCsv text options = .ok (rows, d) ↔
      byteLength text ≤ OFFICE_LIMITS.csvBytes ∧ isDelimiter (options.delimiter.getD [44]) = true ∧
        (1 ≤ options.maxRows.getD 100000 ∧
          options.maxRows.getD 100000 ≤ OFFICE_LIMITS.rowsPerSheet) ∧
        (1 ≤ options.maxColumns.getD 1000 ∧
          options.maxColumns.getD 1000 ≤ OFFICE_LIMITS.csvColumns) ∧
        readRows (limitsOf options) (options.delimiter.getD [44]) text = .ok rows ∧
        options.delimiter.getD [44] = d := by
  simp only [parseCsv, bind_eq_ok, assert_eq_ok, pure_eq_ok, exists_const, limitsOf,
    Prod.mk.injEq, exists_eq_right_right, exists_eq_left, and_assoc]
  constructor
  · rintro ⟨hbytes, hdelimiter, h1, h2, h3, h4, rows', hread, rfl, hd⟩
    exact ⟨hbytes, hdelimiter, h1, h2, h3, h4, hread, hd⟩
  · rintro ⟨hbytes, hdelimiter, h1, h2, h3, h4, hread, hd⟩
    exact ⟨hbytes, hdelimiter, h1, h2, h3, h4, rows, hread, rfl, hd⟩

/-- What a text says that `stringifyCsv` has written. -/
structure Stringified (rows : List (List JsText)) (options : StringifyOptions) (text : JsText) :
    Prop where
  height : rows.length ≤ OFFICE_LIMITS.rowsPerSheet
  delimiter : isDelimiter (options.delimiter.getD [44]) = true
  lineEnding : options.lineEnding.getD [13, 10] = [10] ∨ options.lineEnding.getD [13, 10] = [13, 10]
  total : (rows.map List.length).sum ≤ OFFICE_LIMITS.cells
  short : ∀ row ∈ rows, ∀ cell ∈ row, cell.length ≤ OFFICE_LIMITS.modelTextChars
  bytes : byteLength text ≤ OFFICE_LIMITS.csvBytes
  text_eq : rowsText (options.delimiter.getD [44]) (options.lineEnding.getD [13, 10])
    (writtenRows (options.escapeFormulas ≠ some false) rows) = text

theorem stringified_of_stringifyCsv {rows : List (List JsText)} {options : StringifyOptions}
    {text : JsText} (h : stringifyCsv rows options = .ok text) : Stringified rows options text := by
  simp only [stringifyCsv, bind_eq_ok, assert_eq_ok, pure_eq_ok, exists_const] at h
  obtain ⟨hheight, hdelimiter, hending, fields, hfields, hbytes, rfl⟩ := h
  obtain ⟨hlines, htotal, hshort⟩ := lines_eq_ok hfields
  refine ⟨hheight, hdelimiter, hending, by simpa using htotal (Nat.zero_le _), hshort, hbytes, ?_⟩
  rw [hlines]
  rfl

theorem exists_unit_of_isDelimiter {text : JsText} (h : isDelimiter text = true) :
    ∃ unit, text = [unit] ∧ unit ≠ quoteMark ∧ unit ≠ 13 ∧ unit ≠ 10 := by
  simp only [isDelimiter, Bool.and_eq_true, beq_iff_eq] at h
  obtain ⟨hlength, hunit⟩ := h
  obtain ⟨unit, rfl⟩ := List.length_eq_one_iff.mp hlength
  refine ⟨unit, rfl, ?_⟩
  simpa [isLineBreak, not_or] using hunit

section RoundTrip

variable {rows : List (List JsText)} {options : StringifyOptions} {readOptions : ParseOptions}
  {text : JsText}

/-- The rows that are written, under the options. -/
def back (options : StringifyOptions) (rows : List (List JsText)) : List (List JsText) :=
  writtenRows (options.escapeFormulas ≠ some false) rows

/-- Written rows are read wherever their cells are allowed. -/
theorem readRows_written (hne : ∀ row ∈ rows, row ≠ []) (hwritten : Stringified rows options text)
    (hallows : Allows readOptions rows) {bound : Nat}
    (hbound : ∀ row ∈ back options rows, ∀ cell ∈ row, cell.length ≤ bound) :
    readRows { limitsOf readOptions with fieldChars := bound } (options.delimiter.getD [44]) text =
      .ok (kept (back options rows)) := by
  obtain ⟨unit, hunit, hmark, hreturn, hfeed⟩ := exists_unit_of_isDelimiter hwritten.delimiter
  have hnonempty : ∀ row ∈ back options rows, row ≠ [] := by
    intro row hrow
    obtain ⟨line, hline, rfl⟩ := mem_writtenRows.mp hrow
    simpa using hne line hline
  rw [← hwritten.text_eq, hunit]
  refine readRows_rowsText hwritten.lineEnding hmark hreturn hfeed hnonempty ⟨hbound, ?_, ?_, ?_⟩
  · intro row hrow
    obtain ⟨line, hline, rfl⟩ := mem_writtenRows.mp hrow
    have hwidth := hallows.width line hline
    simp only [limitsOf, List.length_map]
    omega
  · simpa [writtenRows, limitsOf, Function.comp_def] using hwritten.total
  · have hheight := hallows.height
    simp only [limitsOf, writtenRows, List.length_map]
    omega

/-- Whatever is read is what is left of the written rows, and short. -/
theorem parsed_eq_kept (hne : ∀ row ∈ rows, row ≠ []) (hwritten : Stringified rows options text)
    (hdelimiter : readOptions.delimiter = options.delimiter) (hallows : Allows readOptions rows)
    {parsed : List (List JsText)} {d : JsText} (h : parseCsv text readOptions = .ok (parsed, d)) :
    parsed = kept (back options rows) ∧
      ∀ row ∈ parsed, ∀ cell ∈ row, cell.length ≤ OFFICE_LIMITS.modelTextChars := by
  obtain ⟨-, -, -, -, hread, -⟩ := parseCsv_eq_ok.mp h
  rw [hdelimiter] at hread
  -- a bound that every written cell keeps
  let bound := OFFICE_LIMITS.modelTextChars + ((back options rows).flatten.map List.length).sum
  have hbound : ∀ row ∈ back options rows, ∀ cell ∈ row, cell.length ≤ bound := by
    intro row hrow cell hcell
    refine le_trans ?_ (Nat.le_add_left _ _)
    exact List.le_sum_of_mem (List.mem_map_of_mem (List.mem_flatten.mpr ⟨row, hrow, hcell⟩))
  obtain ⟨hlarge, hshort⟩ := @readRows_transfer _ _ bound _ _ (Nat.le_add_right _ _) hread
  rw [readRows_written hne hwritten hallows hbound, Except.ok.injEq] at hlarge
  exact ⟨hlarge.symm, hshort⟩

/-- No formula is too long for an apostrophe before it. -/
def LeavesRoom (options : StringifyOptions) (rows : List (List JsText)) : Prop :=
  options.escapeFormulas ≠ some false → ∀ row ∈ rows, ∀ cell ∈ row, isFormula cell = true →
    cell.length < OFFICE_LIMITS.modelTextChars

theorem leavesRoom_iff (hshort : ∀ row ∈ rows, ∀ cell ∈ row,
      cell.length ≤ OFFICE_LIMITS.modelTextChars) :
    LeavesRoom options rows ↔
      ∀ row ∈ back options rows, ∀ cell ∈ row, cell.length ≤ OFFICE_LIMITS.modelTextChars := by
  simp only [back, writtenRows, List.forall_mem_map, LeavesRoom, written, decide_eq_true_eq]
  constructor
  · intro h row hrow cell hcell
    split_ifs with hescape
    · unfold escapeSpreadsheetFormula
      split_ifs with hformula
      · exact h hescape row hrow cell hcell hformula
      · exact hshort row hrow cell hcell
    · exact hshort row hrow cell hcell
  · intro h hescape row hrow cell hcell hformula
    have hlength := h row hrow cell hcell
    rwa [if_pos hescape, escapeSpreadsheetFormula, if_pos hformula, List.length_cons] at hlength

end RoundTrip

/-- Written rows come back exactly when an empty cell is not alone in the last row and there is room
for every apostrophe; and no cell that is read after escaping is a formula. -/
theorem csv_round_trip_iff (rows : List (List JsText)) (options : StringifyOptions)
    (readOptions : ParseOptions) (text : JsText) (hne : ∀ row ∈ rows, row ≠ [])
    (hwrite : stringifyCsv rows options = .ok text)
    (hdelimiter : readOptions.delimiter = options.delimiter) (hallows : Allows readOptions rows) :
    (parseCsv text readOptions = .ok (back options rows, options.delimiter.getD [44]) ↔
        rows.getLast? ≠ some [[]] ∧ LeavesRoom options rows) ∧
      (options.escapeFormulas ≠ some false → ∀ parsed delimiter,
        parseCsv text readOptions = .ok (parsed, delimiter) →
          ∀ row ∈ parsed, ∀ cell ∈ row, isFormula cell = false) := by
  have hwritten := stringified_of_stringifyCsv hwrite
  rw [leavesRoom_iff hwritten.short]
  refine ⟨⟨fun hparse => ?_, fun ⟨hlast, hshort⟩ => ?_⟩, fun hescape parsed d hparse => ?_⟩
  · obtain ⟨hkept, hshort⟩ := parsed_eq_kept hne hwritten hdelimiter hallows hparse
    exact ⟨mt getLast?_writtenRows.mpr (kept_eq_self_iff.mp hkept.symm), hshort⟩
  · have hkept : kept (back options rows) = back options rows :=
      kept_eq_self_iff.mpr (mt getLast?_writtenRows.mp hlast)
    have hread := readRows_written hne hwritten hallows hshort
    rw [hkept, ← hdelimiter] at hread
    refine parseCsv_eq_ok.mpr ⟨hwritten.bytes, ?_, hallows.maxRows, hallows.maxColumns, hread, ?_⟩
    · rw [hdelimiter]
      exact hwritten.delimiter
    · rw [hdelimiter]
  · obtain ⟨rfl, -⟩ := parsed_eq_kept hne hwritten hdelimiter hallows hparse
    intro row hrow cell hcell
    obtain ⟨line, -, rfl⟩ := mem_writtenRows.mp (mem_of_mem_kept hrow)
    obtain ⟨raw, -, rfl⟩ := List.mem_map.mp hcell
    rw [written, if_pos (by simpa using hescape)]
    exact isFormula_escapeSpreadsheetFormula raw

theorem csv_round_trip_sample :
    parseCsv (ofString "a,'=1\r\n\"b,\"") ⟨none, none, none⟩ =
      .ok ([[ofString "a", ofString "'=1"], [ofString "b,"]], [44]) :=
  (csv_round_trip_iff [[ofString "a", ofString "=1"], [ofString "b,"]] ⟨none, none, none⟩
    ⟨none, none, none⟩ (ofString "a,'=1\r\n\"b,\"") (by decide) (by decide) rfl
    ⟨by decide, by decide, by decide, by decide⟩).1.mpr ⟨by decide, by
      intro _ row hrow cell hcell _
      revert cell row
      decide⟩

/-- An empty cell that is alone in the last row is lost. -/
theorem last_empty_cell_lost :
    stringifyCsv [[ofString "a"], [[]]] ⟨none, none, none⟩ = .ok (ofString "a\r\n") ∧
      parseCsv (ofString "a\r\n") ⟨none, none, none⟩ = .ok ([[ofString "a"]], [44]) := by
  decide

end Useful.Office.Csv
