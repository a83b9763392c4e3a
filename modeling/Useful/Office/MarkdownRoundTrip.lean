/-
# Tables that are written and read back

A cell is read back from an escaped text when the loop over a line appends it and nothing else. Rows
and tables follow from that, for either escaper. In the other direction a reader only ever returns
units of the text, trimmed and on one line, and it needs two backslashes for one.
-/

import Useful.Office.MarkdownTable

namespace Useful.Office.Markdown

open Useful.Math JsText

/-! ## One cell -/

/-- Reading an escaped text appends a value to the cell. -/
def Escapes (escaped value : JsText) : Prop :=
  ∀ cells cell, escaped.foldl LineState.step ⟨cells, cell, false⟩ = ⟨cells, cell ++ value, false⟩

theorem Escapes.append {a b v w : JsText} (ha : Escapes a v) (hb : Escapes b w) :
    Escapes (a ++ b) (v ++ w) := by
  intro cells cell
  rw [List.foldl_append, ha, hb, List.append_assoc]

theorem escapes_nil : Escapes [] [] := fun cells cell => by
  rw [List.append_nil]
  rfl

/-- Anything may follow a backslash. -/
theorem escapes_backslash (unit : Nat) : Escapes [92, unit] [unit] := fun _ _ => rfl

theorem escapes_plain {unit : Nat} (hbackslash : unit ≠ 92) (hpipe : unit ≠ 124) :
    Escapes [unit] [unit] := fun cells cell => by
  simp [LineState.step, hbackslash, hpipe]

/-- What escapes units escapes texts. -/
theorem escapes_flatMap {escape : Nat → JsText} {text : JsText}
    (h : ∀ unit ∈ text, Escapes (escape unit) [unit]) : Escapes (text.flatMap escape) text := by
  induction text with
  | nil => exact escapes_nil
  | cons unit text ih =>
      obtain ⟨hunit, htext⟩ := List.forall_mem_cons.mp h
      exact hunit.append (ih htext)

/-- The four replacements replace each unit for itself. -/
theorem escapeText_eq_flatMap (text : JsText) :
    escapeText text = text.flatMap fun unit => escapeText [unit] := by
  induction text with
  | nil => rfl
  | cons unit text ih =>
      rw [List.flatMap_cons, ← ih]
      simp only [escapeText, replaceUnit, List.flatMap_cons, List.flatMap_nil, List.append_nil,
        List.flatMap_append]

theorem escapeText_singleton {unit : Nat} : escapeText [unit] =
    if unit = 92 then [92, 92] else if unit = 124 then [92, 124]
    else if unit = 60 then ofString "&lt;" else if unit = 62 then ofString "&gt;" else [unit] := by
  split_ifs with hbackslash hpipe hless hmore
  · subst hbackslash
    decide
  · subst hpipe
    decide
  · subst hless
    decide
  · subst hmore
    decide
  · simp [escapeText, replaceUnit, hbackslash, hpipe, hless, hmore]

/-- Text without angle brackets is read back from what `escapeCell` writes. -/
theorem escapes_escapeText {text : JsText} (h : 60 ∉ text ∧ 62 ∉ text) :
    Escapes (escapeText text) text := by
  rw [escapeText_eq_flatMap]
  refine escapes_flatMap fun unit hunit => ?_
  rw [escapeText_singleton]
  split_ifs with hbackslash hpipe hless hmore
  · exact hbackslash ▸ escapes_backslash unit
  · exact hpipe ▸ escapes_backslash unit
  · exact absurd (hless ▸ hunit) h.1
  · exact absurd (hmore ▸ hunit) h.2
  · exact escapes_plain hbackslash hpipe

/-- No angle bracket is left. -/
theorem not_mem_escapeText {unit : Nat} (hunit : unit = 60 ∨ unit = 62) (text : JsText) :
    unit ∉ escapeText text := by
  rw [escapeText_eq_flatMap]
  intro hmem
  obtain ⟨u, -, hu⟩ := List.mem_flatMap.mp hmem
  rw [escapeText_singleton] at hu
  split_ifs at hu with hbackslash hpipe hless hmore
  · rcases hunit with rfl | rfl <;> exact absurd hu (by decide)
  · rcases hunit with rfl | rfl <;> exact absurd hu (by decide)
  · rcases hunit with rfl | rfl <;> exact absurd hu (by decide)
  · rcases hunit with rfl | rfl <;> exact absurd hu (by decide)
  · rcases hunit with rfl | rfl
    · exact hless (List.mem_singleton.mp hu).symm
    · exact hmore (List.mem_singleton.mp hu).symm

theorem mem_of_mem_escapeText {text : JsText} (h : newline ∈ escapeText text) : newline ∈ text := by
  rw [escapeText_eq_flatMap] at h
  obtain ⟨u, hmem, hu⟩ := List.mem_flatMap.mp h
  rw [escapeText_singleton] at hu
  split_ifs at hu
  · exact absurd hu (by decide)
  · exact absurd hu (by decide)
  · exact absurd hu (by decide)
  · exact absurd hu (by decide)
  · exact List.mem_singleton.mp hu ▸ hmem

/-- The escaper of documents. -/
def escapePipes (text : JsText) : JsText := replaceUnit 124 [92, 124] text

/-- Text without backslashes is read back from what `docxToMarkdown` writes. -/
theorem escapes_escapePipes {text : JsText} (h : 92 ∉ text) : Escapes (escapePipes text) text := by
  refine escapes_flatMap fun unit hunit => ?_
  split_ifs with hpipe
  · exact hpipe ▸ escapes_backslash unit
  · exact escapes_plain (ne_of_mem_of_not_mem hunit h) hpipe

theorem mem_of_mem_escapePipes {text : JsText} (h : newline ∈ escapePipes text) :
    newline ∈ text := by
  obtain ⟨u, hmem, hu⟩ := List.mem_flatMap.mp h
  split_ifs at hu
  · exact absurd hu (by decide)
  · exact List.mem_singleton.mp hu ▸ hmem

/-- One backslash is written for each pipe. -/
theorem count_escapePipes (text : JsText) :
    (escapePipes text).count 92 = text.count 92 + text.count 124 := by
  induction text with
  | nil => rfl
  | cons unit text ih =>
      rw [escapePipes, replaceUnit, List.flatMap_cons, List.count_append]
      change _ + (escapePipes text).count 92 = _
      rw [ih, List.count_cons, List.count_cons]
      split_ifs with hpipe h1 h2 h2 <;> simp_all <;> omega

/-! ## One line -/

theorem getLast?_line (row : List JsText) : (line row).getLast? = some 124 := by
  rw [line, List.getLast?_append]
  rfl

theorem trim_line (row : List JsText) : trim (line row) = line row :=
  @trim_eq_self_of_ends 124 124 _ rfl (getLast?_line row) (by decide) (by decide)

/-- What stands between the outer pipes. -/
def inner (row : List JsText) : JsText := 32 :: ([32, 124, 32].intercalate row ++ [32])

theorem drop_dropLast_line (row : List JsText) : ((line row).drop 1).dropLast = inner row := by
  have hline : line row = 124 :: (inner row ++ [124]) := by
    simp [line, inner]
  rw [hline, List.drop_succ_cons, List.drop_zero, List.dropLast_concat]

theorem trim_between (text : JsText) : JsText.trim (32 :: text ++ [32]) = JsText.trim text := by
  have hspace : isSpace 32 = true := by decide
  rw [trim_append_space hspace, trim_cons_space hspace]

/-- The cells of a row, which is not empty, are read one after the other. -/
theorem foldl_inner {row values : List JsText} (hescapes : List.Forall₂ Escapes row values)
    (hne : row ≠ []) (cells : List JsText) :
    ∃ cell, (inner row).foldl LineState.step ⟨cells, [], false⟩ =
        ⟨cells ++ values.dropLast.map JsText.trim, cell, false⟩ ∧
      some (trim cell) = (values.map JsText.trim).getLast? := by
  have hstep (cells : List JsText) (rest : JsText) :
      (32 :: rest).foldl LineState.step ⟨cells, [], false⟩ =
        rest.foldl LineState.step ⟨cells, [32], false⟩ := rfl
  simp only [inner, hstep]
  induction hescapes generalizing cells with
  | nil => exact absurd rfl hne
  | @cons escaped value row values hcell hrow ih =>
      cases hrow with
      | nil =>
          refine ⟨32 :: value ++ [32], ?_, ?_⟩
          · rw [List.intercalate_singleton, List.foldl_append, hcell]
            simp [LineState.step]
          · rw [trim_between]
            rfl
      | @cons escaped' value' row values hcell' hrow' =>
          obtain ⟨cell, hfold, hlast⟩ := ih (by simp) (cells ++ [trim value])
          refine ⟨cell, ?_, by rw [hlast]; rfl⟩
          rw [List.intercalate_cons_of_ne_nil (by simp), List.append_assoc, List.append_assoc,
            List.foldl_append, hcell]
          have hsep : ([32, 124, 32] ++ ([32, 124, 32].intercalate (escaped' :: row) ++ [32])).foldl
                LineState.step ⟨cells, [32] ++ value, false⟩ =
              ([32, 124, 32].intercalate (escaped' :: row) ++ [32]).foldl LineState.step
                ⟨cells ++ [trim value], [32], false⟩ := by
            rw [← trim_between value]
            rfl
          rw [hsep, hfold, List.dropLast_cons_cons, List.map_cons, List.append_assoc]
          rfl

/-- A row is read back from what is written for it. -/
theorem parseLine_line {row values : List JsText} (hescapes : List.Forall₂ Escapes row values)
    (hne : row ≠ []) (hwidth : row.length ≤ OFFICE_LIMITS.tableColumns)
    (htrim : ∀ value ∈ values, trim value = value)
    (hshort : ∀ value ∈ values, value.length ≤ OFFICE_LIMITS.modelTextChars) :
    parseLine (line row) = .ok values := by
  obtain ⟨cell, hfold, hlast⟩ := foldl_inner hescapes hne []
  have hmap : values.map JsText.trim = values :=
    (List.map_congr_left htrim).trans (List.map_id' values)
  have hlength := hescapes.length_eq
  have hvalues : values.dropLast.map JsText.trim ++ [trim cell] = values := by
    rw [hmap] at hlast
    have hdrop : values.dropLast.map JsText.trim = values.dropLast := by
      rw [List.map_dropLast, hmap]
    rw [hdrop]
    exact List.dropLast_append_getLast? (trim cell) (by rw [← hlast]; rfl)
  have hhead : (line row).head? = some 124 ∧ (line row).getLast? = some 124 :=
    ⟨rfl, getLast?_line row⟩
  have hpos := List.length_pos_of_ne_nil hne
  simp only [parseLine, bind_eq_ok, assert_eq_ok, pure_eq_ok, exists_const, trim_line,
    drop_dropLast_line, hfold, List.nil_append, hvalues]
  exact ⟨hhead, trivial, ⟨by omega, by omega⟩, hshort, trivial⟩

/-! ## What a line can say -/

/-- What holds of a state of the loop over a line that is a part of a text. -/
structure ReadFrom (text : JsText) (st : LineState) : Prop where
  cells : ∀ cell ∈ st.cells, trim cell = cell ∧ ∀ unit ∈ cell, unit ∈ text
  cell : ∀ unit ∈ st.cell, unit ∈ text

theorem readFrom_step {text : JsText} {st : LineState} {unit : Nat} (hunit : unit ∈ text)
    (h : ReadFrom text st) : ReadFrom text (st.step unit) := by
  have happend : ∀ u ∈ st.cell ++ [unit], u ∈ text := by
    intro u hu
    rcases List.mem_append.mp hu with hu | hu
    · exact h.cell u hu
    · exact List.mem_singleton.mp hu ▸ hunit
  unfold LineState.step
  split_ifs
  · exact ⟨h.cells, happend⟩
  · exact ⟨h.cells, h.cell⟩
  · refine ⟨fun cell hcell => ?_, fun u hu => absurd hu List.not_mem_nil⟩
    rcases List.mem_append.mp hcell with hcell | hcell
    · exact h.cells cell hcell
    · rw [List.mem_singleton.mp hcell]
      exact ⟨trim_trim _, fun u hu => h.cell u (mem_of_mem_trim hu)⟩
  · exact ⟨h.cells, happend⟩

theorem readFrom_foldl {text : JsText} {units : JsText} {st : LineState}
    (hunits : ∀ unit ∈ units, unit ∈ text) (h : ReadFrom text st) :
    ReadFrom text (units.foldl LineState.step st) := by
  induction units generalizing st with
  | nil => exact h
  | cons unit units ih =>
      obtain ⟨hunit, hunits⟩ := List.forall_mem_cons.mp hunits
      exact ih hunits (readFrom_step hunit h)

/-- The state of the loop at the end of a line that is accepted. -/
theorem exists_of_parseLine {text : JsText} {cells : List JsText}
    (h : parseLine text = .ok cells) :
    ∃ st, ((trim text).drop 1).dropLast.foldl LineState.step ⟨[], [], false⟩ = st ∧
      st.escaped = false ∧ cells = st.cells ++ [trim st.cell] ∧
      cells.length ≤ OFFICE_LIMITS.tableColumns := by
  simp only [parseLine, bind_eq_ok, assert_eq_ok, pure_eq_ok, exists_const] at h
  obtain ⟨-, hescaped, ⟨-, hwidth⟩, -, rfl⟩ := h
  exact ⟨_, rfl, hescaped, rfl, hwidth⟩

/-- Cells of a line are trimmed and made of its units, and there is one. -/
theorem cells_of_parseLine {text : JsText} {cells : List JsText} (h : parseLine text = .ok cells) :
    cells ≠ [] ∧ ∀ cell ∈ cells, trim cell = cell ∧ ∀ unit ∈ cell, unit ∈ text := by
  obtain ⟨st, hst, -, rfl, -⟩ := exists_of_parseLine h
  have hread : ReadFrom text st := by
    rw [← hst]
    refine readFrom_foldl (fun unit hunit => ?_) ⟨fun _ hcell => absurd hcell List.not_mem_nil,
      fun _ hunit => absurd hunit List.not_mem_nil⟩
    exact mem_of_mem_trim ((List.drop_subset _ _) ((List.dropLast_subset _) hunit))
  refine ⟨by simp, fun cell hcell => ?_⟩
  rcases List.mem_append.mp hcell with hcell | hcell
  · exact hread.cells cell hcell
  · rw [List.mem_singleton.mp hcell]
    exact ⟨trim_trim _, fun unit hunit => hread.cell unit (mem_of_mem_trim hunit)⟩

/-- Backslashes that a line needs: two for one that is read, one for a pipe that is read, and one
that has been seen. -/
def LineState.weight (st : LineState) : Nat :=
  2 * (st.cells.flatten ++ st.cell).count 92 + (st.cells.flatten ++ st.cell).count 124 +
    if st.escaped then 1 else 0

theorem count_trim_le (unit : Nat) (text : JsText) : (trim text).count unit ≤ text.count unit := by
  have hpre := List.rdropWhile_prefix isSpace (text.dropWhile isSpace)
  exact (hpre.sublist.count_le unit).trans ((List.dropWhile_sublist _).count_le unit)

theorem weight_step (st : LineState) (unit : Nat) :
    (st.step unit).weight ≤ st.weight + [unit].count 92 := by
  have hbackslash := count_trim_le 92 st.cell
  have hpipe := count_trim_le 124 st.cell
  unfold LineState.step
  split_ifs with hescaped hslash hbar
  · simp only [LineState.weight, hescaped, List.count_append, List.count_singleton, if_true,
      Bool.false_eq_true, if_false]
    split_ifs <;> simp_all <;> omega
  · simp [LineState.weight, hescaped, hslash]
  · subst hbar
    simp only [LineState.weight, hescaped, List.count_append, List.flatten_append,
      List.flatten_singleton, List.count_nil, Bool.false_eq_true, if_false]
    omega
  · simp [LineState.weight, hescaped, List.count_append, hslash, hbar]

theorem weight_foldl (st : LineState) (units : JsText) :
    (units.foldl LineState.step st).weight ≤ st.weight + units.count 92 := by
  induction units generalizing st with
  | nil => exact Nat.le_add_right _ _
  | cons unit units ih =>
      have hstep := weight_step st unit
      have hrest := ih (st.step unit)
      rw [List.foldl_cons, ← List.singleton_append, List.count_append]
      omega

/-- What is read needs its backslashes in the line. -/
theorem count_of_parseLine {text : JsText} {cells : List JsText} (h : parseLine text = .ok cells) :
    2 * cells.flatten.count 92 + cells.flatten.count 124 ≤ text.count 92 := by
  obtain ⟨st, hst, hescaped, rfl, -⟩ := exists_of_parseLine h
  have hfold := weight_foldl ⟨[], [], false⟩ ((trim text).drop 1).dropLast
  rw [hst] at hfold
  have hline : (((trim text).drop 1).dropLast).count 92 ≤ text.count 92 :=
    (((List.dropLast_sublist _).trans (List.drop_sublist _ _)).count_le 92).trans (count_trim_le _ _)
  have hbackslash := count_trim_le 92 st.cell
  have hpipe := count_trim_le 124 st.cell
  simp only [LineState.weight, hescaped, List.count_append, List.flatten_nil, List.count_nil,
    Bool.false_eq_true, if_false, List.flatten_append, List.flatten_singleton] at hfold ⊢
  omega

theorem count_intercalate {unit : Nat} {sep : JsText} (hsep : unit ∉ sep) (row : List JsText) :
    (sep.intercalate row).count unit = row.flatten.count unit := by
  induction row with
  | nil => rfl
  | cons cell row ih =>
      by_cases hrow : row = []
      · subst hrow
        simp
      · rw [List.intercalate_cons_of_ne_nil hrow, List.count_append, List.count_append, ih,
          List.count_eq_zero_of_not_mem hsep, List.flatten_cons, List.count_append, Nat.add_zero]

theorem count_line (row : List JsText) : (line row).count 92 = row.flatten.count 92 := by
  rw [line, List.count_append, List.count_append, count_intercalate (by decide)]
  have hfront : ([124, 32] : JsText).count 92 = 0 := by decide
  have hback : ([32, 124] : JsText).count 92 = 0 := by decide
  rw [hfront, hback, Nat.zero_add, Nat.add_zero]

theorem count_flatten_map_escapePipes (row : List JsText) :
    (row.map escapePipes).flatten.count 92 = row.flatten.count 92 + row.flatten.count 124 := by
  induction row with
  | nil => rfl
  | cons cell row ih =>
      rw [List.map_cons, List.flatten_cons, List.flatten_cons, List.count_append, List.count_append,
        List.count_append, ih, count_escapePipes]
      omega

/-- A row that the escaper of documents writes comes back only when it has no backslash. -/
theorem not_mem_of_parseLine {row : List JsText}
    (h : parseLine (line (row.map escapePipes)) = .ok row) : ∀ cell ∈ row, 92 ∉ cell := by
  have hcount := count_of_parseLine h
  rw [count_line, count_flatten_map_escapePipes] at hcount
  have hzero : row.flatten.count 92 = 0 := by omega
  intro cell hcell hmem
  exact List.count_eq_zero.mp hzero (List.mem_flatten.mpr ⟨cell, hcell, hmem⟩)

/-! ## Lines of a text -/

theorem mem_splitOn {unit : Nat} {text piece : JsText} (h : piece ∈ text.splitOn unit) :
    unit ∉ piece ∧ ∀ u ∈ piece, u ∈ text := by
  induction text generalizing piece with
  | nil =>
      rw [List.splitOn_nil, List.mem_singleton] at h
      subst h
      exact ⟨List.not_mem_nil, fun u hu => absurd hu List.not_mem_nil⟩
  | cons first text ih =>
      rw [List.splitOn_cons_eq_if_modifyHead] at h
      split_ifs at h with hfirst
      · rcases List.mem_cons.mp h with rfl | h
        · exact ⟨List.not_mem_nil, fun u hu => absurd hu List.not_mem_nil⟩
        · exact ⟨(ih h).1, fun u hu => List.mem_cons_of_mem _ ((ih h).2 u hu)⟩
      · obtain ⟨head, tail, hsplit⟩ := List.exists_cons_of_ne_nil (List.splitOn_ne_nil unit text)
        rw [hsplit] at h ih
        rcases List.mem_cons.mp h with rfl | h
        · obtain ⟨hnot, hmem⟩ := ih List.mem_cons_self
          refine ⟨fun hunit => ?_, fun u hu => ?_⟩
          · rcases List.mem_cons.mp hunit with heq | hunit
            · exact hfirst (by simp [heq])
            · exact hnot hunit
          · rcases List.mem_cons.mp hu with rfl | hu
            · exact List.mem_cons_self
            · exact List.mem_cons_of_mem _ (hmem u hu)
        · obtain ⟨hnot, hmem⟩ := ih (List.mem_cons_of_mem _ h)
          exact ⟨hnot, fun u hu => List.mem_cons_of_mem _ (hmem u hu)⟩

theorem mem_of_mem_dropReturn {unit : Nat} {text : JsText} (h : unit ∈ dropReturn text) :
    unit ∈ text := by
  unfold dropReturn at h
  split_ifs at h
  · exact List.mem_of_mem_dropLast h
  · exact h

/-- A line has no line feed and is made of units of the text. -/
theorem mem_tableLines {markdown text : JsText} (h : text ∈ tableLines markdown) :
    newline ∉ text ∧ ∀ unit ∈ text, unit ∈ markdown := by
  have hsplit : text ∈ splitLines markdown := by
    have hmem := (List.dropWhile_sublist _).mem (List.mem_reverse.mp h)
    exact (List.dropWhile_sublist _).mem (List.mem_reverse.mp hmem)
  rcases List.mem_append.mp hsplit with hmem | hmem
  · obtain ⟨piece, hpiece, rfl⟩ := List.mem_map.mp hmem
    obtain ⟨hnot, hunits⟩ := mem_splitOn (List.mem_of_mem_dropLast hpiece)
    exact ⟨fun hunit => hnot (mem_of_mem_dropReturn hunit),
      fun unit hunit => hunits unit (mem_of_mem_dropReturn hunit)⟩
  · exact mem_splitOn (List.mem_of_getLast? (Option.mem_toList.mp hmem))

/-- The lines of a text that has been joined from lines. -/
theorem tableLines_intercalate {texts : List JsText} {tail : JsText} (hne : texts ≠ [])
    (htexts : ∀ text ∈ texts, newline ∉ text ∧ isBlank text = false ∧ text.getLast? ≠ some 13)
    (htail : tail = [] ∨ tail = [newline]) :
    tableLines ([newline].intercalate texts ++ tail) = texts := by
  have hkeep {texts : List JsText} (h : ∀ text ∈ texts, isBlank text = false) :
      texts.dropWhile isBlank = texts := by
    cases texts with
    | nil => rfl
    | cons text texts => rw [List.dropWhile_cons_of_neg (by simp [h text List.mem_cons_self])]
  have hreturn {texts : List JsText} (h : ∀ text ∈ texts, text.getLast? ≠ some 13) :
      texts.map dropReturn = texts :=
    (List.map_congr_left fun text htext => if_neg (h text htext)).trans (List.map_id' texts)
  have hblank : ∀ text ∈ texts, isBlank text = false := fun text htext => (htexts text htext).2.1
  have hends : ∀ text ∈ texts, text.getLast? ≠ some 13 := fun text htext => (htexts text htext).2.2
  rcases htail with rfl | rfl
  · have hsplit : ([newline].intercalate texts).splitOn newline = texts :=
      List.splitOn_intercalate newline (fun text htext => (htexts text htext).1) hne
    rw [List.append_nil, tableLines, splitLines, hsplit,
      hreturn fun text htext => hends text (List.mem_of_mem_dropLast htext)]
    have hall : texts.dropLast ++ texts.getLast?.toList = texts := by
      rw [List.getLast?_eq_getLast_of_ne_nil hne]
      exact List.dropLast_append_getLast hne
    rw [hall, hkeep hblank, hkeep fun text htext => hblank text (List.mem_reverse.mp htext),
      List.reverse_reverse]
  · have htext : [newline].intercalate texts ++ [newline] = [newline].intercalate (texts ++ [[]]) := by
      clear htexts hblank hends hkeep hreturn
      induction texts with
      | nil => exact absurd rfl hne
      | cons text texts ih =>
          by_cases hrest : texts = []
          · subst hrest
            simp
          · rw [List.cons_append, List.intercalate_cons_of_ne_nil hrest,
              List.intercalate_cons_of_ne_nil (by simp), List.append_assoc, ih hrest]
    have hsplit : ([newline].intercalate (texts ++ [[]])).splitOn newline = texts ++ [[]] := by
      refine List.splitOn_intercalate newline (fun text htext => ?_) (by simp)
      rcases List.mem_append.mp htext with htext | htext
      · exact (htexts text htext).1
      · rw [List.mem_singleton.mp htext]
        exact List.not_mem_nil
    rw [htext, tableLines, splitLines, hsplit, List.dropLast_concat, hreturn hends,
      List.getLast?_concat, Option.toList_some]
    have hfront : (texts ++ [[]]).dropWhile isBlank = texts ++ [[]] := by
      obtain ⟨text, rest, rfl⟩ := List.exists_cons_of_ne_nil hne
      rw [List.cons_append, List.dropWhile_cons_of_neg (by simp [hblank text List.mem_cons_self])]
    have hempty : isBlank [] = true := by decide
    rw [hfront, List.reverse_append, List.reverse_singleton, List.singleton_append,
      List.dropWhile_cons_of_pos hempty,
      hkeep fun text htext => hblank text (List.mem_reverse.mp htext), List.reverse_reverse]

/-! ## Tables -/

/-- The lines of a table. -/
def tableOf (columns : Nat) (rows : List (List JsText)) : List JsText :=
  (withSeparator columns rows).map line

theorem not_mem_intercalate {unit : Nat} {sep : JsText} {texts : List JsText} (hsep : unit ∉ sep)
    (h : ∀ text ∈ texts, unit ∉ text) : unit ∉ sep.intercalate texts := by
  rw [← List.count_eq_zero, count_intercalate hsep, List.count_eq_zero]
  intro hmem
  obtain ⟨text, htext, hunit⟩ := List.mem_flatten.mp hmem
  exact h text htext hunit

theorem not_mem_line {unit : Nat} {row : List JsText} (hpipe : unit ≠ 124) (hspace : unit ≠ 32)
    (h : ∀ cell ∈ row, unit ∉ cell) : unit ∉ line row := by
  have hjoin := @not_mem_intercalate _ [32, 124, 32] _ (by simp [hpipe, hspace]) h
  simp [line, hpipe, hspace, hjoin]

theorem mem_withSeparator {columns : Nat} {rows : List (List JsText)} {row : List JsText}
    (h : row ∈ withSeparator columns rows) : row ∈ rows ∨ row = separator columns := by
  cases rows with
  | nil => exact absurd h List.not_mem_nil
  | cons header body =>
      rcases List.mem_cons.mp h with rfl | h
      · exact .inl List.mem_cons_self
      · rcases List.mem_cons.mp h with rfl | h
        · exact .inr rfl
        · exact .inl (List.mem_cons_of_mem _ h)

/-- The lines of a table are read from its text. -/
theorem tableLines_tableOf {columns : Nat} {rows : List (List JsText)} {tail : JsText}
    (hrows : rows ≠ []) (hbreak : ∀ row ∈ rows, ∀ cell ∈ row, newline ∉ cell)
    (htail : tail = [] ∨ tail = [newline]) :
    tableLines ([newline].intercalate (tableOf columns rows) ++ tail) = tableOf columns rows := by
  refine tableLines_intercalate ?_ (fun text htext => ?_) htail
  · cases rows with
    | nil => exact absurd rfl hrows
    | cons header body => exact List.cons_ne_nil _ _
  · obtain ⟨row, hrow, rfl⟩ := List.mem_map.mp htext
    refine ⟨not_mem_line (by decide) (by decide) ?_, ?_, ?_⟩
    · rcases mem_withSeparator hrow with hrow | rfl
      · exact hbreak row hrow
      · intro cell hcell
        rw [List.eq_of_mem_replicate hcell]
        decide
    · rw [isBlank, trim_line]
      rfl
    · rw [getLast?_line]
      decide

theorem escapes_dashes : Escapes dashes dashes := fun _ _ => by
  simp [dashes, LineState.step]

theorem parseLine_separator {columns : Nat} (hcolumns : 1 ≤ columns ∧ columns ≤ OFFICE_LIMITS.tableColumns) :
    parseLine (line (separator columns)) = .ok (separator columns) := by
  have hescapes : List.Forall₂ Escapes (separator columns) (separator columns) :=
    List.forall₂_same.mpr fun cell hcell => by
      rw [List.eq_of_mem_replicate hcell]
      exact escapes_dashes
  refine parseLine_line hescapes ?_ ?_ ?_ ?_
  · intro hnil
    have hlength := congrArg List.length hnil
    rw [separator, List.length_replicate, List.length_nil] at hlength
    omega
  · rw [separator, List.length_replicate]
    exact hcolumns.2
  · intro cell hcell
    rw [List.eq_of_mem_replicate hcell]
    decide
  · intro cell hcell
    rw [List.eq_of_mem_replicate hcell]
    decide

theorem mapM_parseLine {rows values : List (List JsText)}
    (h : List.Forall₂ (fun row value => parseLine (line row) = .ok value) rows values) :
    (rows.map line).mapM parseLine = .ok values := by
  rw [mapM_eq_ok, List.forall₂_map_left_iff]
  exact h

/-- What a table says when it has been read. -/
structure IsRead (markdown : JsText) (table : Table) : Prop where
  bytes : byteLength markdown ≤ OFFICE_LIMITS.csvBytes
  height : 2 ≤ (tableLines markdown).length ∧
    (tableLines markdown).length ≤ OFFICE_LIMITS.tableRows + 1
  blank : ∀ line ∈ tableLines markdown, isBlank line = false
  separator : ∃ separator, parseLine ((tableLines markdown).getD 1 []) = .ok separator ∧
    separator.length = table.columns ∧ ∀ cell ∈ separator, isSeparator cell = true
  rows : ∃ header body, table.rows = header :: body ∧ header.length = table.columns ∧
    parseLine ((tableLines markdown).getD 0 []) = .ok header ∧
    ((tableLines markdown).drop 2).mapM parseLine = .ok body ∧
    ∀ row ∈ body, row.length = table.columns
  total : (table.rows.map List.length).sum ≤ OFFICE_LIMITS.cells

theorem parseMarkdownTable_eq_ok {markdown : JsText} {table : Table} :
    parseMarkdownTable markdown = .ok table ↔ IsRead markdown table := by
  simp only [parseMarkdownTable, bind_eq_ok, assert_eq_ok, pure_eq_ok, exists_const]
  constructor
  · rintro ⟨hbytes, hheight, hblank, header, hheader, separator, hseparator, hwidth, hdashes, body,
      hbody, hrows, htotal, rfl⟩
    exact ⟨hbytes, hheight, hblank, ⟨separator, hseparator, hwidth, hdashes⟩,
      ⟨header, body, rfl, rfl, hheader, hbody, hrows⟩, htotal⟩
  · rintro ⟨hbytes, hheight, hblank, ⟨separator, hseparator, hwidth, hdashes⟩, hrows, htotal⟩
    obtain ⟨rows, columns⟩ := table
    obtain ⟨header, body, rfl, rfl, hheader, hbody, hrows⟩ := hrows
    exact ⟨hbytes, hheight, hblank, header, hheader, separator, hseparator, hwidth, hdashes, body,
      hbody, hrows, htotal, rfl⟩

theorem exists_of_forall₂ {α β : Type} {R : α → β → Prop} {xs : List α} {ys : List β}
    (h : List.Forall₂ R xs ys) {y : β} (hy : y ∈ ys) : ∃ x ∈ xs, R x y := by
  obtain ⟨i, rfl⟩ := List.mem_iff_get.mp hy
  have hlt : i.1 < xs.length := by
    rw [h.length_eq]
    exact i.2
  exact ⟨_, List.get_mem xs ⟨i, hlt⟩, h.get hlt i.2⟩

/-- A table is read back when its cells are. -/
theorem parseMarkdownTable_tableOf {columns : Nat} {rows values : List (List JsText)} {tail : JsText}
    (hrows : rows ≠ []) (hheight : rows.length ≤ OFFICE_LIMITS.tableRows)
    (hcolumns : 1 ≤ columns ∧ columns ≤ OFFICE_LIMITS.tableColumns)
    (hwidth : ∀ row ∈ rows, row.length = columns)
    (hescapes : List.Forall₂ (List.Forall₂ Escapes) rows values)
    (hvalues : ∀ row ∈ values, ∀ value ∈ row,
      trim value = value ∧ value.length ≤ OFFICE_LIMITS.modelTextChars)
    (hbreak : ∀ row ∈ rows, ∀ cell ∈ row, newline ∉ cell)
    (htail : tail = [] ∨ tail = [newline])
    (htotal : (values.map List.length).sum ≤ OFFICE_LIMITS.cells)
    (hbytes : byteLength ([newline].intercalate (tableOf columns rows) ++ tail) ≤
      OFFICE_LIMITS.csvBytes) :
    parseMarkdownTable ([newline].intercalate (tableOf columns rows) ++ tail) =
      .ok ⟨values, columns⟩ := by
  have hvalueWidth : ∀ value ∈ values, value.length = columns := by
    intro value hvalue
    obtain ⟨row, hrow, hcells⟩ := exists_of_forall₂ hescapes hvalue
    rw [← hcells.length_eq, hwidth row hrow]
  have hread : List.Forall₂ (fun row value => parseLine (line row) = .ok value) rows values := by
    refine List.forall₂_iff_get.mpr ⟨hescapes.length_eq, fun i hi hi' => ?_⟩
    have hrow := hwidth _ (List.get_mem rows ⟨i, hi⟩)
    have hvalue := hvalues _ (List.get_mem values ⟨i, hi'⟩)
    refine parseLine_line (hescapes.get hi hi') ?_ ?_ (fun value h => (hvalue value h).1)
      (fun value h => (hvalue value h).2)
    · intro hnil
      rw [hnil, List.length_nil] at hrow
      omega
    · omega
  have hlines := @tableLines_tableOf columns _ _ hrows hbreak htail
  cases hread with
  | nil => exact absurd rfl hrows
  | @cons headerRow header rows body hheader hbody =>
      refine parseMarkdownTable_eq_ok.mpr ⟨hbytes, ?_, ?_, ?_, ?_, htotal⟩
      · rw [hlines]
        simp only [tableOf, withSeparator, List.map_cons, List.length_cons, List.length_map] at hheight ⊢
        omega
      · rw [hlines]
        intro text htext
        obtain ⟨row, -, rfl⟩ := List.mem_map.mp htext
        rw [isBlank, trim_line]
        rfl
      · rw [hlines]
        refine ⟨separator columns, parseLine_separator hcolumns, List.length_replicate, ?_⟩
        intro cell hcell
        rw [List.eq_of_mem_replicate hcell]
        decide
      · rw [hlines]
        obtain ⟨hfirst, hothers⟩ := List.forall_mem_cons.mp hvalueWidth
        exact ⟨header, body, rfl, hfirst, hheader, mapM_parseLine hbody, hothers⟩

/-- What is read is trimmed, on one line and made of units of the text. -/
theorem cells_of_parseMarkdownTable {markdown : JsText} {table : Table}
    (h : parseMarkdownTable markdown = .ok table) : table.rows ≠ [] ∧ ∀ row ∈ table.rows, row ≠ [] ∧
      ∀ cell ∈ row, trim cell = cell ∧ newline ∉ cell ∧ ∀ unit ∈ cell, unit ∈ markdown := by
  have hread := parseMarkdownTable_eq_ok.mp h
  obtain ⟨header, body, hrows, -, hheader, hbody, -⟩ := hread.rows
  have hcells {text : JsText} {row : List JsText} (htext : text ∈ tableLines markdown)
      (hrow : parseLine text = .ok row) : row ≠ [] ∧ ∀ cell ∈ row, trim cell = cell ∧
        newline ∉ cell ∧ ∀ unit ∈ cell, unit ∈ markdown := by
    obtain ⟨hne, hcells⟩ := cells_of_parseLine hrow
    obtain ⟨hbreak, hunits⟩ := mem_tableLines htext
    refine ⟨hne, fun cell hcell => ?_⟩
    obtain ⟨htrim, hcell⟩ := hcells cell hcell
    exact ⟨htrim, fun hunit => hbreak (hcell _ hunit), fun unit hunit => hunits _ (hcell _ hunit)⟩
  rw [hrows]
  refine ⟨List.cons_ne_nil _ _, List.forall_mem_cons.mpr ⟨?_, fun row hrow => ?_⟩⟩
  · have hpos : 0 < (tableLines markdown).length := by
      have hheight := hread.height
      omega
    rw [List.getD_eq_getElem?_getD, List.getElem?_eq_getElem hpos, Option.getD_some] at hheader
    exact hcells (List.getElem_mem hpos) hheader
  · rw [mapM_eq_ok] at hbody
    obtain ⟨text, htext, hrow⟩ := exists_of_forall₂ hbody hrow
    exact hcells (List.mem_of_mem_drop htext) hrow

/-- The rows of a table are read from their own lines. -/
theorem forall₂_of_parseMarkdownTable {columns : Nat} {rows : List (List JsText)} {markdown : JsText}
    {table : Table} (hrows : rows ≠ []) (hlines : tableLines markdown = tableOf columns rows)
    (h : parseMarkdownTable markdown = .ok table) :
    List.Forall₂ (fun row value => parseLine (line row) = .ok value) rows table.rows := by
  obtain ⟨header, body, htable, -, hheader, hbody, -⟩ := (parseMarkdownTable_eq_ok.mp h).rows
  rw [hlines] at hheader hbody
  obtain ⟨headerRow, bodyRows, rfl⟩ := List.exists_cons_of_ne_nil hrows
  rw [htable]
  refine .cons hheader ?_
  have hbody : (bodyRows.map line).mapM parseLine = .ok body := hbody
  rwa [mapM_eq_ok, List.forall₂_map_left_iff] at hbody

/-! ## Rows of texts -/

/-- Cells that are text. -/
def textCells (rows : List (List JsText)) : List (List Cell) := rows.map fun row => row.map Cell.text

theorem mapM_escapeCell {row fields : List JsText}
    (h : (row.map Cell.text).mapM escapeCell = .ok fields) :
    fields = row.map escapeText ∧ ∀ cell ∈ row,
      cell.length ≤ OFFICE_LIMITS.modelTextChars ∧ cell.any isControl = false := by
  rw [mapM_eq_ok, List.forall₂_map_left_iff] at h
  induction h with
  | nil => exact ⟨rfl, fun cell hcell => absurd hcell List.not_mem_nil⟩
  | cons hcell _ ih =>
      simp only [escapeCell, cellText, bind_eq_ok, assert_eq_ok, pure_eq_ok, exists_const,
        Except.ok.injEq, exists_eq_left'] at hcell
      refine ⟨?_, List.forall_mem_cons.mpr ⟨⟨hcell.1, hcell.2.1⟩, ih.2⟩⟩
      rw [List.map_cons, ← hcell.2.2, ih.1]

theorem escapeRows_eq_ok {columns cells : Nat} {rows : List (List JsText)}
    {result : List (List JsText) × Nat}
    (h : escapeRows columns cells (textCells rows) = .ok result) :
    result.1 = rows.map (List.map escapeText) ∧ result.2 = max columns (widthOf rows) ∧
      (cells ≤ OFFICE_LIMITS.cells → cells + (rows.map List.length).sum ≤ OFFICE_LIMITS.cells) ∧
      ∀ row ∈ rows, row.length ≤ OFFICE_LIMITS.tableColumns ∧ ∀ cell ∈ row,
        cell.length ≤ OFFICE_LIMITS.modelTextChars ∧ cell.any isControl = false := by
  induction rows generalizing columns cells result with
  | nil =>
      rw [textCells, List.map_nil, escapeRows, Except.ok.injEq] at h
      subst h
      exact ⟨rfl, by simp [widthOf], fun hcells => by simpa using hcells,
        fun row hrow => absurd hrow List.not_mem_nil⟩
  | cons row rows ih =>
      rw [textCells, List.map_cons] at h
      simp only [escapeRows, bind_eq_ok, assert_eq_ok, pure_eq_ok, exists_const, List.length_map] at h
      obtain ⟨hwidth, hcells, fields, hfields, ⟨rest, width⟩, hrest, rfl⟩ := h
      obtain ⟨hfields, hcell⟩ := mapM_escapeCell hfields
      obtain ⟨hrows, hcolumns, htotal, hshort⟩ := ih hrest
      refine ⟨?_, ?_, fun _ => ?_, List.forall_mem_cons.mpr ⟨⟨hwidth, hcell⟩, hshort⟩⟩
      · simp only [hfields, List.map_cons] at hrows ⊢
        rw [hrows]
      · simp only [widthOf, List.map_cons, List.foldr_cons] at hcolumns ⊢
        rw [hcolumns, max_assoc]
      · rw [List.map_cons, List.sum_cons, ← Nat.add_assoc]
        exact htotal hcells

theorem widthOf_eq {columns : Nat} {rows : List (List JsText)} (hne : rows ≠ [])
    (hwidth : ∀ row ∈ rows, row.length = columns) : widthOf rows = columns := by
  induction rows with
  | nil => exact absurd rfl hne
  | cons row rows ih =>
      obtain ⟨hrow, hrows⟩ := List.forall_mem_cons.mp hwidth
      simp only [widthOf, List.map_cons, List.foldr_cons] at ih ⊢
      by_cases hrest : rows = []
      · subst hrest
        simp [hrow]
      · rw [ih hrest hrows, hrow, max_self]

theorem pad_eq_self {columns : Nat} {row : List JsText} (h : columns ≤ row.length) :
    pad columns row = row := by
  rw [pad, Nat.sub_eq_zero_of_le h, List.replicate_zero, List.append_nil]

/-- Rows of texts that are written as a table. -/
theorem of_rowsToMarkdownTable {columns : Nat} {rows : List (List JsText)} {markdown : JsText}
    (hwidth : ∀ row ∈ rows, row.length = columns)
    (h : rowsToMarkdownTable (textCells rows) = .ok markdown) :
    rows ≠ [] ∧ rows.length ≤ OFFICE_LIMITS.tableRows ∧
      (1 ≤ columns ∧ columns ≤ OFFICE_LIMITS.tableColumns) ∧
      (rows.map List.length).sum ≤ OFFICE_LIMITS.cells ∧
      (∀ row ∈ rows, ∀ cell ∈ row,
        cell.length ≤ OFFICE_LIMITS.modelTextChars ∧ cell.any isControl = false) ∧
      byteLength markdown ≤ OFFICE_LIMITS.csvBytes ∧
      markdown =
        [newline].intercalate (tableOf columns (rows.map (List.map escapeText))) ++ [newline] := by
  simp only [rowsToMarkdownTable, normalizeRows, bind_eq_ok, assert_eq_ok, pure_eq_ok,
    exists_const] at h
  obtain ⟨⟨normalized, width⟩, ⟨hheight, result, hresult, hcolumns, hpadded⟩, hbytes, rfl⟩ := h
  rw [textCells, List.length_map] at hheight
  obtain ⟨hrows, hmax, htotal, hcells⟩ := escapeRows_eq_ok hresult
  rw [Prod.mk.injEq] at hpadded
  obtain ⟨rfl, rfl⟩ := hpadded
  have hne : rows ≠ [] := by
    rintro rfl
    rw [List.length_nil] at hheight
    omega
  have hall : result.2 = columns := by
    rw [hmax, widthOf_eq hne hwidth, Nat.zero_max]
  rw [hall] at hcolumns
  obtain ⟨first, hfirst⟩ := List.exists_mem_of_ne_nil rows hne
  have hbound := (hcells first hfirst).1
  rw [hwidth first hfirst] at hbound
  refine ⟨hne, hheight.2, ⟨hcolumns, hbound⟩, by simpa using htotal (Nat.zero_le _),
    fun row hrow => (hcells row hrow).2, hbytes, ?_⟩
  have hpad : result.1.map (pad result.2) = rows.map (List.map escapeText) := by
    rw [hrows, hall, List.map_map]
    refine List.map_congr_left fun row hrow => ?_
    refine pad_eq_self ?_
    rw [List.length_map, hwidth row hrow]
  rw [hpad, hall, tableOf]

theorem forall₂_map_self {α β : Type} {R : β → α → Prop} {f : α → β} {xs : List α}
    (h : ∀ x ∈ xs, R (f x) x) : List.Forall₂ R (xs.map f) xs := by
  rw [List.forall₂_map_left_iff]
  exact List.forall₂_same.mpr h

/-- Trimmed texts in a rectangle come back from their table exactly when they have no angle
bracket. -/
theorem parse_rowsToMarkdownTable_iff {columns : Nat} {rows : List (List JsText)} {markdown : JsText}
    (hwidth : ∀ row ∈ rows, row.length = columns)
    (htrim : ∀ row ∈ rows, ∀ cell ∈ row, trim cell = cell)
    (h : rowsToMarkdownTable (textCells rows) = .ok markdown) :
    parseMarkdownTable markdown = .ok ⟨rows, columns⟩ ↔
      ∀ row ∈ rows, ∀ cell ∈ row, 60 ∉ cell ∧ 62 ∉ cell := by
  obtain ⟨hne, hheight, hcolumns, htotal, hcells, hbytes, rfl⟩ := of_rowsToMarkdownTable hwidth h
  constructor
  · intro hparse row hrow cell hcell
    obtain ⟨-, hread⟩ := cells_of_parseMarkdownTable hparse
    have hunits := ((hread row hrow).2 cell hcell).2.2
    have hfree : ∀ unit, unit = 60 ∨ unit = 62 →
        unit ∉ [newline].intercalate (tableOf columns (rows.map (List.map escapeText))) ++
          [newline] := by
      intro unit hunit
      have hsep : unit ∉ [newline] := by
        rcases hunit with rfl | rfl <;> decide
      have hjoin : unit ∉ [newline].intercalate
          (tableOf columns (rows.map (List.map escapeText))) := by
        refine not_mem_intercalate hsep fun text htext => ?_
        obtain ⟨row, hrow, rfl⟩ := List.mem_map.mp htext
        refine not_mem_line (by omega) (by omega) ?_
        rcases mem_withSeparator hrow with hrow | rfl
        · obtain ⟨line, -, rfl⟩ := List.mem_map.mp hrow
          exact List.forall_mem_map.mpr fun cell _ => not_mem_escapeText hunit cell
        · intro cell hcell
          rw [List.eq_of_mem_replicate hcell]
          rcases hunit with rfl | rfl <;> decide
      exact fun hmem => (List.mem_append.mp hmem).elim hjoin hsep
    exact ⟨fun hunit => hfree 60 (.inl rfl) (hunits 60 hunit),
      fun hunit => hfree 62 (.inr rfl) (hunits 62 hunit)⟩
  · intro hangles
    refine parseMarkdownTable_tableOf (by simpa using hne) (by simpa using hheight) hcolumns ?_ ?_ ?_
      ?_ (.inr rfl) htotal hbytes
    · intro row hrow
      obtain ⟨line, hline, rfl⟩ := List.mem_map.mp hrow
      rw [List.length_map, hwidth line hline]
    · exact forall₂_map_self fun row hrow =>
        forall₂_map_self fun cell hcell => escapes_escapeText (hangles row hrow cell hcell)
    · exact fun row hrow cell hcell => ⟨htrim row hrow cell hcell, (hcells row hrow cell hcell).1⟩
    · intro row hrow cell hcell hunit
      obtain ⟨line, hline, rfl⟩ := List.mem_map.mp hrow
      obtain ⟨text, htext, rfl⟩ := List.mem_map.mp hcell
      have hcontrol := List.any_eq_false.mp (hcells line hline text htext).2 newline
        (mem_of_mem_escapeText hunit)
      exact hcontrol (by decide)

/-! ## Tables of documents -/

theorem length_le_widthOf {rows : List (List JsText)} {row : List JsText} (h : row ∈ rows) :
    row.length ≤ widthOf rows := by
  induction rows with
  | nil => exact absurd h List.not_mem_nil
  | cons first rows ih =>
      simp only [widthOf, List.map_cons, List.foldr_cons] at ih ⊢
      rcases List.mem_cons.mp h with rfl | h
      · exact le_max_left _ _
      · exact (ih h).trans (le_max_right _ _)

theorem widthOf_le {bound : Nat} {rows : List (List JsText)} (h : ∀ row ∈ rows, row.length ≤ bound) :
    widthOf rows ≤ bound := by
  induction rows with
  | nil => exact Nat.zero_le _
  | cons row rows ih =>
      obtain ⟨hrow, hrows⟩ := List.forall_mem_cons.mp h
      simp only [widthOf, List.map_cons, List.foldr_cons] at ih ⊢
      exact max_le hrow (ih hrows)

theorem length_pad {columns : Nat} {row : List JsText} (h : row.length ≤ columns) :
    (pad columns row).length = columns := by
  rw [pad, List.length_append, List.length_replicate, Nat.add_sub_cancel' h]

theorem mem_pad {columns : Nat} {row : List JsText} {cell : JsText} (h : cell ∈ pad columns row) :
    cell ∈ row ∨ cell = [] := by
  rcases List.mem_append.mp h with h | h
  · exact .inl h
  · exact .inr (List.eq_of_mem_replicate h)

/-- The units of the cells of a table. -/
def unitsOf (rows : List (List JsText)) : Nat := (rows.map fun row => (row.map List.length).sum).sum

/-- A table that can be in a document. -/
structure Bounded (textLength : Nat) (rows : List (List JsText)) : Prop where
  height : rows.length ≤ OFFICE_LIMITS.tableRows
  width : ∀ row ∈ rows, row.length ≤ OFFICE_LIMITS.tableColumns
  short : ∀ row ∈ rows, ∀ cell ∈ row, cell.length ≤ OFFICE_LIMITS.modelTextChars
  units : unitsOf rows ≤ textLength

theorem paragraphText_eq_ok {text result : JsText} : paragraphText text = .ok result ↔
    text.length ≤ OFFICE_LIMITS.modelTextChars ∧ text = result := by
  simp only [paragraphText, bind_eq_ok, assert_eq_ok, pure_eq_ok, exists_const]

theorem mapM_paragraphText {row result : List JsText} (h : row.mapM paragraphText = .ok result) :
    row = result ∧ ∀ cell ∈ result, cell.length ≤ OFFICE_LIMITS.modelTextChars := by
  rw [mapM_eq_ok] at h
  induction h with
  | nil => exact ⟨rfl, fun cell hcell => absurd hcell List.not_mem_nil⟩
  | cons hcell _ ih =>
      obtain ⟨hlength, rfl⟩ := paragraphText_eq_ok.mp hcell
      exact ⟨by rw [ih.1], List.forall_mem_cons.mpr ⟨hlength, ih.2⟩⟩

theorem countRows_eq_ok {textLength modelItems : Nat} {rows : List (List JsText)}
    {result : Nat × Nat} (h : countRows textLength modelItems rows = .ok result) :
    result.1 = textLength + unitsOf rows ∧ ∀ row ∈ rows, row.length ≤ OFFICE_LIMITS.tableColumns := by
  induction rows generalizing textLength modelItems with
  | nil =>
      rw [countRows, Except.ok.injEq] at h
      subst h
      exact ⟨rfl, fun row hrow => absurd hrow List.not_mem_nil⟩
  | cons row rows ih =>
      simp only [countRows, bind_eq_ok, assert_eq_ok, exists_const] at h
      obtain ⟨hwidth, hrest⟩ := h
      obtain ⟨hunits, hrows⟩ := ih hrest
      refine ⟨?_, List.forall_mem_cons.mpr ⟨hwidth, hrows⟩⟩
      rw [hunits, unitsOf, unitsOf, List.map_cons, List.sum_cons, Nat.add_assoc]

/-- What the loop keeps: every table is bounded by the text that has been counted. -/
structure Extracted (st : Extraction) : Prop where
  tables : ∀ rows, .table rows ∈ st.blocks → Bounded st.textLength rows
  text : st.textLength ≤ OFFICE_LIMITS.xmlTextBytes

theorem Bounded.mono {n m : Nat} {rows : List (List JsText)} (h : Bounded n rows) (hle : n ≤ m) :
    Bounded m rows :=
  ⟨h.height, h.width, h.short, h.units.trans hle⟩

theorem extracted_extractToken {st st' : Extraction} {token : Token} (hst : Extracted st)
    (h : extractToken st token = .ok st') : Extracted st' := by
  simp only [extractToken, bind_eq_ok, assert_eq_ok, pure_eq_ok, exists_const] at h
  obtain ⟨next, hnext, -, htext, -, rfl⟩ := h
  refine ⟨fun rows hrows => ?_, htext⟩
  cases token with
  | paragraph style text =>
      simp only [addToken, bind_eq_ok, pure_eq_ok] at hnext
      obtain ⟨text, -, rfl⟩ := hnext
      have hold : .table rows ∈ st.blocks := by
        cases style with
        | some level => simpa using hrows
        | none =>
            dsimp only at hrows
            split_ifs at hrows <;> simpa using hrows
      exact (hst.tables rows hold).mono (Nat.le_add_right _ _)
  | table table =>
      simp only [addToken, bind_eq_ok, assert_eq_ok, pure_eq_ok, exists_const] at hnext
      obtain ⟨result, hresult, hheight, ⟨textLength, modelItems⟩, hcount, rfl⟩ := hnext
      obtain ⟨hunits, hwidth⟩ := countRows_eq_ok hcount
      dsimp only at hunits hrows ⊢
      rcases List.mem_append.mp hrows with hold | hnew
      · exact (hst.tables rows hold).mono (by omega)
      · rw [List.mem_singleton, Block.table.injEq] at hnew
        subst hnew
        refine ⟨hheight, hwidth, fun row hrow => ?_, by omega⟩
        rw [mapM_eq_ok] at hresult
        obtain ⟨raw, -, hraw⟩ := exists_of_forall₂ hresult hrow
        exact (mapM_paragraphText hraw).2

/-- A table of a document is bounded. -/
theorem bounded_of_extractBlocks {tokens : List Token} {blocks : List Block}
    {rows : List (List JsText)} (h : extractBlocks tokens = .ok blocks)
    (hrows : .table rows ∈ blocks) : Bounded OFFICE_LIMITS.xmlTextBytes rows := by
  obtain ⟨st, hst, hblocks⟩ := bind_eq_ok.mp h
  rw [pure_eq_ok] at hblocks
  have hextracted : Extracted st :=
    foldlM_induct (R := fun _ st => Extracted st) (fun _ _ _ _ hold hnext =>
      extracted_extractToken hold hnext) ⟨fun rows hrows => absurd hrows List.not_mem_nil,
      Nat.zero_le _⟩ hst
  exact (hextracted.tables rows (hblocks ▸ hrows)).mono hextracted.text

/-! ## Bytes of a table -/

/-- No unit takes more bytes than this. -/
def weight (unit : Nat) : Nat := if unit < 128 then 1 else 4

def weightSum (text : JsText) : Nat := (text.map weight).sum

theorem weightSum_append (a b : JsText) : weightSum (a ++ b) = weightSum a + weightSum b := by
  simp [weightSum]

theorem weight_le (unit : Nat) : weight unit ≤ 4 := by
  unfold weight
  split_ifs <;> omega

theorem weightSum_le (text : JsText) : weightSum text ≤ 4 * text.length := by
  induction text with
  | nil => exact Nat.le_refl _
  | cons unit text ih =>
      have hunit := weight_le unit
      simp only [weightSum, List.map_cons, List.sum_cons, List.length_cons] at ih ⊢
      omega

theorem length_utf8Char_le (c : Char) : (utf8Char c).length ≤ weight c.toNat := by
  unfold utf8Char weight
  dsimp only
  split_ifs <;> simp

theorem weight_scalar_le (unit : Nat) : weight (scalar unit).toNat ≤ weight unit := by
  by_cases hascii : unit < 128
  · have hall : ∀ n < 128, weight (scalar n).toNat ≤ weight n := by decide
    exact hall unit hascii
  · rw [weight, weight, if_neg hascii]
    split_ifs <;> omega

theorem byteLength_le (text : JsText) : byteLength text ≤ weightSum text := by
  have hchar (value : Nat) : (utf8Char (scalar value)).length ≤ weight value :=
    (length_utf8Char_le _).trans (weight_scalar_le value)
  unfold byteLength scalars
  induction text using characters.induct with
  | case1 => exact Nat.zero_le _
  | case2 unit =>
      have hunit := hchar unit
      simpa [characters, codePoint, weightSum, utf8] using hunit
  | case3 high low rest hpair ih =>
      have hboth := (length_utf8Char_le (scalar (codePoint [high, low]))).trans (weight_le _)
      have hhigh : weight high = 4 ∧ weight low = 4 := by
        simp only [isHighSurrogate, isLowSurrogate, Bool.and_eq_true, decide_eq_true_eq] at hpair
        exact ⟨if_neg (by omega), if_neg (by omega)⟩
      rw [characters, if_pos hpair, List.map_cons, utf8_cons, List.length_append]
      simp only [weightSum, List.map_cons, List.sum_cons] at ih ⊢
      omega
  | case4 high low rest hpair ih =>
      have hunit := hchar high
      have hone : codePoint [high] = high := rfl
      rw [characters, if_neg hpair, List.map_cons, utf8_cons, List.length_append, hone]
      simp only [weightSum, List.map_cons, List.sum_cons] at ih ⊢
      omega

theorem weightSum_intercalate_le (sep : JsText) (texts : List JsText) :
    weightSum (sep.intercalate texts) ≤
      (texts.map weightSum).sum + weightSum sep * texts.length := by
  induction texts with
  | nil => exact Nat.zero_le _
  | cons text texts ih =>
      by_cases hrest : texts = []
      · subst hrest
        simp
      · rw [List.intercalate_cons_of_ne_nil hrest, weightSum_append, weightSum_append, List.map_cons,
          List.sum_cons, List.length_cons, Nat.mul_add, Nat.mul_one]
        omega

theorem weightSum_line_le (row : List JsText) :
    weightSum (line row) ≤ (row.map weightSum).sum + 3 * row.length + 4 := by
  have hjoin := weightSum_intercalate_le [32, 124, 32] row
  have hsep : weightSum [32, 124, 32] = 3 := by decide
  have hends : weightSum [124, 32] = 2 ∧ weightSum [32, 124] = 2 := by decide
  rw [hsep] at hjoin
  rw [line, weightSum_append, weightSum_append, hends.1, hends.2]
  omega

theorem weightSum_escapePipes_le (text : JsText) : weightSum (escapePipes text) ≤ 4 * text.length := by
  induction text with
  | nil => exact Nat.le_refl _
  | cons unit text ih =>
      have hunit : weightSum (if unit = 124 then [92, 124] else [unit]) ≤ 4 := by
        split_ifs
        · decide
        · have := weight_le unit
          simpa [weightSum] using this
      have htext : escapePipes (unit :: text) =
          (if unit = 124 then [92, 124] else [unit]) ++ escapePipes text := rfl
      rw [htext, weightSum_append, List.length_cons]
      omega

theorem weightSum_padded_le (columns : Nat) (row : List JsText) :
    (((pad columns row).map escapePipes).map weightSum).sum ≤ 4 * (row.map List.length).sum := by
  have hempty : weightSum (escapePipes []) = 0 := rfl
  rw [pad, List.map_append, List.map_append, List.sum_append, List.map_replicate, List.map_replicate,
    hempty, List.sum_replicate, smul_zero, Nat.add_zero]
  induction row with
  | nil => exact Nat.le_refl _
  | cons cell row ih =>
      have hcell := weightSum_escapePipes_le cell
      simp only [List.map_cons, List.sum_cons]
      omega

theorem weightSum_separator (columns : Nat) : weightSum (line (separator columns)) ≤ 6 * columns + 4 := by
  have hline := weightSum_line_le (separator columns)
  have hdashes : weightSum dashes = 3 := by decide
  rw [separator, List.map_replicate, List.sum_replicate, List.length_replicate, hdashes,
    smul_eq_mul] at hline
  rw [separator]
  omega

theorem weightSum_rows_le {columns : Nat} {rows : List (List JsText)}
    (hwidth : ∀ row ∈ rows, row.length ≤ columns) :
    ((rows.map fun row => weightSum (line ((pad columns row).map escapePipes))).sum) ≤
      4 * unitsOf rows + 3 * (rows.length * columns) + 4 * rows.length := by
  induction rows with
  | nil => exact Nat.zero_le _
  | cons row rows ih =>
      obtain ⟨hrow, hrows⟩ := List.forall_mem_cons.mp hwidth
      have hline := weightSum_line_le ((pad columns row).map escapePipes)
      have hcells := weightSum_padded_le columns row
      have hrest := ih hrows
      rw [List.length_map, length_pad hrow] at hline
      simp only [List.map_cons, List.sum_cons, unitsOf, List.length_cons, Nat.add_mul, Nat.one_mul] at hrest ⊢
      omega

/-- The rows of a table block as they are written. -/
def writtenRows (rows : List (List JsText)) : List (List JsText) :=
  rows.map fun row => (pad (widthOf rows) row).map escapePipes

theorem tableText_eq (rows : List (List JsText)) :
    tableText rows = [newline].intercalate (tableOf (widthOf rows) (writtenRows rows)) := rfl

theorem sum_withSeparator_le (columns : Nat) (rows : List (List JsText)) (f : List JsText → Nat) :
    ((withSeparator columns rows).map f).sum ≤ (rows.map f).sum + f (separator columns) := by
  cases rows with
  | nil => exact Nat.zero_le _
  | cons header body =>
      simp only [withSeparator, List.map_cons, List.sum_cons]
      omega

theorem length_withSeparator_le (columns : Nat) (rows : List (List JsText)) :
    (withSeparator columns rows).length ≤ rows.length + 1 := by
  cases rows with
  | nil => exact Nat.zero_le _
  | cons header body => exact Nat.le_refl _

/-- Tables of documents are within the limit on bytes that the reader sets. -/
theorem byteLength_tableText_le {rows : List (List JsText)}
    (hbounded : Bounded OFFICE_LIMITS.xmlTextBytes rows)
    (htotal : rows.length * widthOf rows ≤ OFFICE_LIMITS.cells) :
    byteLength (tableText rows) ≤ OFFICE_LIMITS.csvBytes := by
  have hwidth : widthOf rows ≤ 256 := widthOf_le hbounded.width
  have hheight : rows.length ≤ 4096 := hbounded.height
  have hunits : unitsOf rows ≤ 2 * 1024 * 1024 := hbounded.units
  have hcells : rows.length * widthOf rows ≤ 1000000 := htotal
  have hrows := @weightSum_rows_le (widthOf rows) rows fun row hrow =>
    length_le_widthOf hrow
  have hseparator := weightSum_separator (widthOf rows)
  have hjoin := weightSum_intercalate_le [newline] (tableOf (widthOf rows) (writtenRows rows))
  have hnewline : weightSum [newline] = 1 := by decide
  have hsum : ((tableOf (widthOf rows) (writtenRows rows)).map weightSum).sum ≤
      (rows.map fun row => weightSum (line ((pad (widthOf rows) row).map escapePipes))).sum +
        weightSum (line (separator (widthOf rows))) := by
    have h := sum_withSeparator_le (widthOf rows) (writtenRows rows) fun row => weightSum (line row)
    rw [writtenRows, List.map_map] at h
    rw [tableOf, List.map_map]
    exact h
  have hlength : (tableOf (widthOf rows) (writtenRows rows)).length ≤ rows.length + 1 := by
    have h := length_withSeparator_le (widthOf rows) (writtenRows rows)
    rw [writtenRows, List.length_map] at h
    rw [tableOf, List.length_map]
    exact h
  have hbytes := byteLength_le (tableText rows)
  rw [tableText_eq] at hbytes ⊢
  have hlimit : OFFICE_LIMITS.csvBytes = 16 * 1024 * 1024 := rfl
  rw [hnewline] at hjoin
  omega

/-- A table of a document that comes back: it has a column, it is not too large when it is padded, and
its cells are trimmed, on one line and without backslashes. -/
def ReadsBack (rows : List (List JsText)) : Prop :=
  1 ≤ widthOf rows ∧ rows.length * widthOf rows ≤ OFFICE_LIMITS.cells ∧
    ∀ row ∈ rows, ∀ cell ∈ row, trim cell = cell ∧ newline ∉ cell ∧ 92 ∉ cell

theorem parse_tableText_iff {rows : List (List JsText)}
    (hbounded : Bounded OFFICE_LIMITS.xmlTextBytes rows) (hne : rows ≠ []) :
    parseMarkdownTable (tableText rows) = .ok ⟨rows.map (pad (widthOf rows)), widthOf rows⟩ ↔
      ReadsBack rows := by
  have hpadded : ∀ row ∈ rows, (pad (widthOf rows) row).length = widthOf rows := fun row hrow =>
    length_pad (length_le_widthOf hrow)
  have hsum : ((rows.map (pad (widthOf rows))).map List.length).sum = rows.length * widthOf rows := by
    have hconst : rows.map (List.length ∘ pad (widthOf rows)) = rows.map fun _ => widthOf rows :=
      List.map_congr_left hpadded
    rw [List.map_map, hconst, List.map_const', List.sum_replicate, smul_eq_mul]
  have hwritten : writtenRows rows ≠ [] := by
    simpa [writtenRows] using hne
  have hbreak (h : ∀ row ∈ rows, ∀ cell ∈ row, newline ∉ cell) :
      ∀ row ∈ writtenRows rows, ∀ cell ∈ row, newline ∉ cell := by
    intro row hrow cell hcell hunit
    obtain ⟨line, hline, rfl⟩ := List.mem_map.mp hrow
    obtain ⟨text, htext, rfl⟩ := List.mem_map.mp hcell
    have hunit := mem_of_mem_escapePipes hunit
    rcases mem_pad htext with htext | rfl
    · exact h line hline text htext hunit
    · exact absurd hunit List.not_mem_nil
  rw [tableText_eq]
  constructor
  · intro hparse
    obtain ⟨-, hread⟩ := cells_of_parseMarkdownTable hparse
    have hcell : ∀ row ∈ rows, ∀ cell ∈ row, trim cell = cell ∧ newline ∉ cell := by
      intro row hrow cell hcell
      have hcells := (hread _ (List.mem_map_of_mem hrow)).2 cell (List.mem_append_left _ hcell)
      exact ⟨hcells.1, hcells.2.1⟩
    have hlines : tableLines ([newline].intercalate (tableOf (widthOf rows) (writtenRows rows))) =
        tableOf (widthOf rows) (writtenRows rows) := by
      have h := @tableLines_tableOf (widthOf rows) _ [] hwritten
        (hbreak fun row hrow cell h => (hcell row hrow cell h).2) (.inl rfl)
      rwa [List.append_nil] at h
    have hrows := forall₂_of_parseMarkdownTable hwritten hlines hparse
    rw [writtenRows, List.forall₂_map_left_iff, List.forall₂_map_right_iff,
      List.forall₂_same] at hrows
    refine ⟨?_, ?_, fun row hrow cell h => ⟨(hcell row hrow cell h).1, (hcell row hrow cell h).2, ?_⟩⟩
    · obtain ⟨row, hrow⟩ := List.exists_mem_of_ne_nil rows hne
      have hpos := List.length_pos_of_ne_nil (hread _ (List.mem_map_of_mem hrow)).1
      rwa [hpadded row hrow] at hpos
    · have htotal := (parseMarkdownTable_eq_ok.mp hparse).total
      rwa [hsum] at htotal
    · exact not_mem_of_parseLine (hrows row hrow) cell (List.mem_append_left _ h)
  · rintro ⟨hcolumns, htotal, hcells⟩
    have hpad : ∀ row ∈ rows, ∀ cell ∈ pad (widthOf rows) row,
        (trim cell = cell ∧ cell.length ≤ OFFICE_LIMITS.modelTextChars) ∧ 92 ∉ cell := by
      intro row hrow cell hcell
      rcases mem_pad hcell with hcell | rfl
      · exact ⟨⟨(hcells row hrow cell hcell).1, hbounded.short row hrow cell hcell⟩,
          (hcells row hrow cell hcell).2.2⟩
      · exact ⟨⟨rfl, Nat.zero_le _⟩, List.not_mem_nil⟩
    have hbytes := byteLength_tableText_le hbounded htotal
    rw [tableText_eq] at hbytes
    have hread := @parseMarkdownTable_tableOf (widthOf rows) (writtenRows rows)
      (rows.map (pad (widthOf rows))) [] hwritten
      (by simpa [writtenRows] using hbounded.height) ⟨hcolumns, widthOf_le hbounded.width⟩ ?_ ?_ ?_
      (hbreak fun row hrow cell h => (hcells row hrow cell h).2.1) (.inl rfl) (hsum.trans_le htotal)
      (by rwa [List.append_nil])
    · rwa [List.append_nil] at hread
    · intro row hrow
      obtain ⟨line, hline, rfl⟩ := List.mem_map.mp hrow
      rw [List.length_map, hpadded line hline]
    · rw [writtenRows, List.forall₂_map_left_iff, List.forall₂_map_right_iff, List.forall₂_same]
      exact fun row hrow => forall₂_map_self fun cell hcell =>
        escapes_escapePipes (hpad row hrow cell hcell).2
    · intro row hrow cell hcell
      obtain ⟨line, hline, rfl⟩ := List.mem_map.mp hrow
      exact (hpad line hline cell hcell).1

/-- Texts come back from a Markdown table exactly when they have no angle bracket, and the tables of
a document exactly when they read back. -/
theorem markdown_tables_iff (rows : List (List JsText)) (columns : Nat) (markdown : JsText)
    (tokens : List Token) (blocks : List Block) (table : List (List JsText))
    (hwidth : ∀ row ∈ rows, row.length = columns)
    (htrim : ∀ row ∈ rows, ∀ cell ∈ row, trim cell = cell)
    (hwrite : rowsToMarkdownTable (textCells rows) = .ok markdown)
    (hextract : extractBlocks tokens = .ok blocks) (htable : .table table ∈ blocks)
    (hne : table ≠ []) :
    (parseMarkdownTable markdown = .ok ⟨rows, columns⟩ ↔
        ∀ row ∈ rows, ∀ cell ∈ row, 60 ∉ cell ∧ 62 ∉ cell) ∧
      (parseMarkdownTable (blockText (.table table)) =
          .ok ⟨table.map (pad (widthOf table)), widthOf table⟩ ↔ ReadsBack table) := by
  refine ⟨parse_rowsToMarkdownTable_iff hwidth htrim hwrite, ?_⟩
  rw [blockText, if_neg hne]
  exact parse_tableText_iff (bounded_of_extractBlocks hextract htable) hne

theorem markdown_tables_sample :
    parseMarkdownTable (ofString "| a\\| |\n| --- |\n") = .ok ⟨[[ofString "a|"]], 1⟩ :=
  (markdown_tables_iff [[ofString "a|"]] 1 (ofString "| a\\| |\n| --- |\n")
    [.table [[ofString "b"]]] [.table [[ofString "b"]]] [[ofString "b"]] (by decide) (by decide)
    (by rfl) (by rfl) (by decide) (by decide)).1.mpr (by decide)

/-- An angle bracket comes back as its entity, and a backslash of a document takes the space after
it. -/
theorem markdown_cells_lost :
    (rowsToMarkdownTable [[.text (ofString "<")]] = .ok (ofString "| &lt; |\n| --- |\n") ∧
      parseMarkdownTable (ofString "| &lt; |\n| --- |\n") = .ok ⟨[[ofString "&lt;"]], 1⟩) ∧
    extractBlocks [.table [[ofString "a\\"]]] = .ok [.table [[ofString "a\\"]]] ∧
      parseMarkdownTable (blockText (.table [[ofString "a\\"]])) = .ok ⟨[[ofString "a"]], 1⟩ := by
  refine ⟨⟨by rfl, by rfl⟩, by rfl, by rfl⟩

end Useful.Office.Markdown
