import LayeredConfig.Proofs.Properties.Escaping
import LayeredConfig.Proofs.Text.Trim

/-!
# Texts of entries and comments

Every list of entries can be written as a text, one entry on a line, with blank lines and comments in between
(`Row`).  The line of each entry is a logical line of its own (`logicalLines_render`), whatever keys, values and
comments hold, so reading gives back the map in which the last value of each key wins (`parse_render`).
-/

namespace LayeredConfig

namespace Properties

open Text (isBlank trimStart)

/-- A blank line, or a comment: its first character that is not blank is `#` or `!`. -/
structure Remark where
  text : String
  oneLine : '\n' ∉ text.toList
  passedOver : ∀ c, text.toList.find? (fun c => !isBlank c) = some c → c = '#' ∨ c = '!'

/-- A line of a text. -/
inductive Row where
  | entry (key value : String)
  | remark (r : Remark)

namespace Row

/-- The line that an entry is written as, with nothing around its separator. -/
def line (key value : String) : List Char := escape key.toList ++ '=' :: escape value.toList

/-- How a row is written. -/
def text : Row → String
  | entry key value => String.ofList (line key value)
  | remark r => r.text

/-- The entry of a row, if it has one. -/
def entry? : Row → Option (String × String)
  | entry key value => some (key, value)
  | remark _ => none

end Row

/-- The text of several rows, one on each line. -/
def render (rows : List Row) : String := "\n".intercalate (rows.map Row.text)

/-! ### Lines -/

theorem lines_of_not_mem {l : List Char} (h : '\n' ∉ l) : lines l = if l.isEmpty then [] else [l] := by
  induction l with
  | nil => rfl
  | cons c l ih =>
    rw [List.mem_cons, not_or] at h
    rw [lines, ih h.2]
    · cases l with
      | nil => rfl
      | cons d l => rfl
    · exact fun hc => h.1 hc.symm
    · rintro cs - rfl
      simp at h

/-- A line ends before a line feed; a carriage return before it belongs to the end of the line. -/
private theorem lines_append_newline {l : List Char} (h : '\n' ∉ l) (rest : List Char) :
    ∃ first, (l = first ∨ l = first ++ ['\r']) ∧ lines (l ++ '\n' :: rest) = first :: lines rest := by
  induction l with
  | nil => exact ⟨[], .inl rfl, by rw [List.nil_append, lines]⟩
  | cons c l ih =>
    rw [List.mem_cons, not_or] at h
    by_cases hend : c = '\r' ∧ l = []
    · obtain ⟨rfl, rfl⟩ := hend
      exact ⟨[], .inr rfl, by rw [List.cons_append, List.nil_append, lines]⟩
    · obtain ⟨first, hfirst, heq⟩ := ih h.2
      refine ⟨c :: first, ?_, ?_⟩
      · rcases hfirst with rfl | rfl
        · exact .inl rfl
        · exact .inr rfl
      · rw [List.cons_append, lines, heq]
        · exact fun hc => h.1 hc.symm
        -- The line would end here only after a carriage return at its end.
        · intro cs hc hcs
          cases l with
          | nil => exact hend ⟨hc, rfl⟩
          | cons d l =>
            obtain ⟨rfl, -⟩ := List.cons.inj hcs
            simp at h

/-! ### Logical lines -/

theorem logicalLines_of_isIgnored {line : List Char} (h : isIgnored line = true) (rest : List (List Char)) :
    logicalLines none (line :: rest) = logicalLines none rest := by
  rw [logicalLines, if_pos h]

/-- A line that starts and ends with itself is a logical line. -/
theorem logicalLines_of_plain {line : List Char} (hne : line ≠ [])
    (hhead : ∀ c ∈ line.head?, isBlank c = false ∧ c ≠ '#' ∧ c ≠ '!') (hend : continues line = false)
    (rest : List (List Char)) : logicalLines none (line :: rest) = line :: logicalLines none rest := by
  have htrim : trimStart line = line := Text.trimStart_of_head? fun c hc => (hhead c hc).1
  have hkept : isIgnored line = false := by
    cases line with
    | nil => exact absurd rfl hne
    | cons c cs =>
      obtain ⟨-, hsharp, hbang⟩ := hhead c rfl
      simp [isIgnored, htrim, hsharp, hbang]
  simp [logicalLines, hkept, htrim, hend]

private theorem isIgnored_remark (r : Remark) {l : List Char} (h : r.text.toList = l ∨ r.text.toList = l ++ ['\r']) :
    isIgnored l = true := by
  have hfind (c : Char) (hc : l.find? (fun c => !isBlank c) = some c) : c = '#' ∨ c = '!' := by
    apply r.passedOver c
    rcases h with h | h
    · rwa [h]
    · rw [h, List.find?_append, hc]
      rfl
  unfold isIgnored
  split
  · rfl
  · rename_i c cs hc
    have hhead : l.find? (fun c => !isBlank c) = some c := by
      rw [List.find?_not_eq_head?_dropWhile, ← trimStart, hc]
      rfl
    rcases hfind c hhead with rfl | rfl
    · rfl
    · rfl

private theorem continues_line (key value : String) : continues (Row.line key value) = false := by
  have hseparator : Row.line key value = escape key.toList ++ ['='] ++ escape value.toList := by simp [Row.line]
  rw [hseparator]
  exact continues_append_escape (continues_concat (by decide) _) value.toList

private theorem logicalLines_line (key value : String) (rest : List (List Char)) :
    logicalLines none (Row.line key value :: rest) = Row.line key value :: logicalLines none rest := by
  refine logicalLines_of_plain ?_ (head?_escape_equals key.toList _) (continues_line key value) rest
  exact List.append_ne_nil_of_right_ne_nil _ (List.cons_ne_nil _ _)

/-- The logical line of a row, if it has one. -/
def Row.logical : Row → List (List Char)
  | entry key value => [line key value]
  | remark _ => []

private theorem not_mem_text (row : Row) : '\n' ∉ row.text.toList := by
  cases row with
  | entry key value =>
    rw [Row.text, String.toList_ofList, Row.line, List.mem_append, List.mem_cons]
    simp [not_mem_escape (.inl rfl)]
  | remark r => exact r.oneLine

/-- A row is read as what it is, also when a carriage return at its end counts as part of the end of its line. -/
private theorem logicalLines_row (row : Row) {first : List Char}
    (h : row.text.toList = first ∨ row.text.toList = first ++ ['\r']) (rest : List (List Char)) :
    logicalLines none (first :: rest) = row.logical ++ logicalLines none rest := by
  cases row with
  | entry key value =>
    rw [Row.text, String.toList_ofList] at h
    rcases h with rfl | h
    · exact logicalLines_line key value rest
    · have hreturn : '\r' ∈ Row.line key value := by simp [h]
      rw [Row.line, List.mem_append, List.mem_cons] at hreturn
      simp [not_mem_escape (.inr rfl)] at hreturn
  | remark r => exact logicalLines_of_isIgnored (isIgnored_remark r h) rest

private theorem toList_render_cons (row next : Row) (rows : List Row) :
    (render (row :: next :: rows)).toList = row.text.toList ++ '\n' :: (render (next :: rows)).toList := by
  simp [render]

/-- The logical lines of a text are those of its rows. -/
theorem logicalLines_render (rows : List Row) :
    logicalLines none (lines (render rows).toList) = rows.flatMap Row.logical := by
  induction rows with
  | nil => rfl
  | cons row rows ih =>
    cases rows with
    | nil =>
      have hlast : logicalLines none [row.text.toList] = row.logical :=
        (logicalLines_row row (.inl rfl) []).trans (List.append_nil row.logical)
      have hrender : (render [row]).toList = row.text.toList := by simp [render]
      rw [hrender, lines_of_not_mem (not_mem_text row), List.flatMap_singleton]
      -- An empty text has no line, but an empty line would be passed over as well.
      by_cases hempty : row.text.toList = []
      · rw [← hlast, hempty]
        rfl
      · rw [List.isEmpty_eq_false_iff.2 hempty, if_neg Bool.false_ne_true, hlast]
    | cons next rows =>
      obtain ⟨first, hfirst, hlines⟩ := lines_append_newline (not_mem_text row) (render (next :: rows)).toList
      rw [toList_render_cons, hlines, logicalLines_row row hfirst, ih]
      rfl

private theorem entry_line (key value : String) : entry (Row.line key value) = (key, value) := by
  have htrim : trimStart (escape value.toList) = escape value.toList :=
    Text.trimStart_of_head? fun c hc => (head?_escape value.toList c hc).1
  rw [entry, Row.line, splitEntry_escape, htrim]
  simp [unescape_escape]

private theorem map_entry_logical (row : Row) : row.logical.map entry = row.entry?.toList := by
  cases row with
  | entry key value =>
    rw [Row.logical, List.map_singleton, entry_line]
    rfl
  | remark r => rfl

/-- Reading a written text gives the map in which the last value of each key wins. -/
theorem parse_render (rows : List Row) :
    parse (render rows) = Entries.ofPairs (rows.filterMap Row.entry?) ∧
      ∀ key, (parse (render rows)).get? key = (rows.filterMap Row.entry?).reverse.lookup key := by
  have hparse : parse (render rows) = Entries.ofPairs (rows.filterMap Row.entry?) := by
    rw [parse, logicalLines_render, List.map_flatMap, List.filterMap_eq_flatMap_toList]
    simp only [map_entry_logical]
  refine ⟨hparse, fun key => ?_⟩
  rw [hparse, Entries.get?_ofPairs]

/-- A comment that ends in a backslash. -/
def pathRemark : Remark := ⟨" # C:\\", by decide +kernel, fun _ hc => .inl (Option.some.inj hc).symm⟩

example : render [.entry "a b" "", .remark pathRemark, .entry "a b" "1=#\n"] =
    "a\\ b=\n # C:\\\na\\ b=1\\=\\#\\n" := by
  decide +kernel

example : (parse (render [.entry "a b" "", .remark pathRemark, .entry "a b" "1=#\n"])).get? "a b" =
    some "1=#\n" := by
  decide +kernel

end Properties

end LayeredConfig
