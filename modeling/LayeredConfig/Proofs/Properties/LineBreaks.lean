import LayeredConfig.Proofs.Entries
import LayeredConfig.Proofs.Properties.Rows

/-!
# Line breaks

A text can be cut behind a line that does not go on in the next one: its entries are those of the part before the
cut, overwritten by those of the part after it.  A line can be broken inside an entry: a backslash before the break
and blanks after it change nothing.

What decides whether a line goes on is the parity of the backslashes at its end, and joining lines keeps it: the part
of a joined line that comes from the lines before ends in an even run (`continues_append`).  So the lines read so far
matter to the next one only through the line that waits for it (`exists_logicalLines_append`).
-/

namespace LayeredConfig.Properties

open Text (isBlank trimStart)

/-! ### Backslashes at the end of a line -/

private theorem continues_concat_backslash (line : List Char) : continues (line ++ ['\\']) = !continues line := by
  have hlength : (line ++ ['\\']).reverse = '\\' :: line.reverse := by simp
  rw [continues, hlength, List.takeWhile_cons_of_pos (by simp), List.length_cons, continues]
  generalize (line.reverse.takeWhile (· == '\\')).length = n
  rcases Nat.mod_two_eq_zero_or_one n with h | h
  · have hsucc : (n + 1) % 2 = 1 := by omega
    rw [hsucc, h]
    rfl
  · have hsucc : (n + 1) % 2 = 0 := by omega
    rw [hsucc, h]
    rfl

/-- Behind an even run of backslashes, a text ends as it does alone. -/
theorem continues_append {a : List Char} (h : continues a = false) (b : List Char) :
    continues (a ++ b) = continues b := by
  induction b using List.reverseRecOn with
  | nil => rw [List.append_nil, h]; rfl
  | append_singleton b c ih =>
    rw [← List.append_assoc]
    by_cases hc : c = '\\'
    · rw [hc, continues_concat_backslash, continues_concat_backslash, ih]
    · rw [continues_concat hc, continues_concat hc]

private theorem continues_of_getLast? {line : List Char} (h : '\\' ∉ line.getLast?) : continues line = false := by
  cases hlast : line.getLast? with
  | none =>
    rw [List.getLast?_eq_none_iff.1 hlast]
    rfl
  | some c =>
    rw [← List.dropLast_append_getLast? c hlast]
    apply continues_concat
    rintro rfl
    exact h hlast

private theorem continues_trimStart (line : List Char) : continues (trimStart line) = continues line := by
  have hblanks : continues (line.takeWhile isBlank) = false := by
    apply continues_of_getLast?
    intro hlast
    have hblank : isBlank '\\' = true := List.mem_takeWhile_imp (List.mem_of_getLast? hlast)
    cases hblank
  conv_rhs => rw [← List.takeWhile_append_dropWhile (p := isBlank) (l := line)]
  exact (continues_append hblanks _).symm

private theorem continues_replicate (n : Nat) : continues (List.replicate n '\\') = decide (n % 2 = 1) := by
  induction n with
  | zero => rfl
  | succ n ih =>
    rw [List.replicate_succ', continues_concat_backslash, ih, Bool.eq_iff_iff]
    simp only [Bool.not_eq_true', decide_eq_true_eq, decide_eq_false_iff_not]
    omega

/-- Every line ends in a longest run of backslashes, which may be empty. -/
private theorem exists_run (line : List Char) :
    ∃ front n, line = front ++ List.replicate n '\\' ∧ '\\' ∉ front.getLast? := by
  induction line using List.reverseRecOn with
  | nil => exact ⟨[], 0, rfl, nofun⟩
  | append_singleton line c ih =>
    obtain ⟨front, n, rfl, hfront⟩ := ih
    by_cases hc : c = '\\'
    · subst hc
      exact ⟨front, n + 1, by rw [List.append_assoc, List.replicate_succ'], hfront⟩
    · exact ⟨front ++ List.replicate n '\\' ++ [c], 0, (List.append_nil _).symm, by simp [hc]⟩

/-- A line goes on when the longest run of backslashes at its end is odd. -/
theorem continues_iff {line : List Char} :
    continues line = true ↔
      ∃ front n, line = front ++ List.replicate n '\\' ∧ '\\' ∉ front.getLast? ∧ n % 2 = 1 := by
  have hrun {front : List Char} (hfront : '\\' ∉ front.getLast?) (n : Nat) :
      continues (front ++ List.replicate n '\\') = true ↔ n % 2 = 1 := by
    rw [continues_append (continues_of_getLast? hfront), continues_replicate, decide_eq_true_eq]
  constructor
  · intro h
    obtain ⟨front, n, rfl, hfront⟩ := exists_run line
    exact ⟨front, n, rfl, hfront, (hrun hfront n).1 h⟩
  · rintro ⟨front, n, rfl, hfront, hodd⟩
    exact (hrun hfront n).2 hodd

/-- A line that goes on is a backslash longer than one that does not. -/
private theorem eq_dropLast_concat {line : List Char} (h : continues line = true) :
    line = line.dropLast ++ ['\\'] ∧ continues line.dropLast = false := by
  cases hlast : line.getLast? with
  | none => rw [List.getLast?_eq_none_iff.1 hlast] at h; cases h
  | some c =>
    have hline := List.dropLast_append_getLast? c hlast
    by_cases hc : c = '\\'
    · subst hc
      refine ⟨hline.symm, ?_⟩
      rw [← hline, continues_concat_backslash] at h
      simpa using h
    · rw [← hline, continues_concat hc] at h
      cases h

/-! ### Lines of a text -/

private theorem lines_eq_nil {cs : List Char} (h : lines cs = []) : cs = [] := by
  unfold lines at h
  split at h
  · rfl
  · cases h
  · cases h
  · split at h
    · cases h
    · cases h

private theorem getLast?_of_cons {d : Char} {cs : List Char} (h : ∀ c ∈ (d :: cs).getLast?, c = '\n') :
    ∀ c ∈ cs.getLast?, c = '\n' := by
  intro c hc
  apply h
  rw [List.getLast?_cons, Option.mem_def.1 hc]
  rfl

/-- A line starts behind a line feed, whatever stands before it. -/
theorem lines_append {before : List Char} (h : ∀ c ∈ before.getLast?, c = '\n') (rest : List Char) :
    lines (before ++ rest) = lines before ++ lines rest := by
  fun_induction lines before with
  | case1 => rfl
  | case2 cs ih =>
    rw [List.cons_append, lines, ih (getLast?_of_cons h), List.cons_append]
  | case3 cs ih =>
    rw [List.cons_append, List.cons_append, lines, ih (getLast?_of_cons (getLast?_of_cons h)), List.cons_append]
  | case4 c cs hfeed hreturn hcs ih =>
    obtain rfl := lines_eq_nil hcs
    exact absurd (h c rfl) hfeed
  | case5 c cs hfeed hreturn l ls hcs ih =>
    rw [List.cons_append, lines, ih (getLast?_of_cons h), hcs]
    · rfl
    · exact hfeed
    · intro cs' hc hcs'
      cases cs with
      | nil => cases hcs
      | cons d cs =>
        obtain ⟨rfl, -⟩ := List.cons.inj hcs'
        exact hreturn cs hc rfl

/-- A text is made of whole lines and a last one without a line feed. -/
private theorem exists_lastLine (text : List Char) :
    ∃ before last, text = before ++ last ∧ (∀ c ∈ before.getLast?, c = '\n') ∧ '\n' ∉ last := by
  induction text using List.reverseRecOn with
  | nil => exact ⟨[], [], rfl, nofun, List.not_mem_nil⟩
  | append_singleton text c ih =>
    obtain ⟨before, last, rfl, hbefore, hlast⟩ := ih
    by_cases hc : c = '\n'
    · subst hc
      exact ⟨before ++ last ++ ['\n'], [], (List.append_nil _).symm, by simp, List.not_mem_nil⟩
    · exact ⟨before, last ++ [c], List.append_assoc _ _ _, hbefore, by simp [hlast, Ne.symm hc]⟩

/-- Whether a line that stands in front of a text ends there. -/
def EndsLine (after : List Char) : Prop := after = [] ∨ ['\n'] <+: after ∨ ['\r', '\n'] <+: after

/-- A line in front of the end of a line is one line.  A carriage return in front of a line feed is part of the end. -/
private theorem lines_append_of_lines {after : List Char} {others : List (List Char)} (h : lines after = [] :: others)
    {line : List Char} (hline : '\n' ∉ line) (hend : ¬ ('\r' ∈ line.getLast? ∧ '\n' ∈ after.head?)) :
    lines (line ++ after) = line :: others := by
  induction line with
  | nil => exact h
  | cons c line ih =>
    rw [List.mem_cons, not_or] at hline
    have hend' : ¬ ('\r' ∈ line.getLast? ∧ '\n' ∈ after.head?) := by
      rintro ⟨hreturn, hfeed⟩
      refine hend ⟨?_, hfeed⟩
      rw [List.getLast?_cons, Option.mem_def.1 hreturn]
      rfl
    rw [List.cons_append, lines, ih hline.2 hend']
    · exact fun hc => hline.1 hc.symm
    · intro cs hc hcs
      cases line with
      | nil => exact hend ⟨by rw [hc]; rfl, by rw [← List.nil_append after, hcs]; rfl⟩
      | cons d line =>
        obtain ⟨rfl, -⟩ := List.cons.inj hcs
        exact hline.2 List.mem_cons_self

/-- What follows the end of a line does not depend on the line. -/
theorem exists_lines_append {after : List Char} (h : EndsLine after) :
    ∃ others, (after = [] → others = []) ∧
      ∀ line, '\n' ∉ line → ¬ ('\r' ∈ line.getLast? ∧ '\n' ∈ after.head?) →
        lines (line ++ after) = if line.isEmpty && after.isEmpty then [] else line :: others := by
  have hlines : after = [] ∨ ∃ others, lines after = [] :: others := by
    rcases h with rfl | ⟨rest, rfl⟩ | ⟨rest, rfl⟩
    · exact .inl rfl
    · exact .inr ⟨_, lines.eq_2 rest⟩
    · exact .inr ⟨_, lines.eq_3 rest⟩
  rcases hlines with rfl | ⟨others, hothers⟩
  · refine ⟨[], fun _ => rfl, fun line hline _ => ?_⟩
    rw [List.append_nil, lines_of_not_mem hline, List.isEmpty_nil, Bool.and_true]
  · have hne : after ≠ [] := by
      rintro rfl
      cases hothers
    refine ⟨others, fun h => absurd h hne, fun line hline hend => ?_⟩
    rw [lines_append_of_lines hothers hline hend, List.isEmpty_eq_false_iff.2 hne, Bool.and_false,
      if_neg Bool.false_ne_true]

/-! ### Logical lines -/

/-- The logical lines from one on that holds `current` so far. -/
def linesFrom (current : List Char) (rest : List (List Char)) : List (List Char) :=
  if continues current then logicalLines (some current) rest else current :: logicalLines none rest

private theorem linesFrom_of_continues {current : List Char} (h : continues current = true) (line : List Char)
    (rest : List (List Char)) :
    linesFrom current (line :: rest) = linesFrom (current.dropLast ++ trimStart line) rest := by
  rw [linesFrom, if_pos h, logicalLines, linesFrom]

private theorem linesFrom_of_not_continues {current : List Char} (h : continues current = false)
    (rest : List (List Char)) : linesFrom current rest = current :: logicalLines none rest := by
  rw [linesFrom, h, if_neg Bool.false_ne_true]

/-- A line that waits for the next one, if there is one. -/
def IsWaiting (pending : Option (List Char)) : Prop := ∀ p ∈ pending, continues p = true

theorem isWaiting_none : IsWaiting none := nofun

variable {pending : Option (List Char)}

/-- A line that is not passed over is joined to what waits for it, which ends in an even run of backslashes. -/
private theorem exists_logicalLines_cons (h : IsWaiting pending) :
    ∃ start, continues start = false ∧ ∀ line rest, isIgnored line = false →
      logicalLines pending (line :: rest) = linesFrom (start ++ trimStart line) rest := by
  cases pending with
  | none =>
    refine ⟨[], rfl, fun line rest hkept => ?_⟩
    rw [logicalLines, hkept, if_neg Bool.false_ne_true, List.nil_append]
    rfl
  | some p =>
    refine ⟨p.dropLast, (eq_dropLast_concat (h p rfl)).2, fun line rest _ => ?_⟩
    rw [logicalLines]
    rfl

/-- Lines that are read first give logical lines of their own, and leave at most a line that waits for the next. -/
theorem exists_logicalLines_append (h : IsWaiting pending) (first : List (List Char)) :
    ∃ out waiting, IsWaiting waiting ∧
      ∀ rest, logicalLines pending (first ++ rest) = out ++ logicalLines waiting rest := by
  induction first generalizing pending with
  | nil => exact ⟨[], pending, h, fun _ => rfl⟩
  | cons line first ih =>
    have hfrom (current : List Char) : ∃ out waiting, IsWaiting waiting ∧
        ∀ rest, linesFrom current (first ++ rest) = out ++ logicalLines waiting rest := by
      unfold linesFrom
      split
      · rename_i hcontinues
        exact ih fun p hp => Option.some.inj hp ▸ hcontinues
      · obtain ⟨out, waiting, hwaiting, hrest⟩ := ih isWaiting_none
        exact ⟨current :: out, waiting, hwaiting, fun rest => by rw [hrest, List.cons_append]⟩
    cases pending with
    | none =>
      cases hignored : isIgnored line with
      | true =>
        obtain ⟨out, waiting, hwaiting, hrest⟩ := ih h
        exact ⟨out, waiting, hwaiting, fun rest => (logicalLines_of_isIgnored hignored _).trans (hrest rest)⟩
      | false =>
        obtain ⟨start, -, hstart⟩ := exists_logicalLines_cons h
        obtain ⟨out, waiting, hwaiting, hrest⟩ := hfrom (start ++ trimStart line)
        exact ⟨out, waiting, hwaiting, fun rest => (hstart line _ hignored).trans (hrest rest)⟩
    | some p =>
      obtain ⟨out, waiting, hwaiting, hrest⟩ := hfrom (p.dropLast ++ trimStart line)
      exact ⟨out, waiting, hwaiting, fun rest => hrest rest⟩

/-- A line that does not go on ends the logical line that it is part of, also if it is empty. -/
theorem logicalLines_of_not_continues (h : IsWaiting pending) {last : List Char} (hlast : continues last = false)
    (rest : List (List Char)) :
    logicalLines pending (last :: rest) =
      logicalLines pending (if last.isEmpty then [] else [last]) ++ logicalLines none rest := by
  have hfrom {start : List Char} (hstart : continues start = false) (rest : List (List Char)) :
      linesFrom (start ++ trimStart last) rest = (start ++ trimStart last) :: logicalLines none rest := by
    apply linesFrom_of_not_continues
    rw [continues_append hstart, continues_trimStart, hlast]
  cases pending with
  | none =>
    cases hignored : isIgnored last with
    | true =>
      rw [logicalLines_of_isIgnored hignored]
      split
      · rfl
      · rw [logicalLines_of_isIgnored hignored]
        rfl
    | false =>
      obtain ⟨start, hstart, hcons⟩ := exists_logicalLines_cons h
      have hne : last.isEmpty = false := by
        cases last with
        | nil => cases hignored
        | cons c cs => rfl
      rw [hne, if_neg Bool.false_ne_true, hcons last _ hignored, hcons last _ hignored, hfrom hstart, hfrom hstart]
      rfl
  | some p =>
    have hstart := (eq_dropLast_concat (h p rfl)).2
    have hcons (rest : List (List Char)) :
        logicalLines (some p) (last :: rest) = (p.dropLast ++ trimStart last) :: logicalLines none rest :=
      hfrom hstart rest
    rw [hcons]
    split
    · rename_i hempty
      rw [List.isEmpty_iff.1 hempty, logicalLines, trimStart, List.dropWhile_nil, List.append_nil]
      rfl
    · rw [hcons]
      rfl

/-- An empty line at the end changes nothing, since what waits for it is complete without it. -/
private theorem logicalLines_concat_nil (h : IsWaiting pending) (first : List (List Char)) :
    logicalLines pending (first ++ [[]]) = logicalLines pending first := by
  obtain ⟨out, waiting, hwaiting, hout⟩ := exists_logicalLines_append h first
  have hnil := hout []
  rw [List.append_nil] at hnil
  rw [hout, hnil, logicalLines_of_not_continues hwaiting (rfl : continues [] = false)]
  exact congrArg (out ++ ·) (List.append_nil _)

/-! ### Cuts and breaks -/

/-- Behind a line that does not go on, the logical lines of a text start anew. -/
private theorem logicalLines_append_newline {a : List Char} (hreturn : '\r' ∉ a.getLast?) (hend : continues a = false)
    (b : List Char) :
    logicalLines none (lines (a ++ '\n' :: b)) = logicalLines none (lines a) ++ logicalLines none (lines b) := by
  obtain ⟨before, last, rfl, hbefore, hlast⟩ := exists_lastLine a
  obtain ⟨out, waiting, hwaiting, hout⟩ := exists_logicalLines_append isWaiting_none (lines before)
  have hlastEnd : continues last = false := by
    have hbeforeEnd : continues before = false := by
      apply continues_of_getLast?
      intro hbackslash
      cases hbefore _ hbackslash
    rwa [continues_append hbeforeEnd] at hend
  have hlines : lines (last ++ '\n' :: b) = last :: lines b := by
    refine lines_append_of_lines (lines.eq_2 b) hlast ?_
    rintro ⟨hreturn', -⟩
    refine hreturn ?_
    rw [List.getLast?_append, Option.mem_def.1 hreturn']
    rfl
  calc logicalLines none (lines (before ++ last ++ '\n' :: b))
    _ = out ++ logicalLines waiting (last :: lines b) := by
      rw [List.append_assoc, lines_append hbefore, hlines, hout]
    _ = out ++ logicalLines waiting (lines last) ++ logicalLines none (lines b) := by
      rw [logicalLines_of_not_continues hwaiting hlastEnd, lines_of_not_mem hlast, List.append_assoc]
    _ = logicalLines none (lines (before ++ last)) ++ logicalLines none (lines b) := by
      rw [lines_append hbefore, hout]

/-- A line of a text and a place in it where it may be broken. -/
structure Fold where
  /-- The lines before it. -/
  before : List Char
  /-- The line up to the break. -/
  head : List Char
  /-- What stands in front of the rest of the line once it is broken. -/
  indent : List Char
  /-- The rest of the line. -/
  tail : List Char
  /-- The end of the line and the lines after it. -/
  after : List Char
  starts : ∀ c ∈ before.getLast?, c = '\n'
  ends : EndsLine after
  oneLine : '\n' ∉ head ++ tail
  /-- A carriage return in front of a line feed is part of the end of the line. -/
  wholeLine : ¬ ('\r' ∈ (head ++ tail).getLast? ∧ '\n' ∈ after.head?)
  isEntry : ∃ c ∈ (trimStart head).head?, c ≠ '#' ∧ c ≠ '!'
  evenRun : continues head = false
  solidTail : ∀ c ∈ tail.head?, isBlank c = false
  blankIndent : ∀ c ∈ indent, c = ' ' ∨ c = '\t'

namespace Fold

/-- The text with the line in one piece. -/
def whole (f : Fold) : String := String.ofList (f.before ++ f.head ++ f.tail ++ f.after)

/-- The text with the line broken in two. -/
def broken (f : Fold) : String :=
  String.ofList (f.before ++ f.head ++ '\\' :: '\n' :: (f.indent ++ f.tail ++ f.after))

variable (f : Fold)

private theorem trimStart_head_append (more : List Char) : trimStart (f.head ++ more) = trimStart f.head ++ more := by
  obtain ⟨c, hc, -⟩ := f.isEntry
  have hne : (trimStart f.head).isEmpty = false := by
    cases hhead : trimStart f.head with
    | nil => rw [hhead] at hc; cases hc
    | cons d cs => rfl
  rw [trimStart, List.dropWhile_append, ← trimStart, hne, if_neg Bool.false_ne_true]

private theorem isIgnored_head_append (more : List Char) : isIgnored (f.head ++ more) = false := by
  obtain ⟨c, hc, hsharp, hbang⟩ := f.isEntry
  obtain ⟨cs, hcs⟩ := List.head?_eq_some_iff.1 hc
  rw [isIgnored, trimStart_head_append, hcs]
  simp [hsharp, hbang]

private theorem trimStart_indent_append : trimStart (f.indent ++ f.tail) = f.tail := by
  have hblank : ∀ c ∈ f.indent, isBlank c = true := by
    intro c hc
    rcases f.blankIndent c hc with rfl | rfl
    · rfl
    · rfl
  exact Text.trimStart_append_of_blank hblank f.solidTail

/-- The two parts of a broken line make one logical line, that of the whole line. -/
private theorem logicalLines_broken {pending : Option (List Char)} (h : IsWaiting pending) (others : List (List Char)) :
    logicalLines pending ((f.head ++ ['\\']) :: (f.indent ++ f.tail) :: others) =
      logicalLines pending ((f.head ++ f.tail) :: others) := by
  obtain ⟨start, hstart, hcons⟩ := exists_logicalLines_cons h
  have hgoesOn : continues (start ++ (trimStart f.head ++ ['\\'])) = true := by
    rw [continues_append hstart, continues_concat_backslash, continues_trimStart, f.evenRun]
    rfl
  rw [hcons _ _ (f.isIgnored_head_append _), hcons _ _ (f.isIgnored_head_append _), trimStart_head_append,
    trimStart_head_append, linesFrom_of_continues hgoesOn, trimStart_indent_append, ← List.append_assoc,
    List.dropLast_concat, List.append_assoc]

private theorem not_mem_indent : '\n' ∉ f.indent ++ f.tail := by
  intro hmem
  rcases List.mem_append.1 hmem with hmem | hmem
  · rcases f.blankIndent _ hmem with h | h
    · cases h
    · cases h
  · exact f.oneLine (List.mem_append_right _ hmem)

/-- The second part of a broken line ends as the whole line does. -/
private theorem wholeLine_indent : ¬ ('\r' ∈ (f.indent ++ f.tail).getLast? ∧ '\n' ∈ f.after.head?) := by
  rintro ⟨hreturn, hfeed⟩
  rw [List.getLast?_append] at hreturn
  cases htail : f.tail.getLast? with
  | none =>
    rw [htail] at hreturn
    rcases f.blankIndent _ (List.mem_of_getLast? hreturn) with h | h
    · cases h
    · cases h
  | some c =>
    refine f.wholeLine ⟨?_, hfeed⟩
    rw [htail] at hreturn
    rw [List.getLast?_append, htail]
    exact hreturn

private theorem logicalLines_broken_text :
    logicalLines none (lines f.broken.toList) = logicalLines none (lines f.whole.toList) := by
  obtain ⟨others, hothers, hlines⟩ := exists_lines_append f.ends
  obtain ⟨out, waiting, hwaiting, hout⟩ := exists_logicalLines_append isWaiting_none (lines f.before)
  have hhead : (f.head ++ f.tail).isEmpty = false := by
    cases hempty : (f.head ++ f.tail).isEmpty with
    | false => rfl
    | true =>
      have hignored := f.isIgnored_head_append f.tail
      rw [List.isEmpty_iff.1 hempty] at hignored
      cases hignored
  have hfirst : lines (f.head ++ '\\' :: '\n' :: (f.indent ++ f.tail ++ f.after)) =
      (f.head ++ ['\\']) :: lines (f.indent ++ f.tail ++ f.after) := by
    have hfeed : '\n' ∉ f.head ++ ['\\'] := by
      intro hmem
      rcases List.mem_append.1 hmem with hmem | hmem
      · exact f.oneLine (List.mem_append_left _ hmem)
      · cases List.mem_singleton.1 hmem
    have hsplit := lines_append_of_lines (lines.eq_2 (f.indent ++ f.tail ++ f.after)) hfeed (by simp)
    rwa [List.append_assoc, List.singleton_append] at hsplit
  -- Only at the end of the text can nothing be left for the second line, and then an empty one changes nothing.
  have hsecond (first : List Char) :
      logicalLines waiting (first :: lines (f.indent ++ f.tail ++ f.after)) =
        logicalLines waiting (first :: (f.indent ++ f.tail) :: others) := by
    rw [hlines _ f.not_mem_indent f.wholeLine_indent]
    split
    · rename_i hnone
      obtain ⟨htail, hafter⟩ := Bool.and_eq_true_iff.1 hnone
      rw [List.isEmpty_iff.1 htail, hothers (List.isEmpty_iff.1 hafter)]
      exact (logicalLines_concat_nil hwaiting [first]).symm
    · rfl
  calc logicalLines none (lines f.broken.toList)
    _ = out ++ logicalLines waiting ((f.head ++ ['\\']) :: (f.indent ++ f.tail) :: others) := by
      rw [broken, String.toList_ofList, List.append_assoc, lines_append f.starts, hout, hfirst, hsecond]
    _ = out ++ logicalLines waiting ((f.head ++ f.tail) :: others) := by rw [f.logicalLines_broken hwaiting]
    _ = logicalLines none (lines f.whole.toList) := by
      rw [whole, String.toList_ofList, List.append_assoc, List.append_assoc, lines_append f.starts, hout,
        ← List.append_assoc, hlines _ f.oneLine f.wholeLine, hhead, Bool.false_and, if_neg Bool.false_ne_true]

end Fold

/-- A text may be cut behind a line that does not go on in the next one, and a line may be broken inside an entry. -/
theorem parse_lineBreaks :
    (∀ a b : String, '\r' ∉ a.toList.getLast? → continues a.toList = false →
        parse (a ++ "\n" ++ b) = (parse a).putAll (parse b).pairs) ∧
      ∀ f : Fold, parse f.broken = parse f.whole := by
  constructor
  · intro a b hreturn hend
    have htext : (a ++ "\n" ++ b).toList = a.toList ++ '\n' :: b.toList := by
      rw [String.toList_append, String.toList_append, List.append_assoc]
      rfl
    rw [parse, htext, logicalLines_append_newline hreturn hend, List.map_append, Entries.ofPairs_append]
    rfl
  · intro f
    rw [parse, f.logicalLines_broken_text, parse]

/-- A line broken behind two backslashes, between a comment that seems to go on and the end of a line with a carriage
return. -/
def pathFold : Fold where
  before := "# C:\\\n".toList
  head := "\tpath = C:\\\\".toList
  indent := [' ', '\t']
  tail := "temp\\".toList
  after := "\r\n  \\\\new".toList
  starts := fun _ hc => (Option.some.inj hc).symm
  ends := .inr (.inr ⟨_, rfl⟩)
  oneLine := by decide
  wholeLine := by decide
  isEntry := ⟨'p', rfl, by decide⟩
  evenRun := rfl
  solidTail := fun _ hc => Option.some.inj hc ▸ rfl
  blankIndent := by simp

/-- An entry over two lines, cut off before a comment and an entry that replaces it. -/
theorem parse_lineBreaks_path :
    '\r' ∉ "path = \\\nx\\\\".toList.getLast? ∧ continues "path = \\\nx\\\\".toList = false ∧
      parse ("path = \\\nx\\\\" ++ "\n" ++ "! y\npath : z") =
        (parse "path = \\\nx\\\\").putAll (parse "! y\npath : z").pairs ∧
      parse pathFold.broken = parse pathFold.whole ∧
      (parse pathFold.whole).get? "path" = some "C:\\temp\\new" :=
  ⟨by decide, by decide, parse_lineBreaks.1 _ _ (by decide) (by decide), parse_lineBreaks.2 pathFold, by decide +kernel⟩

end LayeredConfig.Properties
