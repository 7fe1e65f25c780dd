import LayeredConfig.Properties

/-!
# Escaped keys and values

Any text can be the key or the value of an entry.  A character that would end it, start a comment or be trimmed is
written with a backslash before it, and the ends of lines are written as letters.  The key facts: an escaped text
reads back (`unescape_escape`), an escaped key ends where it should (`splitEntry_escape`), and an escaped text never
joins its line to the next one (`continues_append_escape`).
-/

namespace LayeredConfig.Properties

open Text (isBlank trimStart)

/-- Whether a character stands for itself only with a backslash before it. -/
def isSpecial (c : Char) : Bool := c ∈ ['\\', '=', ':', '#', '!'] || isBlank c

/-- How a character is written, so that it stands for itself anywhere in an entry. -/
def written (c : Char) : List Char :=
  if c = '\n' then ['\\', 'n']
  else if c = '\r' then ['\\', 'r']
  else if isSpecial c then ['\\', c]
  else [c]

/-- How a text is written. -/
def escape (s : List Char) : List Char := s.flatMap written

/-- A character is written as it is, or with a backslash before what stands for it. -/
private theorem written_cases (c : Char) :
    (written c = [c] ∧ isSpecial c = false) ∨ ∃ d, written c = ['\\', d] ∧ d ≠ '\n' ∧ d ≠ '\r' := by
  unfold written
  split
  · exact .inr ⟨'n', rfl, by decide, by decide⟩
  · rename_i hn
    split
    · exact .inr ⟨'r', rfl, by decide, by decide⟩
    · rename_i hr
      split
      · exact .inr ⟨c, rfl, hn, hr⟩
      · rename_i hspecial
        exact .inl ⟨rfl, by simpa using hspecial⟩

/-- What an ordinary character is not. -/
private theorem ordinary_of_not_isSpecial {c : Char} (h : isSpecial c = false) :
    c ≠ '\\' ∧ c ≠ '=' ∧ c ≠ ':' ∧ c ≠ '#' ∧ c ≠ '!' ∧ isBlank c = false := by
  simpa [isSpecial, and_assoc] using h

/-! ### Reading an escaped text -/

theorem unescape_plain {c : Char} (h : c ≠ '\\') (cs : List Char) : unescape (c :: cs) = c :: unescape cs := by
  rw [unescape]
  · intro hc
    exact absurd hc h
  · intro d ds hc
    exact absurd hc h

private theorem unescape_written (c : Char) (cs : List Char) : unescape (written c ++ cs) = c :: unescape cs := by
  unfold written
  split
  · subst c
    simp [unescape]
  · split
    · subst c
      simp [unescape]
    · split
      · rename_i hspecial
        -- The letters that mean something after a backslash are not special.
        have hletter (d : Char) (hd : isSpecial d = false) : c ≠ d := by
          rintro rfl
          rw [hspecial] at hd
          exact Bool.false_ne_true hd.symm
        have ht := hletter 't' (by decide)
        have hn := hletter 'n' (by decide)
        have hr := hletter 'r' (by decide)
        have hf := hletter 'f' (by decide)
        have hu := hletter 'u' (by decide)
        simp [unescape, hu]
      · rename_i hspecial
        obtain ⟨hbackslash, -⟩ := ordinary_of_not_isSpecial (by simpa using hspecial)
        exact unescape_plain hbackslash cs

theorem unescape_escape (s : List Char) : unescape (escape s) = s := by
  induction s with
  | nil => rw [escape, List.flatMap_nil, unescape]
  | cons c s ih => rw [escape, List.flatMap_cons, unescape_written, ← escape, ih]

/-! ### Where an escaped key ends -/

private theorem splitEntry_written_append (c : Char) (cs : List Char) :
    splitEntry (written c ++ cs) = (written c ++ (splitEntry cs).1, (splitEntry cs).2) := by
  rcases written_cases c with ⟨hw, hspecial⟩ | ⟨d, hw, -⟩
  · obtain ⟨hbackslash, hequals, hcolon, -, -, hblank⟩ := ordinary_of_not_isSpecial hspecial
    rw [hw]
    simp [splitEntry, hbackslash, hequals, hcolon, hblank]
  · rw [hw]
    simp [splitEntry]

/-- An escaped key ends at the separator that follows it. -/
theorem splitEntry_escape (key rest : List Char) :
    splitEntry (escape key ++ '=' :: rest) = (escape key, trimStart rest) := by
  induction key with
  | nil => simp [escape, splitEntry]
  | cons c key ih =>
    rw [escape, List.flatMap_cons, List.append_assoc, splitEntry_written_append, ← escape, ih]

/-- An escaped text starts with no blank, and with no sign of a comment. -/
theorem head?_escape (s : List Char) :
    ∀ c ∈ (escape s).head?, isBlank c = false ∧ c ≠ '#' ∧ c ≠ '!' := by
  intro c hc
  cases s with
  | nil => nomatch hc
  | cons d s =>
    rw [escape, List.flatMap_cons, List.head?_append] at hc
    rcases written_cases d with ⟨hw, hspecial⟩ | ⟨e, hw, -⟩
    · rw [hw] at hc
      obtain rfl : d = c := by simpa using hc
      obtain ⟨-, -, -, hsharp, hbang, hblank⟩ := ordinary_of_not_isSpecial hspecial
      exact ⟨hblank, hsharp, hbang⟩
    · rw [hw] at hc
      obtain rfl : '\\' = c := by simpa using hc
      decide

/-- A line that starts with an escaped key starts with no blank, and with no sign of a comment. -/
theorem head?_escape_equals (key rest : List Char) :
    ∀ c ∈ (escape key ++ '=' :: rest).head?, isBlank c = false ∧ c ≠ '#' ∧ c ≠ '!' := by
  intro c hc
  rw [List.head?_append] at hc
  cases hkey : (escape key).head? with
  | none =>
    rw [hkey] at hc
    obtain rfl : '=' = c := by simpa using hc
    decide
  | some d =>
    rw [hkey] at hc
    obtain rfl : d = c := by simpa using hc
    exact head?_escape key d hkey

/-! ### Where an escaped text ends -/

theorem continues_concat {c : Char} (h : c ≠ '\\') (line : List Char) : continues (line ++ [c]) = false := by
  simp [continues, h]

private theorem continues_concat_backslashes (line : List Char) :
    continues (line ++ ['\\', '\\']) = continues line := by
  have hlength : (line ++ ['\\', '\\']).reverse = '\\' :: '\\' :: line.reverse := by simp
  rw [continues, hlength, List.takeWhile_cons_of_pos (by simp), List.takeWhile_cons_of_pos (by simp),
    List.length_cons, List.length_cons, Nat.add_assoc, Nat.add_mod_right, continues]

/-- A line that ends with itself goes on doing so. -/
theorem continues_append_escape {line : List Char} (h : continues line = false) (s : List Char) :
    continues (line ++ escape s) = false := by
  induction s generalizing line with
  | nil => rwa [escape, List.flatMap_nil, List.append_nil]
  | cons c s ih =>
    rw [escape, List.flatMap_cons, ← List.append_assoc]
    apply ih
    rcases written_cases c with ⟨hw, hspecial⟩ | ⟨d, hw, -⟩
    · rw [hw]
      exact continues_concat (ordinary_of_not_isSpecial hspecial).1 line
    · rw [hw]
      by_cases hd : d = '\\'
      · rw [hd, continues_concat_backslashes, h]
      · have hsplit : line ++ ['\\', d] = (line ++ ['\\']) ++ [d] := by simp
        rw [hsplit, continues_concat hd]

/-- An escaped text stays on one line. -/
theorem not_mem_escape {c : Char} (h : c = '\n' ∨ c = '\r') (s : List Char) : c ∉ escape s := by
  intro hmem
  obtain ⟨d, -, hd⟩ := List.mem_flatMap.1 hmem
  rcases written_cases d with ⟨hw, hspecial⟩ | ⟨e, hw, hn, hr⟩
  · rw [hw, List.mem_singleton] at hd
    subst hd
    rcases h with rfl | rfl
    · nomatch hspecial
    · nomatch hspecial
  · rw [hw] at hd
    rcases h with rfl | rfl
    · simp [Ne.symm hn] at hd
    · simp [Ne.symm hr] at hd

end LayeredConfig.Properties
