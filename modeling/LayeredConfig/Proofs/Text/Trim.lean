import LayeredConfig.Text.Blank
import Mathlib.Data.List.DropRight

/-!
# Trimmed text

Trimming takes the blanks away from both ends, and there is nothing more to take away from what it leaves
(`trim_trim`).  A text that is not empty has nothing to trim when it starts and ends with something other than a blank
(`isSolid_iff`).
-/

namespace LayeredConfig.Text

theorem trimStart_of_head? {cs : List Char} (h : ∀ c ∈ cs.head?, isBlank c = false) : trimStart cs = cs := by
  cases cs with
  | nil => rfl
  | cons c cs =>
    have hc : isBlank c = false := h c rfl
    exact List.dropWhile_cons_of_neg (by simp [hc])

theorem trimStart_append_of_blank {blanks cs : List Char} (hblanks : ∀ c ∈ blanks, isBlank c = true)
    (hcs : ∀ c ∈ cs.head?, isBlank c = false) : trimStart (blanks ++ cs) = cs := by
  rw [trimStart, List.dropWhile_append_of_pos hblanks, ← trimStart, trimStart_of_head? hcs]

/-- What trimming the start leaves does not start with a blank. -/
private theorem isBlank_of_head?_trimStart (cs : List Char) : ∀ c ∈ (trimStart cs).head?, isBlank c = false := by
  intro c hc
  have hnot := List.head?_dropWhile_not isBlank cs
  rw [trimStart] at hc
  rwa [hc] at hnot

private theorem trimEnd_prefix (cs : List Char) : trimEnd cs <+: cs := List.rdropWhile_prefix isBlank cs

private theorem trimEnd_trimEnd (cs : List Char) :
    trimEnd (trimEnd cs) = trimEnd cs := List.rdropWhile_idempotent isBlank cs

private theorem trimStart_trim (cs : List Char) : trimStart (trim cs) = trim cs := by
  apply trimStart_of_head?
  intro c hc
  -- A text that is left starts as it did before its end was trimmed.
  obtain ⟨rest, hrest⟩ := trimEnd_prefix (trimStart cs)
  refine isBlank_of_head?_trimStart cs c ?_
  rw [← hrest, List.head?_append]
  exact Option.or_eq_some_iff.2 (.inl hc)

theorem trim_trim (cs : List Char) : trim (trim cs) = trim cs := by
  rw [trim, trimStart_trim, trim, trimEnd_trimEnd]

/-! ### Texts with nothing to trim -/

/-- A text that starts and ends with a character that is no blank. -/
structure IsSolid (cs : List Char) : Prop where
  start : ∃ c ∈ cs.head?, isBlank c = false
  finish : ∃ c ∈ cs.getLast?, isBlank c = false

variable {cs ds : List Char}

private theorem IsSolid.ne_nil (h : IsSolid cs) : cs ≠ [] := by
  rintro rfl
  obtain ⟨c, hc, -⟩ := h.start
  nomatch hc

/-- Such a text is one that is not empty and has nothing to trim. -/
theorem isSolid_iff : IsSolid cs ↔ trim cs = cs ∧ cs ≠ [] := by
  constructor
  · intro h
    refine ⟨?_, h.ne_nil⟩
    obtain ⟨⟨first, hfirst, hfirstBlank⟩, ⟨last, hlast, hlastBlank⟩⟩ := h
    have hstart : trimStart cs = cs := by
      apply trimStart_of_head?
      intro c hc
      rwa [Option.mem_unique hc hfirst]
    have hend : trimStart cs.reverse = cs.reverse := by
      apply trimStart_of_head?
      intro c hc
      rw [List.head?_reverse] at hc
      rwa [Option.mem_unique hc hlast]
    rw [trim, hstart, trimEnd, ← trimStart, hend, List.reverse_reverse]
  · rintro ⟨htrim, hne⟩
    constructor
    · have hfirst : cs.head? = some (cs.head hne) := List.head?_eq_some_head hne
      have hstart : trimStart cs = cs := by
        rw [← htrim, trimStart_trim]
      refine ⟨cs.head hne, hfirst, isBlank_of_head?_trimStart cs _ ?_⟩
      rwa [hstart]
    · have hlast : cs.getLast? = some (cs.getLast hne) := List.getLast?_eq_some_getLast hne
      refine ⟨cs.getLast hne, hlast, isBlank_of_head?_trimStart (trimStart cs).reverse _ ?_⟩
      rwa [← List.getLast?_reverse, trimStart, ← trimEnd, ← trim, htrim]

/-- What stands between two such texts does not matter. -/
theorem IsSolid.append (h : IsSolid cs) (between : List Char) (h' : IsSolid ds) : IsSolid (cs ++ between ++ ds) := by
  obtain ⟨first, hfirst, hfirstBlank⟩ := h.start
  obtain ⟨last, hlast, hlastBlank⟩ := h'.finish
  constructor
  · refine ⟨first, ?_, hfirstBlank⟩
    rw [Option.mem_def] at hfirst ⊢
    simp [List.head?_append, hfirst]
  · refine ⟨last, ?_, hlastBlank⟩
    rw [Option.mem_def] at hlast ⊢
    simp [List.getLast?_append, hlast]

end LayeredConfig.Text
