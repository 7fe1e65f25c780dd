import LayeredConfig.Proofs.Template.Scan

/-!
# Expanded values

What `expandValue` gives, case by case, and what it leaves behind: a value that was expanded without reaching a
limit holds no reference that could still be replaced (`found_expandValue`).
-/

namespace LayeredConfig.Template

section

variable {lookup : String → Option String} {levels budget : Nat} {done text : List Char}

theorem expandValue_of_none (h : (scan lookup text).found = none) :
    (expandValue lookup (levels + 1) budget done text).text = done ++ text ∧
      (expandValue lookup (levels + 1) budget done text).truncated = false ∧
      (expandValue lookup (levels + 1) budget done text).left = budget := by
  rw [expandValue]
  simp [h]

variable {r : Reference} {p : Replacement}

/-- A reference that the budget does not allow to replace ends the expansion. -/
private theorem expandValue_of_spent (h : (scan lookup text).found = some (r, p))
    (hl : (p.expanded lookup levels budget).left = 0) :
    (expandValue lookup (levels + 1) budget done text).truncated = true := by
  rw [expandValue]
  cases p <;> simp only [Replacement.expanded] at hl <;> simp only [h] <;> rw [dif_pos hl]

/-- A replacement that reaches a limit, or changes nothing, is the last one. -/
private theorem expandValue_of_last (h : (scan lookup text).found = some (r, p))
    (hl : (p.expanded lookup levels budget).left ≠ 0)
    (hlast : (p.expanded lookup levels budget).truncated ||
      r.replaceWith (p.expanded lookup levels budget).text == r.replaceWith r.source) :
    (expandValue lookup (levels + 1) budget done text).truncated =
      (p.expanded lookup levels budget).truncated := by
  rw [expandValue]
  cases p <;> simp only [Replacement.expanded] at hl hlast ⊢ <;> simp only [h] <;> rw [dif_neg hl, if_pos hlast]

/-- After any other replacement the expansion goes on where the reference stood. -/
theorem expandValue_of_more (h : (scan lookup text).found = some (r, p))
    (hl : (p.expanded lookup levels budget).left ≠ 0)
    (hmore : ¬ ((p.expanded lookup levels budget).truncated ||
      r.replaceWith (p.expanded lookup levels budget).text == r.replaceWith r.source)) :
    let e := expandValue lookup (levels + 1) ((p.expanded lookup levels budget).left - 1)
      (done ++ (scan lookup text).skipped) (r.replaceWith (p.expanded lookup levels budget).text)
    (expandValue lookup (levels + 1) budget done text).text = e.text ∧
      (expandValue lookup (levels + 1) budget done text).truncated = e.truncated ∧
      (expandValue lookup (levels + 1) budget done text).left = e.left := by
  rw [expandValue.eq_def lookup (levels + 1) budget]
  cases p <;> simp only [Replacement.expanded] at hl hmore ⊢ <;> simp only [h] <;> rw [dif_neg hl, if_neg hmore] <;>
    exact ⟨rfl, rfl, rfl⟩

end

/-- The text of a reference is no fixed point: whatever replaces it holds no reference that can be replaced. -/
private theorem text_ne_source {lookup : String → Option String} {text : List Char} {r : Reference} {p : Replacement}
    (h : Reference.first? text = some r) (hp : Replaces lookup r p) {levels budget : Nat}
    (hv : ∀ v, p = .value v → (scan lookup (p.expanded lookup levels budget).text).found = none) :
    (p.expanded lookup levels budget).text ≠ r.source := by
  intro heq
  cases p with
  | value v =>
    have hsome : (scan lookup r.source).found = some (⟨[], r.body, []⟩, .value v) :=
      found_of_replaces (Reference.first?_source h) hp
    have hnone := hv v rfl
    rw [heq, hsome] at hnone
    exact Option.some_ne_none _ hnone
  | fallback t =>
    have hlt := Reference.length_fallback_lt hp.2
    have hlen := congrArg List.length heq
    simp only [Replacement.expanded, Reference.source, List.length_append, List.length_cons, List.length_nil] at hlen
    omega

/-- A value that was expanded without reaching a limit holds no reference that can be replaced. -/
theorem found_expandValue {lookup : String → Option String} {levels budget : Nat} {done text : List Char}
    (h : (expandValue lookup levels budget done text).truncated = false) :
    ∃ tail, (expandValue lookup levels budget done text).text = done ++ tail ∧ (scan lookup tail).found = none := by
  -- A recursive call has either fewer replacements left or, for the value behind a reference, fewer levels.
  induction budget using Nat.strongRecOn generalizing levels done text with
  | ind budget ihBudget =>
    induction levels generalizing done text with
    | zero => simp [expandValue] at h
    | succ levels ihLevels =>
      cases hs : (scan lookup text).found with
      | none => exact ⟨text, (expandValue_of_none hs).1, hs⟩
      | some found =>
        obtain ⟨r, p⟩ := found
        obtain ⟨-, hfirst, hp⟩ := replaces_of_found hs
        by_cases hl : (p.expanded lookup levels budget).left = 0
        · simp [expandValue_of_spent hs hl] at h
        by_cases hlast : (p.expanded lookup levels budget).truncated ||
            r.replaceWith (p.expanded lookup levels budget).text == r.replaceWith r.source
        · have htrunc := (expandValue_of_last hs hl hlast).symm.trans h
          have heq : (p.expanded lookup levels budget).text = r.source := by
            simpa [htrunc, Reference.replaceWith] using hlast
          refine absurd heq (text_ne_source hfirst hp ?_)
          rintro v rfl
          obtain ⟨tail, htext, htail⟩ := ihLevels htrunc
          exact htext ▸ htail
        · obtain ⟨htext, htrunc, -⟩ := expandValue_of_more hs hl hlast
          have hlt : (p.expanded lookup levels budget).left - 1 < budget := by
            have := (p.expanded lookup levels budget).left_le
            omega
          obtain ⟨tail, htext', htail⟩ := ihBudget _ hlt (htrunc.symm.trans h)
          refine ⟨(scan lookup text).skipped ++ tail, ?_, ?_⟩
          · rw [htext, htext', List.append_assoc]
          · rw [found_skipped_append, htail]

/-- A replacement that keeps the limits changes the text and does not end the expansion. -/
theorem not_last_of_found {lookup : String → Option String} {text : List Char} {r : Reference} {p : Replacement}
    (hs : (scan lookup text).found = some (r, p)) {levels budget : Nat}
    (htrunc : (p.expanded lookup levels budget).truncated = false) :
    ¬ ((p.expanded lookup levels budget).truncated ||
      r.replaceWith (p.expanded lookup levels budget).text == r.replaceWith r.source) := by
  obtain ⟨-, hfirst, hp⟩ := replaces_of_found hs
  have hne : (p.expanded lookup levels budget).text ≠ r.source := by
    refine text_ne_source hfirst hp ?_
    rintro v rfl
    obtain ⟨tail, htext, htail⟩ := found_expandValue htrunc
    exact (show (Replacement.expanded lookup levels budget (.value v)).text = tail from htext) ▸ htail
  simpa [htrunc, Reference.replaceWith] using hne

end LayeredConfig.Template
