import LayeredConfig.Proofs.Template.Braces

/-!
# Looking for the next reference

What `Reference.first?` and `scan` find in a text that is put together from parts.  A reference is found by what
stands before it and between its braces alone (`first?_replaceWith`), and a reference that `scan` steps over is
stepped over whatever follows it (`found_skipped_append`).
-/

namespace LayeredConfig.Template

namespace Reference

theorem first?_eq_some_iff {text : List Char} {r : Reference} :
    first? text = some r ↔
      ∃ after, splitOpen text = some (r.before, after) ∧ splitClose 0 after = some (r.body, r.rest) ∧ r.name ≠ "" := by
  constructor
  · intro h
    obtain ⟨⟨before, after⟩, ho, h⟩ := Option.bind_eq_some_iff.1 h
    obtain ⟨⟨body, rest⟩, hc, h⟩ := Option.bind_eq_some_iff.1 h
    split at h
    · simp at h
    · rename_i hn
      obtain rfl := Option.some.inj h
      exact ⟨after, ho, hc, hn⟩
  · rintro ⟨after, ho, hc, hn⟩
    simpa [first?, ho, hc] using hn

/-- Whatever follows a reference, it is found again. -/
theorem first?_replaceWith {text : List Char} {r : Reference} (h : first? text = some r) (more : List Char) :
    first? (r.before ++ r.source ++ more) = some { r with rest := more } := by
  obtain ⟨after, ho, hc, hn⟩ := first?_eq_some_iff.1 h
  refine first?_eq_some_iff.2 ⟨r.body ++ '}' :: more, ?_, splitClose_of_splitClose hc more, hn⟩
  rw [← splitOpen_of_splitOpen ho]
  simp [source]

/-- A reference is found in its own text. -/
theorem first?_source {text : List Char} {r : Reference} (h : first? text = some r) :
    first? r.source = some ⟨[], r.body, []⟩ := by
  obtain ⟨after, ho, hc, hn⟩ := first?_eq_some_iff.1 h
  exact first?_eq_some_iff.2 ⟨r.body ++ ['}'], by simp [source, splitOpen], splitClose_of_splitClose hc [], hn⟩

theorem length_fallback_lt {r : Reference} {t : List Char} (h : r.fallback? = some t) :
    t.length < r.body.length := by
  have hle := (List.dropWhile_suffix (l := r.body) (· ≠ ':')).length_le
  unfold fallback? at h
  split at h
  · simp at h
  · rename_i heq
    obtain rfl := Option.some.inj h
    rw [heq] at hle
    exact hle

end Reference

section

variable {lookup : String → Option String} {text : List Char} {r : Reference}

theorem scan_of_none (h : Reference.first? text = none) : scan lookup text = ⟨[], [], none⟩ := by
  rw [scan]
  split <;> simp_all

theorem scan_of_value (h : Reference.first? text = some r) {v : String} (hv : lookup r.name = some v) :
    scan lookup text = ⟨[], [r.name], some (r, .value v)⟩ := by
  rw [scan]
  split <;> simp_all

theorem scan_of_fallback (h : Reference.first? text = some r) (hv : lookup r.name = none) {t : List Char}
    (ht : r.fallback? = some t) : scan lookup text = ⟨[], [r.name], some (r, .fallback t)⟩ := by
  rw [scan]
  split <;> simp_all

theorem scan_of_neither (h : Reference.first? text = some r) (hv : lookup r.name = none) (ht : r.fallback? = none) :
    scan lookup text =
      ⟨r.before ++ r.source ++ (scan lookup r.rest).skipped, r.name :: (scan lookup r.rest).asked,
        (scan lookup r.rest).found⟩ := by
  rw [scan]
  split <;> simp_all

end

/-- What a reference is to be replaced with when names have the values of `lookup`. -/
def Replaces (lookup : String → Option String) (r : Reference) : Replacement → Prop
  | .value v => lookup r.name = some v
  | .fallback t => lookup r.name = none ∧ r.fallback? = some t

theorem found_of_replaces {lookup : String → Option String} {text : List Char} {r : Reference} {p : Replacement}
    (h : Reference.first? text = some r) (hp : Replaces lookup r p) : (scan lookup text).found = some (r, p) := by
  cases p with
  | value v => rw [scan_of_value h hp]
  | fallback t => rw [scan_of_fallback h hp.1 hp.2]

/-- A reference that cannot be replaced leaves the search to the text behind it. -/
theorem found_of_not_replaces {lookup : String → Option String} {text : List Char} {r : Reference}
    (h : Reference.first? text = some r) (hp : ¬ ∃ p, Replaces lookup r p) :
    (scan lookup text).found = (scan lookup r.rest).found := by
  have hv : lookup r.name = none := by
    cases hv : lookup r.name with
    | none => rfl
    | some v => exact absurd ⟨.value v, hv⟩ hp
  have ht : r.fallback? = none := by
    cases ht : r.fallback? with
    | none => rfl
    | some t => exact absurd ⟨.fallback t, hv, ht⟩ hp
  rw [scan_of_neither h hv ht]

/-- A reference that was found stands behind what was stepped over and in front of the rest. -/
theorem replaces_of_found {lookup : String → Option String} {text : List Char} {r : Reference} {p : Replacement}
    (h : (scan lookup text).found = some (r, p)) :
    text = (scan lookup text).skipped ++ r.replaceWith r.source ∧
      Reference.first? (r.replaceWith r.source) = some r ∧ Replaces lookup r p := by
  fun_induction scan lookup text with
  | case1 text hf => simp at h
  | case2 text q hf v hv =>
    obtain ⟨rfl, rfl⟩ := Prod.mk.inj (Option.some.inj h)
    have := Reference.first?_eq_some hf
    exact ⟨this, this ▸ hf, hv⟩
  | case3 text q hf t ht hv =>
    obtain ⟨rfl, rfl⟩ := Prod.mk.inj (Option.some.inj h)
    have := Reference.first?_eq_some hf
    exact ⟨this, this ▸ hf, hv, ht⟩
  | case4 text q hf ht hv s ih =>
    obtain ⟨htext, hfirst⟩ := ih h
    refine ⟨?_, hfirst⟩
    show text = q.before ++ q.source ++ s.skipped ++ r.replaceWith r.source
    rw [List.append_assoc _ s.skipped, ← htext]
    exact Reference.first?_eq_some hf

/-- What was stepped over is stepped over again, whatever follows it. -/
theorem found_skipped_append (lookup : String → Option String) (text more : List Char) :
    (scan lookup ((scan lookup text).skipped ++ more)).found = (scan lookup more).found := by
  fun_induction scan lookup text with
  | case1 text hf => rfl
  | case2 text r hf v hv => rfl
  | case3 text r hf t ht hv => rfl
  | case4 text r hf ht hv s ih =>
    have hfirst := Reference.first?_replaceWith hf (s.skipped ++ more)
    rw [List.append_assoc, scan_of_neither hfirst hv ht]
    exact ih

end LayeredConfig.Template
