import LayeredConfig.Proofs.Template.Termination

/-!
# The names that a text refers to

An expansion looks up the names of references one after the other, and each answer decides how it goes on.  Two
lookups that give the same value for every name that one of them is asked for are asked for the same names and give
the same text, whether or not the expansion comes to an end (`expand?_congr`).
-/

namespace LayeredConfig.Template

variable {lookup lookup' : String → Option String}

/-- The lookups give the same value for every name that a trace asks for. -/
def AgreeOn (lookup lookup' : String → Option String) (trace : List Event) : Prop :=
  ∀ name ∈ trace.filterMap Event.name?, lookup' name = lookup name

private theorem agreeOn_append {a b : List Event} :
    AgreeOn lookup lookup' (a ++ b) ↔ AgreeOn lookup lookup' a ∧ AgreeOn lookup lookup' b := by
  rw [AgreeOn, List.filterMap_append, List.forall_mem_append]
  rfl

private theorem agreeOn_map_asked {depth : Nat} {names : List String} :
    AgreeOn lookup lookup' (names.map (Event.asked depth)) ↔ ∀ name ∈ names, lookup' name = lookup name := by
  rw [AgreeOn, List.filterMap_map]
  simp [Event.name?, Function.comp_def]

/-! ### Values -/

private theorem scan_congr {text : List Char} (h : ∀ name ∈ (scan lookup text).asked, lookup' name = lookup name) :
    scan lookup' text = scan lookup text := by
  fun_induction scan lookup text with
  | case1 text hf => exact scan_of_none hf
  | case2 text r hf v hv =>
    exact scan_of_value hf ((h r.name List.mem_cons_self).trans hv)
  | case3 text r hf t ht hv => exact scan_of_fallback hf ((h r.name List.mem_cons_self).trans hv) ht
  | case4 text r hf ht hv s ih =>
    rw [List.forall_mem_cons] at h
    rw [scan_of_neither hf (h.1.trans hv) ht, ih h.2]

/-- How the expansion of a value goes on with `inner` in the place of the reference that was found. -/
def proceed (lookup : String → Option String) (levels : Nat) {budget : Nat} (done text : List Char) (r : Reference)
    (inner : ValueExpansion budget) : ValueExpansion budget :=
  let s := scan lookup text
  let trace := s.asked.map (Event.asked (maxDepth - levels)) ++ inner.trace
  if inner.left = 0 then ⟨done ++ text, true, 0, trace, Nat.zero_le _⟩
  else
    have hle := inner.left_le
    let trace := trace ++ [Event.substituted (maxDepth - levels)]
    let done' := done ++ s.skipped
    let next := r.replaceWith inner.text
    if inner.truncated || next == r.replaceWith r.source then
      ⟨done' ++ next, inner.truncated, inner.left - 1, trace, by omega⟩
    else
      let e := expandValue lookup (levels + 1) (inner.left - 1) done' next
      ⟨e.text, e.truncated, e.left, trace ++ e.trace, by have := e.left_le; omega⟩

theorem expandValue_succ (lookup : String → Option String) (levels budget : Nat) (done text : List Char) :
    expandValue lookup (levels + 1) budget done text =
      match (scan lookup text).found with
      | none =>
        ⟨done ++ text, false, budget, (scan lookup text).asked.map (Event.asked (maxDepth - levels)), Nat.le_refl _⟩
      | some (r, replacement) => proceed lookup levels done text r (replacement.expanded lookup levels budget) := by
  rw [expandValue]
  cases (scan lookup text).found with
  | none => rfl
  | some found =>
    obtain ⟨r, replacement⟩ := found
    cases replacement with
    | value v => rfl
    | fallback t => rfl

/-- It has looked up the names on the way to the reference, and those inside it. -/
private theorem agreeOn_of_proceed {levels budget : Nat} {done text : List Char} {r : Reference}
    {inner : ValueExpansion budget} (h : AgreeOn lookup lookup' (proceed lookup levels done text r inner).trace) :
    (∀ name ∈ (scan lookup text).asked, lookup' name = lookup name) ∧ AgreeOn lookup lookup' inner.trace := by
  rw [← agreeOn_map_asked, ← agreeOn_append]
  unfold proceed at h
  dsimp only at h
  split at h
  · exact h
  · split at h
    · exact (agreeOn_append.1 h).1
    · exact (agreeOn_append.1 (agreeOn_append.1 h).1).1

private theorem expandValue_congr (levels budget : Nat) (done text : List Char)
    (h : AgreeOn lookup lookup' (expandValue lookup levels budget done text).trace) :
    expandValue lookup' levels budget done text = expandValue lookup levels budget done text := by
  match levels with
  | 0 => rw [expandValue, expandValue]
  | levels + 1 =>
    rw [expandValue_succ lookup] at h ⊢
    rw [expandValue_succ lookup']
    cases hfound : (scan lookup text).found with
    | none =>
      rw [hfound] at h
      rw [scan_congr (agreeOn_map_asked.1 h), hfound]
    | some found =>
      obtain ⟨r, replacement⟩ := found
      rw [hfound] at h
      obtain ⟨hasked, htrace⟩ := agreeOn_of_proceed h
      have hinner : replacement.expanded lookup' levels budget = replacement.expanded lookup levels budget := by
        cases replacement with
        | value v => exact expandValue_congr levels budget [] v.toList htrace
        | fallback t => rfl
      rw [scan_congr hasked, hfound]
      dsimp only at h ⊢
      rw [hinner]
      generalize replacement.expanded lookup levels budget = inner at h
      unfold proceed at h ⊢
      dsimp only at h
      simp only [scan_congr hasked]
      split
      · rfl
      · rename_i hleft
        rw [if_neg hleft] at h
        split
        · rfl
        · rename_i hmore
          rw [if_neg hmore] at h
          have hless : inner.left - 1 < budget := by
            have := inner.left_le
            omega
          have hrest := expandValue_congr (levels + 1) (inner.left - 1) (done ++ (scan lookup text).skipped)
            (r.replaceWith inner.text) (agreeOn_append.1 h).2
          simp only [hrest]
termination_by (budget, levels)

/-! ### Texts -/

/-- All that was looked up and replaced up to the end of a turn. -/
def Turn.trace : Turn → List Event
  | last e => e.trace
  | more p => p.trace

namespace Progress

variable {p q : Progress} {e : Expansion}

private theorem turn_congr (h : AgreeOn lookup lookup' (p.turn lookup).trace) : p.turn lookup' = p.turn lookup := by
  unfold turn at h ⊢
  dsimp only at h ⊢
  cases hfound : (scan lookup p.text).found with
  | none =>
    rw [hfound] at h
    rw [scan_congr (agreeOn_map_asked.1 (agreeOn_append.1 h).2), hfound]
  | some found =>
    obtain ⟨r, replacement⟩ := found
    rw [hfound] at h
    dsimp only at h
    have htrace : AgreeOn lookup lookup' (p.trace ++ (scan lookup p.text).asked.map (Event.asked 0) ++
        (replacement.expanded lookup maxDepth maxSubstitutions).trace ++ [Event.substituted 0]) := by
      split at h
      · exact h
      · exact h
    obtain ⟨hasked, hinner⟩ := agreeOn_append.1 (agreeOn_append.1 htrace).1
    have hexpanded : replacement.expanded lookup' maxDepth maxSubstitutions =
        replacement.expanded lookup maxDepth maxSubstitutions := by
      cases replacement with
      | value v => exact expandValue_congr maxDepth maxSubstitutions [] v.toList hinner
      | fallback t => rfl
    rw [scan_congr (agreeOn_map_asked.1 (agreeOn_append.1 hasked).2), hfound]
    dsimp only
    rw [hexpanded]

private theorem after?_congr (h : ∀ n q, p.after? lookup n = some q → q.turn lookup' = q.turn lookup) (n : Nat) :
    p.after? lookup' n = p.after? lookup n := by
  induction n generalizing p with
  | zero => rfl
  | succ n ih =>
    rw [after?, after?, h 0 p rfl]
    cases ht : p.turn lookup with
    | last e => rfl
    | more q => exact ih fun n q' hq => h (n + 1) q' (by rwa [after?_succ_of_more ht])

private theorem finish?_congr (h : ∀ n q, p.after? lookup n = some q → q.turn lookup' = q.turn lookup) :
    p.finish? lookup' = p.finish? lookup := by
  by_cases hend : ∃ n, p.after? lookup n = none
  · obtain ⟨n, hn⟩ := hend
    induction n generalizing p with
    | zero => cases hn
    | succ n ih =>
      have hturn := h 0 p rfl
      cases ht : p.turn lookup with
      | last e => rw [finish?_of_last ht, finish?_of_last (hturn.trans ht)]
      | more q =>
        rw [after?_succ_of_more ht] at hn
        rw [finish?_of_more ht, finish?_of_more (hturn.trans ht)]
        exact ih (fun n q' hq => h (n + 1) q' (by rwa [after?_succ_of_more ht])) hn
  -- Without an end the same replacements go on for ever.
  · have hnone {f : String → Option String} (hf : ¬ ∃ n, p.after? f n = none) : p.finish? f = none := by
      rwa [← isSome_finish?_iff, Option.not_isSome_iff_eq_none] at hf
    have hend' : ¬ ∃ n, p.after? lookup' n = none := by
      simpa only [after?_congr h] using hend
    rw [hnone hend, hnone hend']

/-- A turn forgets nothing. -/
private theorem subset_trace_turn (lookup : String → Option String) (p : Progress) :
    p.trace ⊆ (p.turn lookup).trace := by
  unfold turn
  dsimp only
  split
  · exact List.subset_append_left _ _
  · have htrace (a b c : List Event) : p.trace ⊆ p.trace ++ a ++ b ++ c := by
      rw [List.append_assoc, List.append_assoc]
      exact List.subset_append_left _ _
    split
    · exact htrace _ _ _
    · exact htrace _ _ _

/-- What comes out in the end is the trace of the last turn, and holds those of all turns before. -/
private theorem trace_turn_subset_of_finish? {n : Nat} (hn : p.after? lookup n = none)
    (he : p.finish? lookup = some e) :
    (p.turn lookup).trace ⊆ e.trace ∧ ∃ m q, p.after? lookup m = some q ∧ (q.turn lookup).trace = e.trace := by
  induction n generalizing p with
  | zero => cases hn
  | succ n ih =>
    cases ht : p.turn lookup with
    | last e' =>
      rw [finish?_of_last ht] at he
      obtain rfl := Option.some.inj he
      exact ⟨List.Subset.refl _, 0, p, rfl, by rw [ht]; rfl⟩
    | more q =>
      rw [after?_succ_of_more ht] at hn
      rw [finish?_of_more ht] at he
      obtain ⟨hsubset, m, q', hq', htrace⟩ := ih hn he
      exact ⟨List.Subset.trans (subset_trace_turn lookup q) hsubset, m + 1, q', by rwa [after?_succ_of_more ht], htrace⟩

end Progress

/-- A name that is looked up while the references of a text are replaced, even if this never comes to an end. -/
def Refers (lookup : String → Option String) (raw name : String) : Prop :=
  ∃ n p, (Progress.start raw).after? lookup n = some p ∧ name ∈ (p.turn lookup).trace.filterMap Event.name?

/-- The names that a text refers to are those that its expansion has looked up in the end. -/
theorem refers_iff_of_expand? {raw name : String} {e : Expansion} (he : expand? lookup raw = some e) :
    Refers lookup raw name ↔ name ∈ e.trace.filterMap Event.name? := by
  have hend : ∃ n, (Progress.start raw).after? lookup n = none := by
    rw [← Progress.isSome_finish?_iff]
    exact Option.isSome_iff_exists.2 ⟨e, he⟩
  obtain ⟨n, hn⟩ := hend
  constructor
  · rintro ⟨m, p, hp, hname⟩
    have hp' : p.after? lookup n = none := by
      rw [← Progress.after?_add hp]
      exact Progress.after?_eq_none_of_le hn (Nat.le_add_left _ _)
    have he' : p.finish? lookup = some e := (Progress.finish?_of_after? hp).symm.trans he
    obtain ⟨event, hevent, hname⟩ := List.mem_filterMap.1 hname
    exact List.mem_filterMap.2 ⟨event, (Progress.trace_turn_subset_of_finish? hp' he').1 hevent, hname⟩
  · intro hname
    obtain ⟨-, m, q, hq, htrace⟩ := Progress.trace_turn_subset_of_finish? hn he
    exact ⟨m, q, hq, htrace ▸ hname⟩

/-- Only the values of the names that it refers to matter to a text. -/
theorem expand?_congr {raw : String} (h : ∀ name, Refers lookup raw name → lookup' name = lookup name) :
    expand? lookup' raw = expand? lookup raw :=
  Progress.finish?_congr fun n p hp => Progress.turn_congr fun name hname => h name ⟨n, p, hp, hname⟩

end LayeredConfig.Template
