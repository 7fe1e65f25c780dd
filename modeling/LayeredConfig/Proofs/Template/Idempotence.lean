import LayeredConfig.Proofs.Template.Termination

/-!
# Expanding a text twice

What an expansion leaves behind has two parts.  The first was stepped over: it ends behind a reference that has
neither a value nor a fallback, and the search for the next reference passes through it whatever follows
(`PassedOver`).  Replacements take place behind it and never touch it again.  The second is the text in which the last
search found nothing.  So a search of the whole text finds nothing either (`found_of_finish?`), and a second
expansion gives the same text after lookups alone (`expand?_expanded`).
-/

namespace LayeredConfig.Template

variable {lookup : String → Option String}

/-- Whether the search for a reference passes through a text, whatever follows it. -/
def PassedOver (lookup : String → Option String) (done : List Char) : Prop :=
  ∀ more, (scan lookup (done ++ more)).found = (scan lookup more).found

private theorem PassedOver.nil : PassedOver lookup [] := fun _ => rfl

private theorem PassedOver.append {a b : List Char} (ha : PassedOver lookup a) (hb : PassedOver lookup b) :
    PassedOver lookup (a ++ b) := by
  intro more
  rw [List.append_assoc, ha, hb]

private theorem passedOver_skipped (text : List Char) : PassedOver lookup (scan lookup text).skipped :=
  found_skipped_append lookup text

namespace Progress

variable {p q : Progress} {e : Expansion}

/-- A replacement only adds to what was stepped over. -/
private theorem done_of_turn (h : p.turn lookup = .more q) : q.done = p.done ++ (scan lookup p.text).skipped := by
  obtain ⟨r, replacement, hs, htrunc, -⟩ := turn_eq_more h
  obtain ⟨q', hq', hdone, -⟩ := turn_of_found hs htrunc
  obtain rfl := Turn.more.inj (h.symm.trans hq')
  exact hdone

/-- An expansion that keeps the limits ends because nothing is left to replace. -/
private theorem turn_eq_last (h : p.turn lookup = .last e) (he : e.truncated = false) :
    (scan lookup p.text).found = none ∧ e.text = p.done ++ p.text := by
  cases hs : (scan lookup p.text).found with
  | none =>
    obtain ⟨e', he', htext, -⟩ := turn_of_none hs
    obtain rfl := Turn.last.inj (h.symm.trans he')
    exact ⟨rfl, htext⟩
  | some found =>
    obtain ⟨r, replacement⟩ := found
    -- Such a turn could only be the last one if a limit was reached inside the value.
    have htrunc : (replacement.expanded lookup maxDepth maxSubstitutions).truncated ≠ false := by
      intro htrunc
      obtain ⟨q, hq, -⟩ := turn_of_found hs htrunc
      rw [hq] at h
      nomatch h
    unfold turn at h
    simp only [hs] at h
    split at h
    · obtain rfl := Turn.last.inj h
      exact absurd he htrunc
    · nomatch h

/-- A search of an expanded text finds nothing to replace. -/
theorem found_of_finish? (h : p.finish? lookup = some e) (he : e.truncated = false)
    (hp : PassedOver lookup p.done) : (scan lookup e.text).found = none := by
  obtain ⟨n, hn⟩ := isSome_finish?_iff.1 (Option.isSome_of_eq_some h)
  induction n generalizing p with
  | zero => nomatch hn
  | succ n ih =>
    cases ht : p.turn lookup with
    | last e' =>
      rw [finish?_of_last ht] at h
      obtain rfl := Option.some.inj h
      obtain ⟨hfound, htext⟩ := turn_eq_last ht he
      rw [htext, hp, hfound]
    | more q =>
      rw [finish?_of_more ht] at h
      rw [after?_succ_of_more ht] at hn
      refine ih h ?_ hn
      rw [done_of_turn ht]
      exact hp.append (passedOver_skipped p.text)

end Progress

/-- A text in which nothing can be replaced stands for itself. -/
private theorem expand?_of_found_none {text : List Char} (h : (scan lookup text).found = none) :
    expand? lookup (String.ofList text) =
      some ⟨text, false, (scan lookup text).asked.map (Event.asked 0)⟩ := by
  apply Progress.finish?_of_last
  simp [Progress.turn, Progress.start, h]

/-- An expansion that kept the limits gives a text that expands to itself, by lookups alone. -/
theorem expand?_expanded {raw : String} {e : Expansion} (h : expand? lookup raw = some e)
    (he : e.truncated = false) :
    expand? lookup (String.ofList e.text) =
      some ⟨e.text, false, (scan lookup e.text).asked.map (Event.asked 0)⟩ :=
  expand?_of_found_none (Progress.found_of_finish? h he PassedOver.nil)

/-- A value that opens a reference, which the brace behind it closes, and after it one without a name. -/
theorem expand?_expanded_halfOpen :
    let lookup := fun name => if name = "a" then some "x$\x7bgone" else none
    let e : Expansion := ⟨"x$\x7bgone\x7d $\x7b\x7d $\x7ba\x7d".toList, false,
      [.asked 0 "a", .substituted 0, .asked 0 "gone"]⟩
    expand? lookup "$\x7ba\x7d\x7d $\x7b\x7d $\x7ba\x7d" = some e ∧ e.truncated = false ∧
      expand? lookup (String.ofList e.text) = some ⟨e.text, false, [.asked 0 "gone"]⟩ := by
  intro lookup e
  let r : Reference := ⟨[], ['a'], "\x7d $\x7b\x7d $\x7ba\x7d".toList⟩
  have hvalue : scan lookup "x$\x7bgone".toList = ⟨[], [], none⟩ := scan_of_none (by decide)
  have hraw : scan lookup "$\x7ba\x7d\x7d $\x7b\x7d $\x7ba\x7d".toList =
      ⟨[], ["a"], some (r, .value "x$\x7bgone")⟩ := scan_of_value (r := r) rfl rfl
  have hrest : scan lookup " $\x7b\x7d $\x7ba\x7d".toList = ⟨[], [], none⟩ := scan_of_none (by decide)
  have hnext : scan lookup e.text = ⟨"x$\x7bgone\x7d".toList, ["gone"], none⟩ := by
    have hgone : Reference.first? e.text = some ⟨['x'], "gone".toList, " $\x7b\x7d $\x7ba\x7d".toList⟩ := rfl
    rw [scan_of_neither hgone rfl rfl, hrest]
    rfl
  have hinner : expandValue lookup maxDepth maxSubstitutions [] "x$\x7bgone".toList =
      ⟨"x$\x7bgone".toList, false, maxSubstitutions, [], Nat.le_refl _⟩ := by
    rw [maxDepth, expandValue]
    simp only [hvalue]
    rfl
  have hfirst : (Progress.start "$\x7ba\x7d\x7d $\x7b\x7d $\x7ba\x7d").turn lookup =
      .more ⟨[], e.text, [.asked 0 "a", .substituted 0]⟩ := by
    simp only [Progress.turn, Progress.start, hraw, Replacement.expanded, hinner]
    rfl
  have h : expand? lookup "$\x7ba\x7d\x7d $\x7b\x7d $\x7ba\x7d" = some e := by
    rw [expand?, Progress.finish?_of_more hfirst]
    apply Progress.finish?_of_last
    simp only [Progress.turn, hnext]
    rfl
  have htwice := expand?_expanded h rfl
  rw [hnext] at htwice
  exact ⟨h, rfl, htwice⟩

end LayeredConfig.Template
