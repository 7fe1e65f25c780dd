import LayeredConfig.Entries
import LayeredConfig.Proofs.Template.Settled
import Mathlib.Data.Set.Finite.Lattice
import Mathlib.Order.Interval.Finset.Nat

/-!
# When an expansion comes to an end

The references of a text itself are replaced as long as there are any, without a limit on their number.

A reference closes with the first brace that no opening inside it needs.  So a replacement can only go on for ever
if it keeps making braces available.  There are two ways to do so: a fallback behind a name that itself holds an
opening takes the brace of that opening with it, and a text that begins with a brace turns a `$` in front of the
reference into an opening.  Such a replacement `unbalances` the text.  Every other one makes the text after the
next reference poorer in unmatched braces, or as rich and shorter (`weight_lt_of_turn`).

Hence an expansion ends exactly if it unbalances the text only finitely often (`expand?_isSome_iff`).
-/

namespace LayeredConfig.Template

/-! ### What the next reference has behind it -/

section

variable {lookup : String → Option String}

private theorem excess_rest_le_of_first? {text : List Char} {r : Reference} (h : Reference.first? text = some r) :
    excess 0 r.rest ≤ excess 0 text := by
  obtain ⟨after, ho, hc, -⟩ := Reference.first?_eq_some_iff.1 h
  have hopen : excess 1 after ≤ excess 0 text := excess_le_of_splitOpen ho 0
  have hclose := excess_of_splitClose hc (Nat.le_refl 1)
  omega

/-- What follows a reference has no more unmatched braces than the text it was found in. -/
private theorem excess_rest_le_of_found {text : List Char} {r : Reference} {p : Replacement}
    (h : (scan lookup text).found = some (r, p)) : excess 0 r.rest ≤ excess 0 text := by
  fun_induction scan lookup text with
  | case1 text hf => simp at h
  | case2 text q hf v hv =>
    obtain ⟨rfl, rfl⟩ := Prod.mk.inj (Option.some.inj h)
    exact excess_rest_le_of_first? hf
  | case3 text q hf t ht hv =>
    obtain ⟨rfl, rfl⟩ := Prod.mk.inj (Option.some.inj h)
    exact excess_rest_le_of_first? hf
  | case4 text q hf ht hv s ih => exact Nat.le_trans (ih h) (excess_rest_le_of_first? hf)

private theorem length_le_of_found {text : List Char} {r : Reference} {p : Replacement}
    (h : (scan lookup text).found = some (r, p)) : r.body.length + r.rest.length + 3 ≤ text.length := by
  obtain ⟨htext, -⟩ := replaces_of_found h
  have hlen := congrArg List.length htext
  simp only [Reference.replaceWith, Reference.source, List.length_append, List.length_cons, List.length_nil] at hlen
  omega

/-- A reference that was stepped over leaves the braces behind it to those after it. -/
private theorem excess_rest_le_of_first?_of_found {text : List Char} {q r : Reference} {p : Replacement}
    (hf : Reference.first? text = some q) (h : (scan lookup text).found = some (r, p)) :
    excess 0 r.rest ≤ excess 0 q.rest := by
  by_cases hq : ∃ p, Replaces lookup q p
  · obtain ⟨p', hp⟩ := hq
    obtain ⟨rfl, rfl⟩ := Prod.mk.inj (Option.some.inj ((found_of_replaces hf hp).symm.trans h))
    exact Nat.le_refl _
  · exact excess_rest_le_of_found ((found_of_not_replaces hf hq).symm.trans h)

/-- Text without an opening does not change what is found behind it. -/
private theorem found_append_of_splitOpen {before text : List Char} (hb : splitOpen before = none)
    (hj : ¬ joins before text) {r : Reference} {p : Replacement}
    (h : (scan lookup (before ++ text)).found = some (r, p)) :
    ∃ q, (scan lookup text).found = some (q, p) ∧ q.body = r.body ∧ q.rest = r.rest := by
  cases hf : Reference.first? (before ++ text) with
  | none => simp [scan_of_none hf] at h
  | some f =>
    obtain ⟨after, ho, hc, hn⟩ := Reference.first?_eq_some_iff.1 hf
    rw [splitOpen_append_of_none hb hj] at ho
    obtain ⟨⟨start, _⟩, hstart, heq⟩ := Option.map_eq_some_iff.1 ho
    obtain ⟨-, rfl⟩ := Prod.mk.inj heq
    have hfirst : Reference.first? text = some ⟨start, f.body, f.rest⟩ :=
      Reference.first?_eq_some_iff.2 ⟨_, hstart, hc, hn⟩
    by_cases hp : ∃ p, Replaces lookup f p
    · obtain ⟨p', hp⟩ := hp
      obtain ⟨rfl, rfl⟩ := Prod.mk.inj (Option.some.inj ((found_of_replaces hf hp).symm.trans h))
      exact ⟨_, found_of_replaces hfirst hp, rfl, rfl⟩
    · exact ⟨r, (found_of_not_replaces hfirst hp).trans ((found_of_not_replaces hf hp).symm.trans h), rfl, rfl⟩

/-- A reference that opens in a text and closes in the one after it takes its brace from there. -/
private theorem excess_rest_lt_of_first?_append {text opened after : List Char} (hx : Reference.first? text = none)
    (ho : splitOpen text = some (opened, after)) {more : List Char} {f : Reference}
    (hf : Reference.first? (text ++ more) = some f) : excess 0 f.rest < excess 0 more := by
  obtain ⟨_, ho', hc, hn⟩ := Reference.first?_eq_some_iff.1 hf
  obtain ⟨-, rfl⟩ := Prod.mk.inj (Option.some.inj ((splitOpen_append_of_some ho more).symm.trans ho'))
  cases hclose : splitClose 0 after with
  | none => exact excess_lt_of_splitClose_append hclose hc
  | some closed =>
    obtain ⟨body, rest⟩ := closed
    obtain ⟨rfl, -⟩ := Prod.mk.inj (Option.some.inj ((splitClose_append_of_some hclose more).symm.trans hc))
    have hsome : Reference.first? text = some ⟨opened, f.body, rest⟩ :=
      Reference.first?_eq_some_iff.2 ⟨after, ho, hclose, hn⟩
    exact absurd (hsome.symm.trans hx) (Option.some_ne_none _)

/-- A reference that a text without replaceable references makes together with the text after it takes an
unmatched brace from there, or leaves less than that text. -/
private theorem excess_rest_of_found_append {text : List Char} (hx : (scan lookup text).found = none) {more : List Char}
    {r : Reference} {p : Replacement} (h : (scan lookup (text ++ more)).found = some (r, p)) :
    excess 0 r.rest < excess 0 more ∨
      excess 0 r.rest ≤ excess 0 more ∧ r.body.length + r.rest.length + 2 ≤ more.length := by
  fun_induction scan lookup text with
  | case1 text hf =>
    cases ho : splitOpen text with
    | none =>
      by_cases hj : joins text more
      · -- The `$` at the end of `text` opens a reference with the first brace of `more`.
        obtain ⟨start, rfl⟩ : ∃ start, text = start ++ ['$'] :=
          ⟨text.dropLast, (List.dropLast_append_getLast? _ hj.1).symm⟩
        obtain ⟨more, rfl⟩ : ∃ more', more = '{' :: more' := by
          cases more with
          | nil => simp [joins] at hj
          | cons d more => exact ⟨more, by simpa using hj.2⟩
        rw [List.append_assoc] at h
        obtain ⟨q, hq, hbody, hrest⟩ :=
          found_append_of_splitOpen (splitOpen_eq_none_of_append ho) (by simp [joins]) h
        have hlen := length_le_of_found hq
        have hexcess := excess_rest_le_of_found hq
        have hone := excess_zero_le 1 more
        rw [List.singleton_append, excess_open] at hexcess
        rw [← hbody, ← hrest, excess_brace]
        exact .inr ⟨Nat.le_trans hexcess hone, by simpa using hlen⟩
      · obtain ⟨q, hq, hbody, hrest⟩ := found_append_of_splitOpen ho hj h
        have hlen := length_le_of_found hq
        rw [← hbody, ← hrest]
        exact .inr ⟨excess_rest_le_of_found hq, by omega⟩
    | some opened =>
      obtain ⟨opened, after⟩ := opened
      cases hf' : Reference.first? (text ++ more) with
      | none => simp [scan_of_none hf'] at h
      | some f =>
        have hle := excess_rest_le_of_first?_of_found hf' h
        exact .inl (Nat.lt_of_le_of_lt hle (excess_rest_lt_of_first?_append hf ho hf'))
  | case2 text q hf v hv => simp at hx
  | case3 text q hf t ht hv => simp at hx
  | case4 text q hf ht hv s ih =>
    have hfirst := Reference.first?_replaceWith hf (q.rest ++ more)
    rw [← List.append_assoc, ← Reference.replaceWith, ← Reference.first?_eq_some hf] at hfirst
    rw [scan_of_neither hfirst hv ht] at h
    exact ih hx h

end

/-! ### One replacement -/

/-- The unmatched braces behind a reference, and how much of a text its body and what follows take up. -/
def Reference.weight (r : Reference) : Nat × Nat := (excess 0 r.rest, r.body.length + r.rest.length)

/-- The unmatched braces that a fallback takes along from behind an opening in its name. -/
def Replacement.unmatched : Replacement → Nat
  | value _ => 0
  | fallback t => excess 0 t

/-- Whether the next replacement makes a brace available: one of its fallback, or one that joins a `$`. -/
def Progress.unbalances (lookup : String → Option String) (p : Progress) : Prop :=
  ∃ r replacement, (scan lookup p.text).found = some (r, replacement) ∧
    (0 < replacement.unmatched ∨
      joins r.before ((replacement.expanded lookup maxDepth maxSubstitutions).text ++ r.rest))

section

variable {lookup : String → Option String} {p q : Progress}

theorem Progress.turn_of_none (h : (scan lookup p.text).found = none) :
    ∃ e, p.turn lookup = .last e ∧ e.text = p.done ++ p.text ∧ e.truncated = false := by
  unfold turn
  simp only [h]
  exact ⟨_, rfl, rfl, rfl⟩

theorem Progress.turn_of_found {r : Reference} {replacement : Replacement}
    (h : (scan lookup p.text).found = some (r, replacement))
    (htrunc : (replacement.expanded lookup maxDepth maxSubstitutions).truncated = false) :
    ∃ q, p.turn lookup = .more q ∧ q.done = p.done ++ (scan lookup p.text).skipped ∧
      q.text = r.replaceWith (replacement.expanded lookup maxDepth maxSubstitutions).text := by
  unfold turn
  simp only [h]
  rw [if_neg (not_last_of_found h htrunc)]
  exact ⟨_, rfl, rfl, rfl⟩

theorem Progress.turn_eq_more (h : p.turn lookup = .more q) :
    ∃ r replacement, (scan lookup p.text).found = some (r, replacement) ∧
      (replacement.expanded lookup maxDepth maxSubstitutions).truncated = false ∧
      q.text = r.replaceWith (replacement.expanded lookup maxDepth maxSubstitutions).text := by
  cases hs : (scan lookup p.text).found with
  | none =>
    obtain ⟨e, he, -⟩ := turn_of_none hs
    rw [he] at h
    nomatch h
  | some found =>
    obtain ⟨r, replacement⟩ := found
    unfold turn at h
    simp only [hs] at h
    split at h
    · nomatch h
    · rename_i hmore
      obtain rfl := Turn.more.inj h
      simp only [Bool.or_eq_true, not_or, Bool.not_eq_true] at hmore
      exact ⟨r, replacement, rfl, hmore.1, rfl⟩

/-- A replacement that does not unbalance the text leaves less behind the next reference. -/
theorem weight_lt_of_turn (h : p.turn lookup = .more q) (hb : ¬ p.unbalances lookup) {r r' : Reference}
    {replacement replacement' : Replacement} (hr : (scan lookup p.text).found = some (r, replacement))
    (hr' : (scan lookup q.text).found = some (r', replacement')) :
    Prod.Lex (· < ·) (· < ·) r'.weight r.weight := by
  obtain ⟨r, replacement, hs, htrunc, htext⟩ := Progress.turn_eq_more h
  obtain ⟨rfl, rfl⟩ := Prod.mk.inj (Option.some.inj (hs.symm.trans hr))
  obtain ⟨-, hfirst, hp⟩ := replaces_of_found hr
  obtain ⟨after, ho, -, hn⟩ := Reference.first?_eq_some_iff.1 hfirst
  have hbody : 0 < r.body.length := by
    apply List.length_pos_iff.2
    intro hnil
    exact hn (by simp [Reference.name, hnil])
  have hjoin : ¬ joins r.before ((replacement.expanded lookup maxDepth maxSubstitutions).text ++ r.rest) :=
    fun hj => hb ⟨r, replacement, hr, .inr hj⟩
  rw [htext, Reference.replaceWith, List.append_assoc] at hr'
  obtain ⟨f, hf, hfbody, hfrest⟩ := found_append_of_splitOpen (splitOpen_before ho) hjoin hr'
  -- From here on the two weights are compared part by part, those of `f` being those of `r'`.
  suffices excess 0 f.rest < excess 0 r.rest ∨
      excess 0 f.rest ≤ excess 0 r.rest ∧ f.body.length + f.rest.length < r.body.length + r.rest.length by
    unfold Reference.weight
    rw [← hfbody, ← hfrest]
    rcases this with hlt | ⟨hle, hlt⟩
    · exact .left _ _ hlt
    · rcases Nat.lt_or_eq_of_le hle with hlt' | heq
      · exact .left _ _ hlt'
      · rw [heq]
        exact .right _ hlt
  cases replacement with
  | value v =>
    -- The value holds no reference any more, so the next one reaches into the text behind.
    obtain ⟨tail, htail, hsettled⟩ := found_expandValue htrunc
    rw [Replacement.expanded, htail] at hf
    rcases excess_rest_of_found_append hsettled hf with hlt | ⟨hle, hlen⟩
    · exact .inl hlt
    · exact .inr ⟨hle, by omega⟩
  | fallback t =>
    -- The fallback brings no unmatched brace along, and it is shorter than the reference was.
    have hzero : excess 0 t = 0 := by
      apply Nat.eq_zero_of_not_pos
      exact fun hpos => hb ⟨r, .fallback t, hr, .inl hpos⟩
    have hexcess := excess_rest_le_of_found hf
    have hlen := length_le_of_found hf
    have happend := excess_append_le 0 t r.rest
    have hlt := Reference.length_fallback_lt hp.2
    simp only [Replacement.expanded, List.length_append] at hexcess hlen
    exact .inr ⟨by omega, by omega⟩

end

/-! ### Runs -/

namespace Progress

/-- The progress after `n` replacements, if the text takes that many. -/
def after? (lookup : String → Option String) (p : Progress) : Nat → Option Progress
  | 0 => some p
  | n + 1 =>
    match p.turn lookup with
    | .last _ => none
    | .more q => q.after? lookup n

variable {lookup : String → Option String}

theorem finish?_of_last {p : Progress} {e : Expansion} (h : p.turn lookup = .last e) :
    p.finish? lookup = some e := by
  rw [finish?, h]

theorem finish?_of_more {p q : Progress} (h : p.turn lookup = .more q) : p.finish? lookup = q.finish? lookup := by
  rw [finish?, h]

theorem after?_succ_of_more {p q : Progress} (h : p.turn lookup = .more q) (n : Nat) :
    p.after? lookup (n + 1) = q.after? lookup n := by
  rw [after?, h]

/-- A result is that of a run of finitely many replacements. -/
private theorem exists_after?_eq_none {p : Progress} {e : Expansion} (h : p.finish? lookup = some e) :
    ∃ n, p.after? lookup n = none := by
  revert h
  apply finish?.partial_correctness lookup fun p _ => ∃ n, p.after? lookup n = none
  intro finish? ih p e h
  cases ht : p.turn lookup with
  | last e' => exact ⟨1, by simp [after?, ht]⟩
  | more q =>
    rw [ht] at h
    obtain ⟨n, hn⟩ := ih q e h
    exact ⟨n + 1, by rw [after?_succ_of_more ht, hn]⟩

/-- An expansion has a result exactly if its replacements come to an end. -/
theorem isSome_finish?_iff {p : Progress} : (p.finish? lookup).isSome ↔ ∃ n, p.after? lookup n = none := by
  constructor
  · intro h
    obtain ⟨e, he⟩ := Option.isSome_iff_exists.1 h
    exact exists_after?_eq_none he
  · rintro ⟨n, hn⟩
    induction n generalizing p with
    | zero => simp [after?] at hn
    | succ n ih =>
      cases ht : p.turn lookup with
      | last e => rw [finish?_of_last ht]; rfl
      | more q =>
        rw [finish?_of_more ht]
        rw [after?_succ_of_more ht] at hn
        exact ih hn

theorem finish?_of_after? {p q : Progress} {n : Nat} (h : p.after? lookup n = some q) :
    p.finish? lookup = q.finish? lookup := by
  induction n generalizing p with
  | zero => rw [Option.some.inj h]
  | succ n ih =>
    cases ht : p.turn lookup with
    | last e => simp [after?, ht] at h
    | more p' =>
      rw [after?_succ_of_more ht] at h
      rw [finish?_of_more ht, ih h]

theorem after?_add {p q : Progress} {m : Nat} (h : p.after? lookup m = some q) (n : Nat) :
    p.after? lookup (m + n) = q.after? lookup n := by
  induction m generalizing p with
  | zero => rw [Option.some.inj h, Nat.zero_add]
  | succ m ih =>
    cases ht : p.turn lookup with
    | last e => simp [after?, ht] at h
    | more p' =>
      rw [after?_succ_of_more ht] at h
      rw [Nat.add_right_comm, after?_succ_of_more ht, ih h]

theorem after?_eq_none_of_le {p : Progress} {m n : Nat} (h : p.after? lookup m = none) (hle : m ≤ n) :
    p.after? lookup n = none := by
  induction m generalizing p n with
  | zero => simp [after?] at h
  | succ m ih =>
    obtain ⟨n, rfl⟩ := Nat.exists_eq_add_of_le' hle
    rw [← Nat.add_assoc]
    cases ht : p.turn lookup with
    | last e => rw [after?, ht]
    | more q =>
      rw [after?_succ_of_more ht] at h ⊢
      exact ih h (by omega)

/-- Once the text is not unbalanced any more, the expansion comes to an end. -/
private theorem isSome_finish?_of_balanced {p : Progress}
    (h : ∀ n q, p.after? lookup n = some q → ¬ q.unbalances lookup) : (p.finish? lookup).isSome := by
  cases hr : (scan lookup p.text).found with
  | none =>
    obtain ⟨e, he, -⟩ := turn_of_none hr
    rw [finish?_of_last he]
    rfl
  | some found =>
    obtain ⟨r, replacement⟩ := found
    -- By induction on the weight of the next reference.
    have wf : WellFounded (Prod.Lex (· < · : Nat → Nat → Prop) (· < · : Nat → Nat → Prop)) :=
      (Prod.lex Nat.lt_wfRel Nat.lt_wfRel).wf
    induction hw : r.weight using wf.induction generalizing p r replacement with
    | _ w ih =>
      cases ht : p.turn lookup with
      | last e => rw [finish?_of_last ht]; rfl
      | more q =>
        rw [finish?_of_more ht]
        have hq : ∀ n q', q.after? lookup n = some q' → ¬ q'.unbalances lookup :=
          fun n q' hn => h (n + 1) q' (by rw [after?_succ_of_more ht, hn])
        cases hr' : (scan lookup q.text).found with
        | none =>
          obtain ⟨e, he, -⟩ := turn_of_none hr'
          rw [finish?_of_last he]
          rfl
        | some found' =>
          obtain ⟨r', replacement'⟩ := found'
          have hlt := weight_lt_of_turn ht (h 0 p rfl) hr hr'
          exact ih _ (hw ▸ hlt) hq r' replacement' hr' rfl

end Progress

/-- An expansion comes to an end exactly if only finitely many of its replacements unbalance the text. -/
theorem expand?_isSome_iff (lookup : String → Option String) (raw : String) :
    (expand? lookup raw).isSome ↔
      {n | ∃ p, (Progress.start raw).after? lookup n = some p ∧ p.unbalances lookup}.Finite := by
  constructor
  · intro h
    obtain ⟨n, hn⟩ := Progress.isSome_finish?_iff.1 h
    refine (Set.finite_lt_nat n).subset ?_
    rintro m ⟨p, hp, -⟩
    apply Nat.lt_of_not_le
    intro hle
    rw [Progress.after?_eq_none_of_le hn hle] at hp
    nomatch hp
  · intro h
    obtain ⟨bound, hbound⟩ := h.bddAbove
    cases hp : (Progress.start raw).after? lookup (bound + 1) with
    | none => exact Progress.isSome_finish?_iff.2 ⟨_, hp⟩
    | some p =>
      rw [expand?, Progress.finish?_of_after? hp]
      apply Progress.isSome_finish?_of_balanced
      intro n q hq hu
      have hle := hbound ⟨q, (Progress.after?_add hp n).trans hq, hu⟩
      omega

/-! ### An expansion without end -/

namespace Unending

/-- The text `${b}}`. -/
def raw : String := "$\x7bb\x7d\x7d"

/-- The text `${n${:${b}}`, one brace short of a reference. -/
def value : String := "$\x7bn$\x7b:$\x7bb\x7d\x7d"

/-- The map with that value of `b` alone. -/
def entries : Entries := Entries.ofPairs [("b", value)]

private theorem found_value : (scan entries.get? value.toList).found = none := by
  rw [scan_of_none (by decide)]

private theorem found_raw : (scan entries.get? raw.toList).found = some (⟨[], ['b'], ['}']⟩, .value value) :=
  found_of_replaces rfl rfl

private theorem found_closed : (scan entries.get? (value.toList ++ ['}'])).found =
    some (⟨[], value.toList.drop 2, []⟩, .fallback raw.toList) :=
  found_of_replaces rfl ⟨rfl, rfl⟩

/-- The value takes the brace behind the reference that it replaces. -/
private theorem turn_raw {p : Progress} (h : p.text = raw.toList) :
    ∃ q, p.turn entries.get? = .more q ∧ q.text = value.toList ++ ['}'] := by
  have hvalue : ((Replacement.value value).expanded entries.get? maxDepth maxSubstitutions).text = value.toList ∧
      ((Replacement.value value).expanded entries.get? maxDepth maxSubstitutions).truncated = false := by
    obtain ⟨htext, htrunc, -⟩ := @expandValue_of_none entries.get? 31 maxSubstitutions [] _ found_value
    exact ⟨htext, htrunc⟩
  obtain ⟨q, hq, -, htext⟩ := Progress.turn_of_found (h ▸ found_raw) hvalue.2
  exact ⟨q, hq, by rw [htext, hvalue.1]; rfl⟩

/-- Its fallback gives the brace back. -/
private theorem turn_closed {p : Progress} (h : p.text = value.toList ++ ['}']) :
    ∃ q, p.turn entries.get? = .more q ∧ q.text = raw.toList := by
  obtain ⟨q, hq, -, htext⟩ := Progress.turn_of_found (h ▸ found_closed) rfl
  exact ⟨q, hq, htext⟩

private theorem isSome_after? (n : Nat) {p : Progress} (h : p.text = raw.toList ∨ p.text = value.toList ++ ['}']) :
    (p.after? entries.get? n).isSome := by
  induction n generalizing p with
  | zero => rfl
  | succ n ih =>
    rcases h with h | h
    · obtain ⟨q, hq, htext⟩ := turn_raw h
      rw [Progress.after?_succ_of_more hq]
      exact ih (.inr htext)
    · obtain ⟨q, hq, htext⟩ := turn_closed h
      rw [Progress.after?_succ_of_more hq]
      exact ih (.inl htext)

end Unending

/-- The expansion of `${b}}` never comes to an end when `b` is `${n${:${b}}`: the value takes the last brace of the
text for itself, and its fallback is the text again. -/
theorem expand?_eq_none_unending : expand? Unending.entries.get? Unending.raw = none := by
  rw [← Option.not_isSome_iff_eq_none, expand?, Progress.isSome_finish?_iff]
  rintro ⟨n, hn⟩
  have hsome := Unending.isSome_after? n (p := .start Unending.raw) (.inl rfl)
  rw [hn] at hsome
  nomatch hsome

end LayeredConfig.Template
