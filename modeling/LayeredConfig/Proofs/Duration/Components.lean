import LayeredConfig.Proofs.Duration.Spelling
import LayeredConfig.Proofs.Lookup
import LayeredConfig.Proofs.Text.Ascii

/-!
# Periods read

Reading the components of a period gives their sum unless it is too large (`toOption_components`), and nothing else
is read as components (`exists_components`).  So the texts that are read as durations are those that spell one below
2^64 seconds (`toOption_parse`, `exists_spelling`).
-/

namespace LayeredConfig.Duration

open Text (trim)

/-! ### Components -/

section

variable {designators : List (Char × Nat)} (text : String)

/-- Different letters for numbers of nanoseconds, none of them the `T`. -/
structure AreLetters (designators : List (Char × Nat)) : Prop where
  nodup : (designators.map Prod.fst).Nodup
  isAlpha : ∀ p ∈ designators, p.1.isAlpha = true
  ne_timeMark : ∀ p ∈ designators, p.1 ≠ 'T'
  scale : ∀ p ∈ designators, 0 < p.2 ∧ p.2 ≤ day

private theorem components_nil (total : Nat) : components designators text total [] = .ok total := by
  rw [components]
  rfl

/-- Components are read without regard to the case of their letters. -/
private theorem components_of_ne_nil (total : Nat) {cs : List Char} (h : cs ≠ []) :
    components designators text total (cs.map Char.toUpper) =
      match cs.dropWhile fun c => !c.isAlpha with
      | [] => .error (.missingDesignator text)
      | letter :: rest =>
        match designators.lookup letter.toUpper with
        | none => .error (.unexpectedDesignator letter.toUpper text)
        | some scale =>
          match scaledNanos (cs.takeWhile fun c => !c.isAlpha) scale with
          | none => .error (.invalidAmount (String.ofList (cs.takeWhile fun c => !c.isAlpha)) text)
          | some n =>
            if total + n < amountLimit then components designators text (total + n) (rest.map Char.toUpper)
            else .error (.outOfRange text) := by
  have hcase : ((fun c : Char => !c.isAlpha) ∘ Char.toUpper) = fun c => !c.isAlpha := by
    funext c
    exact congrArg not (Text.isAlpha_toUpper c)
  have hnumber : (cs.takeWhile fun c => !c.isAlpha).map Char.toUpper = cs.takeWhile fun c => !c.isAlpha := by
    conv_rhs => rw [← List.map_id (cs.takeWhile fun c => !c.isAlpha)]
    refine List.map_congr_left fun c hc => Text.toUpper_of_not_isAlpha ?_
    simpa using List.mem_takeWhile_imp hc
  have hne : (cs.map Char.toUpper).isEmpty = false := by
    rw [List.isEmpty_eq_false_iff, ne_eq, List.map_eq_nil_iff]
    exact h
  rw [components, hne, if_neg Bool.false_ne_true, List.takeWhile_map, hcase, hnumber]
  dsimp only
  split
  · rename_i hnil
    rw [List.dropWhile_map, hcase, List.map_eq_nil_iff] at hnil
    rw [hnil]
  · rename_i letter rest hcons
    rw [List.dropWhile_map, hcase, List.map_eq_cons_iff] at hcons
    obtain ⟨letter, rest, hcons, rfl, rfl⟩ := hcons
    exact hcons ▸ rfl

/-- A component is read up to the next one, unless it is too large. -/
private theorem components_text_append (hletters : AreLetters designators) (total : Nat) (c : Component designators)
    (rest : List Char) :
    components designators text total ((c.text ++ rest).map Char.toUpper) =
      match inRange c.nanos with
      | none => .error (.invalidAmount (String.ofList c.number) text)
      | some n =>
        if total + n < amountLimit then components designators text (total + n) (rest.map Char.toUpper)
        else .error (.outOfRange text) := by
  have halpha : c.letter.isAlpha = true := by
    rw [← Text.isAlpha_toUpper]
    exact hletters.isAlpha _ c.known
  have hdigits : ∀ d ∈ c.number, (!d.isAlpha) = true := by
    intro d hd
    rcases c.isNumeral.chars d hd with hdigit | rfl
    · rw [Text.not_isAlpha_of_isDigit hdigit]
      rfl
    · rfl
  have hletter : ∀ d ∈ (c.letter :: rest).head?, (!d.isAlpha) = false := by
    intro d hd
    obtain rfl := Option.some.inj hd
    rw [halpha]
    rfl
  obtain ⟨htake, hdrop⟩ := span_append hdigits hletter
  have htext : c.text ++ rest = c.number ++ c.letter :: rest := by
    rw [Component.text, List.append_assoc]
    rfl
  have hne : c.number ++ c.letter :: rest ≠ [] := List.append_ne_nil_of_right_ne_nil _ (List.cons_ne_nil _ _)
  rw [htext, components_of_ne_nil text total hne, htake, hdrop]
  dsimp only
  rw [lookup_eq_some_of_mem hletters.nodup c.known]
  dsimp only
  rw [scaledNanos_of_isNumeral c.isNumeral (hletters.scale _ c.known).1]
  rfl

/-- Components are read as their sum, unless it is too large. -/
theorem toOption_components (hletters : AreLetters designators) {total : Nat} (htotal : total < amountLimit)
    (items : List (Component designators)) :
    (components designators text total ((items.flatMap Component.text).map Char.toUpper)).toOption =
      inRange (total + (items.map Component.nanos).sum) := by
  induction items generalizing total with
  | nil =>
    rw [List.flatMap_nil, List.map_nil, components_nil, List.map_nil, List.sum_nil, Nat.add_zero]
    exact (inRange_eq_some.2 ⟨htotal, rfl⟩).symm
  | cons c items ih =>
    rw [List.flatMap_cons, List.map_cons, List.sum_cons, components_text_append text hletters]
    exact toOption_add (fun total => components designators text total ((items.flatMap Component.text).map _)) ih

/-- Nothing else is read as components. -/
theorem exists_components {text : String} {total n : Nat} {cs : List Char}
    (h : components designators text total (cs.map Char.toUpper) = .ok n) :
    ∃ items : List (Component designators), cs = items.flatMap Component.text := by
  induction hlength : cs.length using Nat.strong_induction_on generalizing cs total with
  | _ length ih =>
    by_cases hne : cs = []
    · exact ⟨[], hne⟩
    rw [components_of_ne_nil _ total hne] at h
    split at h
    · cases h
    · rename_i letter rest hrest
      split at h
      · cases h
      · rename_i scale hlookup
        split at h
        · cases h
        · rename_i m hnumber
          split at h
          · let c : Component designators :=
              { number := cs.takeWhile fun c => !c.isAlpha
                letter
                scale
                isNumeral := isNumeral_of_scaledNanos hnumber
                known := mem_of_lookup hlookup }
            have hcs : cs = c.text ++ rest := by
              rw [Component.text, List.append_assoc, List.singleton_append, ← hrest,
                List.takeWhile_append_dropWhile]
            have hshorter : rest.length < length := by
              have hsum := congrArg List.length hcs
              simp only [Component.text, List.length_append, List.length_singleton] at hsum
              omega
            obtain ⟨items, rfl⟩ := ih _ hshorter h rfl
            exact ⟨c :: items, hcs⟩
          · cases h

end

/-! ### Periods -/

theorem areLetters_date : AreLetters [('D', day)] := ⟨by decide, by decide, by decide, by decide⟩

theorem areLetters_time : AreLetters [('H', hour), ('M', minute), ('S', second)] :=
  ⟨by decide, by decide, by decide, by decide⟩

/-- Among components there is no `T`. -/
private theorem ne_timeMark_of_mem {designators : List (Char × Nat)} (hletters : AreLetters designators)
    (items : List (Component designators)) :
    ∀ c ∈ (items.flatMap Component.text).map Char.toUpper, decide (c ≠ 'T') = true := by
  intro c hc
  rw [decide_eq_true_eq]
  obtain ⟨d, hd, rfl⟩ := List.mem_map.1 hc
  obtain ⟨item, -, hd⟩ := List.mem_flatMap.1 hd
  rcases List.mem_append.1 hd with hd | hd
  · have halpha : d.isAlpha = false := by
      rcases item.isNumeral.chars d hd with hdigit | rfl
      · exact Text.not_isAlpha_of_isDigit hdigit
      · rfl
    rintro hmark
    rw [← Text.isAlpha_toUpper, hmark] at halpha
    cases halpha
  · obtain rfl := List.mem_singleton.1 hd
    exact hletters.ne_timeMark _ item.known

private theorem flatMap_text_ne_nil {designators : List (Char × Nat)} {items : List (Component designators)}
    (h : items ≠ []) : (items.flatMap Component.text).map Char.toUpper ≠ [] := by
  obtain ⟨c, items, rfl⟩ := List.exists_cons_of_ne_nil h
  simp [Component.text]

section

variable (text : String) {date time : List Char} (hdate : ∀ c ∈ date, decide (c ≠ 'T') = true)

include hdate

private theorem isoNanos_of_date (hne : date ≠ []) : isoNanos text date = components [('D', day)] text 0 date := by
  obtain ⟨htake, hdrop⟩ := span_append (b := []) hdate nofun
  rw [List.append_nil] at htake hdrop
  rw [isoNanos, hdrop, htake, List.isEmpty_eq_false_iff.2 hne]
  rfl

private theorem isoNanos_of_time (hne : time ≠ []) :
    isoNanos text (date ++ 'T' :: time) =
      match components [('D', day)] text 0 date with
      | .error e => .error e
      | .ok days =>
        match components [('H', hour), ('M', minute), ('S', second)] text 0 time with
        | .error e => .error e
        | .ok n => if days + n < amountLimit then .ok (days + n) else .error (.outOfRange text) := by
  have hmark : ∀ c ∈ ('T' :: time).head?, decide (c ≠ 'T') = false := by
    intro c hc
    obtain rfl := Option.some.inj hc
    rfl
  obtain ⟨htake, hdrop⟩ := span_append hdate hmark
  rw [isoNanos, hdrop, htake]
  dsimp only
  rw [List.isEmpty_eq_false_iff.2 hne, Bool.and_false, if_neg Bool.false_ne_true]
  rfl

end

private theorem Period.body_of_time {p : Period} (h : p.time ≠ []) :
    p.body = p.date.flatMap Component.text ++ p.timeMark :: p.time.flatMap Component.text := by
  rw [Period.body, List.isEmpty_eq_false_iff.2 h, if_neg Bool.false_ne_true]

/-- A period is read as the sum of its components, unless it is too large. -/
private theorem toOption_isoNanos (text : String) (p : Period) :
    (isoNanos text (p.body.map Char.toUpper)).toOption = inRange p.nanos := by
  have hlimit : 0 < amountLimit := by decide
  have hdate := toOption_components text areLetters_date hlimit p.date
  have htime := toOption_components text areLetters_time hlimit p.time
  rw [Nat.zero_add] at hdate htime
  have hmark : p.timeMark.toUpper = 'T' := by
    rcases p.isTimeMark with h | h
    · rw [h]
      rfl
    · rw [h]
      rfl
  unfold Period.nanos
  by_cases hempty : p.time = []
  · have hne : p.date ≠ [] := p.ne_nil.resolve_right (not_not_intro hempty)
    rw [Period.body, hempty, List.isEmpty_nil, if_pos rfl, List.append_nil, List.map_nil, List.sum_nil, Nat.add_zero,
      isoNanos_of_date text (ne_timeMark_of_mem areLetters_date p.date) (flatMap_text_ne_nil hne)]
    exact hdate
  · rw [Period.body_of_time hempty, List.map_append, List.map_cons, hmark,
      isoNanos_of_time text (ne_timeMark_of_mem areLetters_date p.date) (flatMap_text_ne_nil hempty)]
    cases hdays : components [('D', day)] text 0 ((p.date.flatMap Component.text).map Char.toUpper) with
    | error e =>
      have hlarge := inRange_eq_none.1 (hdate.symm.trans (congrArg Except.toOption hdays))
      exact (inRange_eq_none.2 (by omega)).symm
    | ok days =>
      obtain ⟨-, hdays⟩ := inRange_eq_some.1 (hdate.symm.trans (congrArg Except.toOption hdays))
      dsimp only
      cases hnanos : components [('H', hour), ('M', minute), ('S', second)] text 0
          ((p.time.flatMap Component.text).map Char.toUpper) with
      | error e =>
        have hlarge := inRange_eq_none.1 (htime.symm.trans (congrArg Except.toOption hnanos))
        exact (inRange_eq_none.2 (by omega)).symm
      | ok n =>
        obtain ⟨-, hnanos⟩ := inRange_eq_some.1 (htime.symm.trans (congrArg Except.toOption hnanos))
        dsimp only
        rw [hdays, hnanos, inRange]
        split
        · rfl
        · rfl

/-- Nothing else is read as a period. -/
private theorem exists_period {text : String} {mark : Char} (hmark : mark = 'P' ∨ mark = 'p') {body : List Char}
    {n : Nat} (h : isoNanos text (body.map Char.toUpper) = .ok n) : ∃ p : Period, p.text = mark :: body := by
  unfold isoNanos at h
  rw [List.takeWhile_map, List.dropWhile_map] at h
  have hbody := List.takeWhile_append_dropWhile (p := (fun c => decide (c ≠ 'T')) ∘ Char.toUpper) (l := body)
  have hstop := List.head?_dropWhile_not ((fun c => decide (c ≠ 'T')) ∘ Char.toUpper) body
  generalize body.takeWhile ((fun c => decide (c ≠ 'T')) ∘ Char.toUpper) = date at h hbody
  generalize body.dropWhile ((fun c => decide (c ≠ 'T')) ∘ Char.toUpper) = rest at h hbody hstop
  subst hbody
  cases rest with
  | nil =>
    rw [List.map_nil] at h
    dsimp only at h
    split at h
    · cases h
    · rename_i hempty
      obtain ⟨items, rfl⟩ := exists_components h
      have hne : items ≠ [] := by
        rintro rfl
        exact hempty rfl
      exact ⟨⟨mark, items, 'T', [], hmark, .inl rfl, .inl hne⟩, rfl⟩
  | cons timeMark time =>
    have htimeMark : timeMark.toUpper = 'T' := by simpa using hstop
    rw [List.map_cons] at h
    dsimp only at h
    split at h
    · cases h
    · split at h
      · cases h
      · rename_i days hdate
        split at h
        · cases h
        · rename_i hempty
          split at h
          · cases h
          · rename_i nanos htime
            obtain ⟨dateItems, rfl⟩ := exists_components hdate
            obtain ⟨timeItems, rfl⟩ := exists_components htime
            have hne : timeItems ≠ [] := by
              rintro rfl
              exact hempty rfl
            have hmark' := Text.eq_or_eq_of_toUpper htimeMark
            let p : Period := ⟨mark, dateItems, timeMark, timeItems, hmark, hmark', .inr hne⟩
            exact ⟨p, congrArg (mark :: ·) (Period.body_of_time (p := p) hne)⟩

/-! ### Whole texts -/

theorem ofNanos?_eq_none {n : Nat} : ofNanos? n = none ↔ 2 ^ (64 : Nat) * second ≤ n := by
  unfold ofNanos?
  split
  · rename_i h
    rw [Nat.div_lt_iff_lt_mul (by decide)] at h
    simpa using h
  · rename_i h
    rw [Nat.div_lt_iff_lt_mul (by decide)] at h
    simpa using h

theorem totalNanos_of_ofNanos? {n : Nat} {d : Duration} (h : ofNanos? n = some d) : d.totalNanos = n := by
  unfold ofNanos? at h
  split at h
  · obtain rfl := Option.some.inj h
    exact Nat.div_add_mod' n second
  · cases h

/-- What is too large for an amount is too large for a duration. -/
private theorem inRange_bind_ofNanos? (n : Nat) : (inRange n).bind ofNanos? = ofNanos? n := by
  cases hn : inRange n with
  | none =>
    have hlimit : 2 ^ (64 : Nat) * second ≤ amountLimit := by decide
    exact (ofNanos?_eq_none.2 (Nat.le_trans hlimit (inRange_eq_none.1 hn))).symm
  | some m =>
    obtain ⟨-, rfl⟩ := inRange_eq_some.1 hn
    rfl

/-- A spelled duration is read as the sum of its items, if this is below 2^64 seconds. -/
theorem toOption_parse {raw : String} (s : Spelling) (h : s.text = trim raw.toList) :
    (parse raw).toOption = ofNanos? s.nanos := by
  obtain ⟨c, body, htext, hnanos⟩ : ∃ c body, s.text = c :: body ∧
      (if c = 'P' ∨ c = 'p' then isoNanos (String.ofList (c :: body)) (body.map Char.toUpper)
        else unitAmounts (String.ofList (c :: body)) 0 (c :: body)).toOption = inRange s.nanos := by
    cases s with
    | amounts first rest =>
      obtain ⟨c, body, hcons, hnumber⟩ := first.exists_cons (rest.flatMap Amount.text)
      have hmark : ¬ (c = 'P' ∨ c = 'p') := by
        rintro (rfl | rfl)
        · cases hnumber
        · cases hnumber
      have hamounts := toOption_unitAmounts (String.ofList (c :: body)) (by decide : 0 < amountLimit) (first :: rest)
      rw [List.flatMap_cons, hcons, Nat.zero_add] at hamounts
      exact ⟨c, body, hcons, by rwa [if_neg hmark]⟩
    | period p => exact ⟨p.mark, p.body, rfl, by rw [if_pos p.isMark]; exact toOption_isoNanos _ p⟩
  unfold parse
  rw [← h, htext, ← inRange_bind_ofNanos?, ← hnanos]
  dsimp only
  cases if c = 'P' ∨ c = 'p' then isoNanos (String.ofList (c :: body)) (body.map Char.toUpper)
    else unitAmounts (String.ofList (c :: body)) 0 (c :: body) with
  | error e => rfl
  | ok n =>
    dsimp only [Except.bind, Except.toOption, Option.bind_some]
    cases ofNanos? n with
    | none => rfl
    | some d => rfl

/-- Nothing else is read. -/
theorem exists_spelling {raw : String} {d : Duration} (h : parse raw = .ok d) :
    ∃ s : Spelling, s.text = trim raw.toList := by
  unfold parse at h
  dsimp only at h
  cases hcs : trim raw.toList with
  | nil =>
    rw [hcs] at h
    cases h
  | cons c body =>
    rw [hcs] at h
    dsimp only at h
    split at h
    · rename_i hmark
      cases hnanos : isoNanos (String.ofList (c :: body)) (body.map Char.toUpper) with
      | error e =>
        rw [hnanos] at h
        cases h
      | ok n =>
        obtain ⟨p, hp⟩ := exists_period hmark hnanos
        exact ⟨.period p, hp⟩
    · cases hnanos : unitAmounts (String.ofList (c :: body)) 0 (c :: body) with
      | error e =>
        rw [hnanos] at h
        cases h
      | ok n =>
        obtain ⟨items, hitems⟩ := exists_amounts hnanos
        cases items with
        | nil => cases hitems
        | cons first rest => exact ⟨.amounts first rest, hitems.symm⟩

end LayeredConfig.Duration
