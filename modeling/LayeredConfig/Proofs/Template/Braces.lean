import LayeredConfig.Template

/-!
# Counting braces

`excess` counts the closing braces of a text that no opening before them matches.  It is what a text can lend to
openings that stand in front of it: a reference that closes in the text takes one away for each opening that was
still open (`excess_of_splitClose`), and putting texts together never makes more of them than the parts have
(`excess_append_le`).
-/

namespace LayeredConfig.Template

/-- The closing braces of a text that match neither one of `depth` earlier openings nor one of its own. -/
def excess (depth : Nat) : List Char → Nat
  | [] => 0
  | '$' :: '{' :: cs => excess (depth + 1) cs
  | c :: cs =>
    if c = '}' then
      match depth with
      | 0 => excess 0 cs + 1
      | depth + 1 => excess depth cs
    else excess depth cs

/-- Whether the end of one text and the start of the next make an opening together. -/
def joins (a b : List Char) : Prop := a.getLast? = some '$' ∧ b.head? = some '{'

instance (a b : List Char) : Decidable (joins a b) := inferInstanceAs (Decidable (_ ∧ _))

/-- A character opens a reference only together with the brace after it. -/
private theorem eq_of_opens {c : Char} {cs : List Char} (h : ¬ joins [c] cs) :
    ∀ cs', c = '$' → cs = '{' :: cs' → False := by
  rintro cs' rfl rfl
  exact h ⟨rfl, rfl⟩

theorem splitOpen_cons {c : Char} {cs : List Char} (h : ¬ joins [c] cs) :
    splitOpen (c :: cs) = (splitOpen cs).map fun p => (c :: p.1, p.2) :=
  splitOpen.eq_3 c cs (eq_of_opens h)

theorem splitClose_cons {depth : Nat} {c : Char} {cs : List Char} (h : ¬ joins [c] cs) (hc : c ≠ '}') :
    splitClose depth (c :: cs) = (splitClose depth cs).map fun p => (c :: p.1, p.2) := by
  cases depth with
  | zero => rw [splitClose.eq_3 c cs (eq_of_opens h), if_neg hc]
  | succ depth => rw [splitClose.eq_4 c cs depth (eq_of_opens h), if_neg hc]

private theorem excess_cons {depth : Nat} {c : Char} {cs : List Char} (h : ¬ joins [c] cs) (hc : c ≠ '}') :
    excess depth (c :: cs) = excess depth cs := by
  cases depth with
  | zero => rw [excess.eq_3 c cs (eq_of_opens h), if_neg hc]
  | succ depth => rw [excess.eq_4 c cs depth (eq_of_opens h), if_neg hc]

@[simp] theorem excess_open (depth : Nat) (cs : List Char) :
    excess depth ('$' :: '{' :: cs) = excess (depth + 1) cs := excess.eq_2 depth cs

@[simp] theorem excess_close_zero (cs : List Char) : excess 0 ('}' :: cs) = excess 0 cs + 1 := by
  simp [excess]

@[simp] theorem excess_close_succ (depth : Nat) (cs : List Char) :
    excess (depth + 1) ('}' :: cs) = excess depth cs := by
  simp [excess]

private theorem excess_succ_le (depth : Nat) (cs : List Char) : excess (depth + 1) cs ≤ excess depth cs := by
  fun_induction excess depth cs with
  | case1 => simp [excess]
  | case2 depth cs ih => simpa using ih
  | case3 cs hne => simp
  | case4 cs hne depth ih => simpa using ih
  | case5 depth c cs hne hc ih => simpa [excess, hc] using ih

theorem excess_zero_le (depth : Nat) (cs : List Char) : excess depth cs ≤ excess 0 cs := by
  induction depth with
  | zero => exact Nat.le_refl _
  | succ depth ih => exact Nat.le_trans (excess_succ_le depth cs) ih

private theorem not_joins_append {c d : Char} {cs : List Char}
    (h : ∀ cs', c = '$' → d :: cs = '{' :: cs' → False) (b : List Char) : ¬ joins [c] (d :: cs ++ b) := by
  rintro ⟨hc, hd⟩
  simp only [List.getLast?_singleton, Option.some.injEq, List.cons_append, List.head?_cons] at hc hd
  exact h cs hc (by rw [hd])

/-- An opening that two texts make together takes its brace from the second one. -/
private theorem eq_of_joins {c : Char} {b : List Char} (h : joins [c] b) : c = '$' ∧ ∃ b', b = '{' :: b' := by
  obtain ⟨hc, hb⟩ := h
  refine ⟨by simpa using hc, ?_⟩
  cases b with
  | nil => simp at hb
  | cons d b => exact ⟨b, by simpa using hb⟩

theorem excess_brace (depth : Nat) (b : List Char) : excess depth ('{' :: b) = excess depth b :=
  excess_cons (by simp [joins]) (by decide)

/-- Texts that are put together have no more unmatched braces than they have on their own. -/
theorem excess_append_le (depth : Nat) (a b : List Char) : excess depth (a ++ b) ≤ excess depth a + excess 0 b := by
  fun_induction excess depth a with
  | case1 depth => simpa using excess_zero_le depth b
  | case2 depth cs ih => simpa using ih
  | case3 cs hne ih =>
    rw [List.cons_append, excess_close_zero]
    omega
  | case4 cs depth hne ih => simpa using ih
  | case5 depth c cs hne hc ih =>
    by_cases hj : joins [c] (cs ++ b)
    · cases cs with
      | nil =>
        obtain ⟨rfl, b, rfl⟩ := eq_of_joins hj
        have := excess_zero_le (depth + 1) b
        rw [List.singleton_append, excess_open, excess_brace]
        omega
      | cons d cs => exact absurd hj (not_joins_append hne b)
    · rw [List.cons_append, excess_cons hj hc]
      exact ih

/-- The part of a text after its first opening lends an opening no more than the whole text has. -/
theorem excess_le_of_splitOpen {text before after : List Char} (h : splitOpen text = some (before, after))
    (depth : Nat) : excess (depth + 1) after ≤ excess depth text := by
  fun_induction splitOpen text generalizing before depth with
  | case1 => simp at h
  | case2 cs =>
    obtain ⟨rfl, rfl⟩ := Prod.mk.inj (Option.some.inj h)
    exact Nat.le_of_eq (excess_open depth _).symm
  | case3 c cs hne ih =>
    obtain ⟨p, hp, heq⟩ := Option.map_eq_some_iff.1 h
    obtain ⟨rfl, rfl⟩ := Prod.mk.inj heq
    have hle := ih hp
    by_cases hc : c = '}'
    · subst hc
      cases depth with
      | zero =>
        have := hle 0
        rw [excess_close_zero]
        omega
      | succ depth =>
        rw [excess_close_succ]
        exact Nat.le_trans (excess_succ_le _ _) (hle depth)
    · rw [excess_cons (fun hj => ?_) hc]
      · exact hle depth
      · obtain ⟨rfl, cs, rfl⟩ := eq_of_joins hj
        exact hne cs rfl rfl

/-- Closing a reference with `depth` inner openings takes one brace for each of them and one for itself. -/
theorem excess_of_splitClose {depth : Nat} {text body rest : List Char}
    (h : splitClose depth text = some (body, rest)) {k : Nat} (hk : k ≤ depth + 1) :
    excess k text = excess 0 rest + (depth + 1 - k) := by
  fun_induction splitClose depth text generalizing body k with
  | case1 => simp at h
  | case2 depth cs ih =>
    obtain ⟨p, hp, heq⟩ := Option.map_eq_some_iff.1 h
    obtain ⟨rfl, rfl⟩ := Prod.mk.inj heq
    rw [excess_open, ih hp (by omega)]
    omega
  | case3 cs =>
    obtain ⟨rfl, rfl⟩ := Prod.mk.inj (Option.some.inj h)
    -- The brace that closes the reference is unmatched, unless it closes the one opening that was left.
    obtain rfl | rfl : k = 0 ∨ k = 1 := by omega
    · rw [excess_close_zero]
    · rw [excess_close_succ]
      rfl
  | case4 cs depth hne ih =>
    obtain ⟨p, hp, heq⟩ := Option.map_eq_some_iff.1 h
    obtain ⟨rfl, rfl⟩ := Prod.mk.inj heq
    cases k with
    | zero =>
      rw [excess_close_zero, ih hp (Nat.zero_le _)]
      omega
    | succ k =>
      rw [excess_close_succ, ih hp (by omega)]
      omega
  | case5 depth c cs hne hc ih =>
    obtain ⟨p, hp, heq⟩ := Option.map_eq_some_iff.1 h
    obtain ⟨rfl, rfl⟩ := Prod.mk.inj heq
    rw [excess_cons (fun hj => ?_) hc]
    · exact ih hp hk
    · obtain ⟨rfl, cs, rfl⟩ := eq_of_joins hj
      exact hne cs rfl rfl

/-! ### Splitting a text that goes on -/

/-- The first opening stays the first one whatever comes after it. -/
theorem splitOpen_of_splitOpen {text before after : List Char} (h : splitOpen text = some (before, after))
    (more : List Char) : splitOpen (before ++ '$' :: '{' :: more) = some (before, more) := by
  fun_induction splitOpen text generalizing before with
  | case1 => simp at h
  | case2 cs =>
    obtain ⟨rfl, rfl⟩ := Prod.mk.inj (Option.some.inj h)
    rfl
  | case3 c cs hne ih =>
    obtain ⟨⟨before, after⟩, hp, heq⟩ := Option.map_eq_some_iff.1 h
    obtain ⟨rfl, rfl⟩ := Prod.mk.inj heq
    have hc : ¬ joins [c] (before ++ '$' :: '{' :: more) := by
      intro hj
      obtain ⟨rfl, cs', hcs'⟩ := eq_of_joins hj
      cases before with
      | nil => simp at hcs'
      | cons d before =>
        obtain ⟨rfl, -⟩ := List.cons.inj hcs'
        rw [splitOpen_eq_some hp] at hne
        exact hne _ rfl rfl
    rw [List.cons_append, splitOpen_cons hc, ih hp, Option.map_some]

theorem splitOpen_append_of_some {text before after : List Char} (h : splitOpen text = some (before, after))
    (more : List Char) : splitOpen (text ++ more) = some (before, after ++ more) := by
  rw [splitOpen_eq_some h, List.append_assoc]
  exact splitOpen_of_splitOpen h (after ++ more)

theorem splitOpen_eq_none_of_append {text more : List Char} (h : splitOpen (text ++ more) = none) :
    splitOpen text = none := by
  cases ho : splitOpen text with
  | none => rfl
  | some opened => simp [splitOpen_append_of_some ho more] at h

theorem splitOpen_before {text before after : List Char} (h : splitOpen text = some (before, after)) :
    splitOpen before = none := by
  cases ho : splitOpen before with
  | none => rfl
  | some opened =>
    obtain ⟨start, rest⟩ := opened
    have hsome := splitOpen_append_of_some ho ('$' :: '{' :: after)
    rw [← splitOpen_eq_some h, h] at hsome
    obtain ⟨rfl, -⟩ := Prod.mk.inj (Option.some.inj hsome)
    have hlen := congrArg List.length (splitOpen_eq_some ho)
    simp at hlen

/-- Without an opening in the first text or across the border, the first opening is that of the second text. -/
theorem splitOpen_append_of_none {text : List Char} (h : splitOpen text = none) {more : List Char}
    (hj : ¬ joins text more) :
    splitOpen (text ++ more) = (splitOpen more).map fun p => (text ++ p.1, p.2) := by
  induction text with
  | nil => simp
  | cons c cs ih =>
    have hc : ¬ joins [c] cs := by
      intro hc
      obtain ⟨rfl, cs, rfl⟩ := eq_of_joins hc
      simp [splitOpen] at h
    have hcs : splitOpen cs = none := by simpa [splitOpen_cons hc] using h
    cases cs with
    | nil => rw [List.singleton_append, splitOpen_cons hj]; simp
    | cons d cs =>
      have hd : ¬ joins [c] (d :: cs ++ more) := by simpa [joins] using hc
      rw [List.cons_append, splitOpen_cons hd, ih hcs (by simpa [joins] using hj), Option.map_map]
      rfl

/-- The brace that closes a reference does so whatever comes after it. -/
theorem splitClose_of_splitClose {depth : Nat} {text body rest : List Char}
    (h : splitClose depth text = some (body, rest)) (more : List Char) :
    splitClose depth (body ++ '}' :: more) = some (body, more) := by
  fun_induction splitClose depth text generalizing body with
  | case1 => simp at h
  | case2 depth cs ih =>
    obtain ⟨p, hp, heq⟩ := Option.map_eq_some_iff.1 h
    obtain ⟨rfl, rfl⟩ := Prod.mk.inj heq
    simp [splitClose, ih hp]
  | case3 cs =>
    obtain ⟨rfl, rfl⟩ := Prod.mk.inj (Option.some.inj h)
    simp [splitClose]
  | case4 cs depth hne ih =>
    obtain ⟨p, hp, heq⟩ := Option.map_eq_some_iff.1 h
    obtain ⟨rfl, rfl⟩ := Prod.mk.inj heq
    simp [splitClose, ih hp]
  | case5 depth c cs hne hc ih =>
    obtain ⟨⟨body, rest⟩, hp, heq⟩ := Option.map_eq_some_iff.1 h
    obtain ⟨rfl, rfl⟩ := Prod.mk.inj heq
    have hj : ¬ joins [c] (body ++ '}' :: more) := by
      intro hj
      obtain ⟨rfl, cs', hcs'⟩ := eq_of_joins hj
      cases body with
      | nil => simp at hcs'
      | cons d body =>
        obtain ⟨rfl, -⟩ := List.cons.inj hcs'
        rw [splitClose_eq_some hp] at hne
        exact hne _ rfl rfl
    rw [List.cons_append, splitClose_cons hj hc, ih hp, Option.map_some]

theorem splitClose_append_of_some {depth : Nat} {text body rest : List Char}
    (h : splitClose depth text = some (body, rest)) (more : List Char) :
    splitClose depth (text ++ more) = some (body, rest ++ more) := by
  rw [splitClose_eq_some h, List.append_assoc]
  exact splitClose_of_splitClose h (rest ++ more)

/-- What closes a reference that a text leaves open is taken from the text after it. -/
theorem excess_lt_of_splitClose_append {depth : Nat} {text : List Char} (h : splitClose depth text = none)
    {more body rest : List Char} (hm : splitClose depth (text ++ more) = some (body, rest)) :
    excess 0 rest < excess 0 more := by
  fun_induction splitClose depth text generalizing body with
  | case1 =>
    rw [List.nil_append] at hm
    have := excess_of_splitClose hm (Nat.zero_le _)
    omega
  | case2 depth cs ih =>
    obtain ⟨p, hp, heq⟩ := Option.map_eq_some_iff.1 hm
    obtain ⟨rfl, rfl⟩ := Prod.mk.inj heq
    exact ih (by simpa using h) hp
  | case3 cs => simp at h
  | case4 cs depth hne ih =>
    rw [List.cons_append, splitClose.eq_4 _ _ _ (by simp), if_pos rfl] at hm
    obtain ⟨p, hp, heq⟩ := Option.map_eq_some_iff.1 hm
    obtain ⟨rfl, rfl⟩ := Prod.mk.inj heq
    exact ih (by simpa using h) hp
  | case5 depth c cs hne hc ih =>
    -- Only the last character of the text can make an opening with the text after it.
    by_cases hj : joins [c] (cs ++ more)
    · cases cs with
      | nil =>
        obtain ⟨rfl, more, rfl⟩ := eq_of_joins hj
        obtain ⟨p, hp, heq⟩ := Option.map_eq_some_iff.1 hm
        obtain ⟨rfl, rfl⟩ := Prod.mk.inj heq
        have := excess_of_splitClose hp (Nat.zero_le _)
        rw [excess_brace]
        omega
      | cons d cs => exact absurd hj (not_joins_append hne more)
    · rw [List.cons_append, splitClose_cons hj hc] at hm
      obtain ⟨p, hp, heq⟩ := Option.map_eq_some_iff.1 hm
      obtain ⟨rfl, rfl⟩ := Prod.mk.inj heq
      exact ih (by simpa using h) hp

end LayeredConfig.Template
