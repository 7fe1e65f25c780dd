import LayeredConfig.Proofs.Duration.Numeral
import LayeredConfig.Proofs.Duration.Rendering
import Mathlib.Algebra.Ring.Nat

/-!
# How durations are written

A duration is written as amounts with units one after the other, or as a period with components before and after a
`T` (`Spelling`).  What it stands for is the sum of its items, without a bound.

Reading amounts one after the other gives their sum unless it is too large (`toOption_unitAmounts`), and nothing else
is read as amounts (`exists_amounts`).
-/

namespace LayeredConfig.Duration

open Text (isBlank trimStart trim)

/-- The units of amounts, in nanoseconds. -/
def units : List (List Char × Nat) :=
  [(['n', 's'], 1), (['u', 's'], 1000), (['µ', 's'], 1000), (['m', 's'], 1000000), (['s'], second), (['m'], minute),
    (['h'], hour), (['d'], day)]

/-- An amount with its unit, and the blanks between and behind them. -/
structure Amount where
  number : List Char
  gap : List Char
  unit : List Char
  scale : Nat
  after : List Char
  isNumeral : IsNumeral number
  known : (unit, scale) ∈ units
  blankGap : ∀ c ∈ gap, isBlank c = true
  blankAfter : ∀ c ∈ after, isBlank c = true

/-- A number with the letter behind it, in either case, that says what it counts. -/
structure Component (designators : List (Char × Nat)) where
  number : List Char
  letter : Char
  scale : Nat
  isNumeral : IsNumeral number
  known : (letter.toUpper, scale) ∈ designators

/-- Components behind a `P`, those of a time of day behind a `T`, letters in either case. -/
structure Period where
  mark : Char
  date : List (Component [('D', day)])
  timeMark : Char
  time : List (Component [('H', hour), ('M', minute), ('S', second)])
  isMark : mark = 'P' ∨ mark = 'p'
  isTimeMark : timeMark = 'T' ∨ timeMark = 't'
  ne_nil : date ≠ [] ∨ time ≠ []

/-- A way to write a duration. -/
inductive Spelling where
  | amounts (first : Amount) (rest : List Amount)
  | period (p : Period)

section

variable {designators : List (Char × Nat)}

def Amount.text (a : Amount) : List Char := a.number ++ (a.gap ++ (a.unit ++ a.after))

def Amount.nanos (a : Amount) : Nat := nanosOf a.number a.scale

def Component.text (c : Component designators) : List Char := c.number ++ [c.letter]

def Component.nanos (c : Component designators) : Nat := nanosOf c.number c.scale

/-- What follows the mark.  The `T` is only written in front of components. -/
def Period.body (p : Period) : List Char :=
  p.date.flatMap Component.text ++ if p.time.isEmpty then [] else p.timeMark :: p.time.flatMap Component.text

def Period.text (p : Period) : List Char := p.mark :: p.body

def Period.nanos (p : Period) : Nat := (p.date.map Component.nanos).sum + (p.time.map Component.nanos).sum

namespace Spelling

/-- The text of a duration. -/
def text : Spelling → List Char
  | amounts first rest => (first :: rest).flatMap Amount.text
  | period p => p.text

/-- What a duration stands for, without a bound. -/
def nanos : Spelling → Nat
  | amounts first rest => ((first :: rest).map Amount.nanos).sum
  | period p => p.nanos

end Spelling

end

/-! ### One amount -/

/-- A run of characters ends where the text after it starts with another one. -/
theorem span_append {p : Char → Bool} {a b : List Char} (ha : ∀ c ∈ a, p c = true) (hb : ∀ c ∈ b.head?, p c = false) :
    (a ++ b).takeWhile p = a ∧ (a ++ b).dropWhile p = b := by
  rw [List.takeWhile_append_of_pos ha, List.dropWhile_append_of_pos ha]
  cases b with
  | nil => exact ⟨List.append_nil a, rfl⟩
  | cons c b =>
    have hc : ¬ p c = true := Bool.eq_false_iff.1 (hb c rfl)
    rw [List.takeWhile_cons_of_neg hc, List.dropWhile_cons_of_neg hc, List.append_nil]
    exact ⟨rfl, rfl⟩

theorem unitNanos?_eq_some {unit : List Char} {scale : Nat} : unitNanos? unit = some scale ↔ (unit, scale) ∈ units := by
  simp only [units, List.mem_cons, Prod.mk.injEq, List.not_mem_nil, or_false]
  constructor
  · intro h
    unfold unitNanos? at h
    split_ifs at h with hns hus hms hs hm hh hd
    all_goals obtain rfl := Option.some.inj h
    · simp [hns]
    · rcases hus with rfl | rfl <;> simp
    · simp [hms]
    · simp [hs]
    · simp [hm]
    · simp [hh]
    · simp [hd]
  · intro h
    rcases h with ⟨rfl, rfl⟩ | ⟨rfl, rfl⟩ | ⟨rfl, rfl⟩ | ⟨rfl, rfl⟩ | ⟨rfl, rfl⟩ | ⟨rfl, rfl⟩ | ⟨rfl, rfl⟩ | ⟨rfl, rfl⟩
    all_goals rfl

/-- The name of a unit holds no blank and nothing of a number. -/
theorem units_spec : ∀ p ∈ units, p.1 ≠ [] ∧ 0 < p.2 ∧ p.2 ≤ day ∧
    ∀ c ∈ p.1, isNumberChar c = false ∧ isBlank c = false := by
  have hcheck : units.all (fun p => !p.1.isEmpty && 0 < p.2 && p.2 ≤ day &&
      p.1.all fun c => !isNumberChar c && !isBlank c) = true := by decide
  intro p hp
  have hunit := List.all_eq_true.1 hcheck p hp
  simp only [Bool.and_eq_true, Bool.not_eq_true', List.isEmpty_eq_false_iff, decide_eq_true_eq, List.all_eq_true,
    and_assoc] at hunit
  exact hunit

private theorem not_isBlank_of_isNumberChar {c : Char} (h : isNumberChar c = true) : isBlank c = false := by
  rw [isNumberChar, Bool.or_eq_true, beq_iff_eq] at h
  rcases h with h | rfl
  · exact isBlank_of_isDigit h
  · rfl

private theorem not_isNumberChar_of_isBlank {c : Char} (h : isBlank c = true) : isNumberChar c = false := by
  cases hc : isNumberChar c with
  | false => rfl
  | true => rw [not_isBlank_of_isNumberChar hc] at h; cases h

private theorem IsNumeral.isNumberChar {number : List Char} (h : IsNumeral number) :
    ∀ c ∈ number, isNumberChar c = true := by
  intro c hc
  rw [Duration.isNumberChar, Bool.or_eq_true, beq_iff_eq]
  exact h.chars c hc

/-- An amount starts with its number. -/
theorem Amount.exists_cons (a : Amount) (rest : List Char) :
    ∃ c cs, a.text ++ rest = c :: cs ∧ isNumberChar c = true := by
  obtain ⟨d, hd, -⟩ := a.isNumeral.someDigit
  cases hnumber : a.number with
  | nil =>
    rw [hnumber] at hd
    cases hd
  | cons c cs =>
    refine ⟨c, cs ++ (a.gap ++ (a.unit ++ a.after)) ++ rest, ?_, a.isNumeral.isNumberChar c ?_⟩
    · rw [Amount.text, hnumber]
      rfl
    · rw [hnumber]
      exact List.mem_cons_self

/-- A text starts with what starts its first part, or its second one. -/
private theorem forall_head?_append {p : Char → Prop} {a b : List Char} (ha : ∀ c ∈ a, p c) (hb : ∀ c ∈ b.head?, p c) :
    ∀ c ∈ (a ++ b).head?, p c := by
  cases a with
  | nil => exact hb
  | cons d a =>
    intro c hc
    obtain rfl := Option.some.inj hc
    exact ha d List.mem_cons_self

/-- An amount is read up to the next one, unless it is too large. -/
private theorem unitAmount_text_append (text : String) (a : Amount) {rest : List Char}
    (hrest : ∀ c ∈ rest.head?, isNumberChar c = true) :
    unitAmount text (a.text ++ rest) =
      match inRange a.nanos with
      | none => .error (.invalidAmount (String.ofList a.number) text)
      | some n => .ok (n, rest) := by
  obtain ⟨hunit, hscale, -, hletters⟩ := units_spec _ a.known
  dsimp only at hunit hletters
  have hunitHead (more : List Char) :
      ∀ c ∈ (a.unit ++ more).head?, isNumberChar c = false ∧ isBlank c = false := by
    intro c hc
    rw [List.head?_append_of_ne_nil _ hunit] at hc
    exact hletters c (List.mem_of_mem_head? hc)
  have hgapHead : ∀ c ∈ (a.gap ++ (a.unit ++ (a.after ++ rest))).head?, isNumberChar c = false :=
    forall_head?_append (fun c hc => not_isNumberChar_of_isBlank (a.blankGap c hc)) fun c hc => (hunitHead _ c hc).1
  have hafterHead : ∀ c ∈ (a.after ++ rest).head?, (!(isNumberChar c || isBlank c)) = false :=
    forall_head?_append (fun c hc => by simp [a.blankAfter c hc]) fun c hc => by simp [hrest c hc]
  have hunitChars : ∀ c ∈ a.unit, (!(isNumberChar c || isBlank c)) = true := by
    intro c hc
    obtain ⟨hnumber, hblank⟩ := hletters c hc
    rw [hnumber, hblank]
    rfl
  have htext : a.text ++ rest = a.number ++ (a.gap ++ (a.unit ++ (a.after ++ rest))) := by
    simp only [Amount.text, List.append_assoc]
  obtain ⟨htake, hdrop⟩ := span_append a.isNumeral.isNumberChar hgapHead
  obtain ⟨htakeUnit, hdropUnit⟩ := span_append hunitChars hafterHead
  have htrim : trimStart (a.gap ++ (a.unit ++ (a.after ++ rest))) = a.unit ++ (a.after ++ rest) :=
    Text.trimStart_append_of_blank a.blankGap fun c hc => (hunitHead _ c hc).2
  have htrimAfter : trimStart (a.after ++ rest) = rest :=
    Text.trimStart_append_of_blank a.blankAfter fun c hc => not_isBlank_of_isNumberChar (hrest c hc)
  unfold unitAmount
  dsimp only
  rw [htext, htake, hdrop, htrim, htakeUnit, hdropUnit, htrimAfter, unitNanos?_eq_some.2 a.known]
  dsimp only
  rw [scaledNanos_of_isNumeral a.isNumeral hscale]
  rfl

/-- Nothing else is read as an amount. -/
private theorem exists_amount {text : String} {cs rest : List Char} {n : Nat} (h : unitAmount text cs = .ok (n, rest)) :
    ∃ a : Amount, cs = a.text ++ rest := by
  unfold unitAmount at h
  dsimp only at h
  split at h
  · cases h
  · rename_i scale hunit
    split at h
    · cases h
    · rename_i m hnumber
      obtain ⟨-, rfl⟩ := Prod.mk.inj (Except.ok.inj h)
      let tail := trimStart (cs.dropWhile isNumberChar)
      let a : Amount :=
        { number := cs.takeWhile isNumberChar
          gap := (cs.dropWhile isNumberChar).takeWhile isBlank
          unit := tail.takeWhile fun c => !(isNumberChar c || isBlank c)
          scale
          after := (tail.dropWhile fun c => !(isNumberChar c || isBlank c)).takeWhile isBlank
          isNumeral := isNumeral_of_scaledNanos hnumber
          known := unitNanos?_eq_some.1 hunit
          blankGap := fun c hc => List.mem_takeWhile_imp hc
          blankAfter := fun c hc => List.mem_takeWhile_imp hc }
      refine ⟨a, ?_⟩
      simp only [a, tail, Amount.text, List.append_assoc, trimStart, List.takeWhile_append_dropWhile]

/-! ### Amounts one after the other -/

private theorem unitAmounts_nil (text : String) (total : Nat) : unitAmounts text total [] = .ok total := by
  rw [unitAmounts]
  rfl

private theorem unitAmounts_of_ne_nil (text : String) (total : Nat) {cs : List Char} (h : cs ≠ []) :
    unitAmounts text total cs =
      match unitAmount text cs with
      | .error e => .error e
      | .ok (n, rest) =>
        if total + n < amountLimit then unitAmounts text (total + n) rest else .error (.outOfRange text) := by
  rw [unitAmounts, List.isEmpty_eq_false_iff.2 h, if_neg Bool.false_ne_true]
  split
  · rename_i heq
    rw [heq]
  · rename_i heq
    rw [heq]

/-- An amount is added to the sum, unless one of them is too large. -/
private theorem unitAmounts_text_append (text : String) (total : Nat) (a : Amount) {rest : List Char}
    (hrest : ∀ c ∈ rest.head?, isNumberChar c = true) :
    unitAmounts text total (a.text ++ rest) =
      match inRange a.nanos with
      | none => .error (.invalidAmount (String.ofList a.number) text)
      | some n =>
        if total + n < amountLimit then unitAmounts text (total + n) rest else .error (.outOfRange text) := by
  have hne : a.text ++ rest ≠ [] := by
    obtain ⟨c, cs, hcons, -⟩ := a.exists_cons rest
    rw [hcons]
    exact List.cons_ne_nil c cs
  rw [unitAmounts_of_ne_nil text total hne, unitAmount_text_append text a hrest]
  cases inRange a.nanos with
  | none => rfl
  | some n => rfl

private theorem Amount.head?_flatMap (items : List Amount) :
    ∀ c ∈ (items.flatMap Amount.text).head?, isNumberChar c = true := by
  intro c hc
  cases items with
  | nil => cases hc
  | cons a items =>
    obtain ⟨d, ds, hcons, hnumber⟩ := a.exists_cons (items.flatMap Amount.text)
    rw [List.flatMap_cons, hcons] at hc
    obtain rfl := Option.some.inj hc
    exact hnumber

/-- Amounts are read as their sum, unless it is too large. -/
theorem toOption_unitAmounts (text : String) {total : Nat} (htotal : total < amountLimit) (items : List Amount) :
    (unitAmounts text total (items.flatMap Amount.text)).toOption =
      inRange (total + (items.map Amount.nanos).sum) := by
  induction items generalizing total with
  | nil =>
    rw [List.flatMap_nil, unitAmounts_nil, List.map_nil, List.sum_nil, Nat.add_zero]
    exact (inRange_eq_some.2 ⟨htotal, rfl⟩).symm
  | cons a items ih =>
    rw [List.flatMap_cons, List.map_cons, List.sum_cons,
      unitAmounts_text_append text total a (Amount.head?_flatMap items)]
    exact toOption_add (fun total => unitAmounts text total (items.flatMap Amount.text)) ih

/-- Nothing else is read as amounts. -/
theorem exists_amounts {text : String} {total n : Nat} {cs : List Char} (h : unitAmounts text total cs = .ok n) :
    ∃ items : List Amount, cs = items.flatMap Amount.text := by
  fun_induction unitAmounts text total cs with
  | case1 total cs hempty => exact ⟨[], List.isEmpty_iff.1 hempty⟩
  | case2 total cs hempty e he => cases h
  | case3 total cs hempty m rest hamount hsum ih =>
    obtain ⟨a, rfl⟩ := exists_amount hamount
    obtain ⟨items, rfl⟩ := ih h
    exact ⟨a :: items, rfl⟩
  | case4 total cs hempty m rest hamount hsum => cases h

end LayeredConfig.Duration
