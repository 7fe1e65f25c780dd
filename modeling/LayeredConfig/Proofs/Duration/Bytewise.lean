import LayeredConfig.Proofs.Duration.Components

/-!
# Reading durations by bytes

A reader of durations that finds its places by bytes and computes with words, where a slip has no result: cutting a
text inside a character or behind its end, a number that is too large for its word and is not tested, a division by
zero, a loop that does not end.  It reads every text as `parse` does (`parse?_eq`), so there is no slip.
-/

namespace LayeredConfig.Duration

namespace Bytewise

open Text (isBlank trimStart trim)

/-- The bytes of a text in UTF-8. -/
def bytes (cs : List Char) : List UInt8 := cs.flatMap String.utf8EncodeChar

def byteLength (cs : List Char) : Nat := (bytes cs).length

/-- The bytes of the decimal digits. -/
def isDigitByte (b : UInt8) : Bool := 48 ≤ b.toNat && b.toNat ≤ 57

/-- The byte at which the first character of a kind starts. -/
def find? (p : Char → Bool) : List Char → Option Nat
  | [] => none
  | c :: cs => if p c then some 0 else (find? p cs).map (c.utf8Size + ·)

/-- A text cut in front of a byte; nothing if this byte is inside a character, or behind the end. -/
def splitAt? : Nat → List Char → Option (List Char × List Char)
  | 0, cs => some ([], cs)
  | _ + 1, [] => none
  | n + 1, c :: cs =>
    if n + 1 < c.utf8Size then none else (splitAt? (n + 1 - c.utf8Size) cs).map fun p => (c :: p.1, p.2)

/-- A text cut in front of the first character of a kind, or at its end. -/
def splitBefore? (p : Char → Bool) (cs : List Char) : Option (List Char × List Char) :=
  splitAt? ((find? p cs).getD (byteLength cs)) cs

/-- What is computed without a test; nothing if it is too large for its word. -/
def word? (bits n : Nat) : Option Nat := if n < 2 ^ bits then some n else none

/-- Division; nothing if it is one by zero. -/
def quotient? (n m : Nat) : Option Nat := if m = 0 then none else some (n / m)

/-- The first 18 digits of a fraction times `scale` in whole nanoseconds, or that they are refused. -/
def fractionNanos? (fraction : List Char) (scale : Nat) : Option (Option Nat) := do
  let (digits, _) ← splitAt? (min (byteLength fraction) 18) fraction
  let places ← word? 32 (byteLength digits)
  let denominator ← word? 128 (10 ^ places)
  match inRange (ofDigits digits) with
  | none => some none
  | some numerator => do
    let product ← word? 128 (numerator * scale)
    let part ← quotient? product denominator
    some (some part)

/-- A decimal number times `scale` in whole nanoseconds, or that it is refused. -/
def scaledNanos? (number : List Char) (scale : Nat) : Option (Option Nat) :=
  let whole := wholePart number
  let fraction := fractionPart number
  if whole.isEmpty && fraction.isEmpty then some none
  else if !(bytes whole ++ bytes fraction).all isDigitByte then some none
  else
    match (inRange (ofDigits whole)).bind fun n => inRange (n * scale) with
    | none => some none
    | some nanos =>
      if fraction.isEmpty then some (some nanos)
      else do
        match ← fractionNanos? fraction scale with
        | none => some none
        | some part => some (inRange (nanos + part))

/-- One amount with its unit at the start of `cs`, and the rest of the text. -/
def unitAmount? (text : String) (cs : List Char) : Option (Except Fault (Nat × List Char)) := do
  let (number, tail) ← splitBefore? (fun c => !isNumberChar c) cs
  let (unit, rest) ← splitBefore? (fun c => isNumberChar c || isBlank c) (trimStart tail)
  match unitNanos? unit with
  | none => some (.error (.unknownUnit (String.ofList unit) text))
  | some scale =>
    match ← scaledNanos? number scale with
    | none => some (.error (.invalidAmount (String.ofList number) text))
    | some n => some (.ok (n, trimStart rest))

/-- The sum so far, and the text that is left. -/
structure Pending where
  total : Nat
  rest : List Char

namespace Pending

/-- Adds the amounts with units that make up the text that is left. -/
def amounts? (text : String) (p : Pending) : Option (Except Fault Nat) :=
  if p.rest.isEmpty then some (.ok p.total)
  else do
    match ← unitAmount? text p.rest with
    | .error e => some (.error e)
    | .ok (n, rest) =>
      if p.total + n < amountLimit then Pending.mk (p.total + n) rest |>.amounts? text
      else some (.error (.outOfRange text))
partial_fixpoint

/-- Adds the components that make up the text that is left. -/
def components? (designators : List (Char × Nat)) (text : String) (p : Pending) : Option (Except Fault Nat) :=
  if p.rest.isEmpty then some (.ok p.total)
  else
    match find? Char.isAlpha p.rest with
    | none => some (.error (.missingDesignator text))
    | some place => do
      let (number, tail) ← splitAt? place p.rest
      let designator := tail.headD '\x00'
      match designators.lookup designator with
      | none => some (.error (.unexpectedDesignator designator text))
      | some scale =>
        match ← scaledNanos? number scale with
        | none => some (.error (.invalidAmount (String.ofList number) text))
        | some n =>
          if p.total + n < amountLimit then do
            let (_, rest) ← splitAt? designator.utf8Size tail
            Pending.mk (p.total + n) rest |>.components? designators text
          else some (.error (.outOfRange text))
partial_fixpoint

end Pending

/-- The sum of the amounts with units that make up `cs`. -/
def unitAmounts? (text : String) (cs : List Char) : Option (Except Fault Nat) :=
  (Pending.mk 0 cs).amounts? text

/-- The sum of the components that make up `cs`. -/
def components? (designators : List (Char × Nat)) (text : String) (cs : List Char) : Option (Except Fault Nat) :=
  (Pending.mk 0 cs).components? designators text

/-- The nanoseconds of a body of components, letters in upper case. -/
def isoNanos? (text : String) (body : List Char) : Option (Except Fault Nat) :=
  let date := body.takeWhile (· ≠ 'T')
  match body.dropWhile (· ≠ 'T') with
  | [] => if date.isEmpty then some (.error (.noComponents text)) else components? dateDesignators text date
  | _ :: time =>
    if date.isEmpty && time.isEmpty then some (.error (.noComponents text))
    else do
      match ← components? dateDesignators text date with
      | .error e => some (.error e)
      | .ok days =>
        if time.isEmpty then some (.error (.emptyTimePart text))
        else
          match ← components? timeDesignators text time with
          | .error e => some (.error e)
          | .ok n => some (if days + n < amountLimit then .ok (days + n) else .error (.outOfRange text))

/-- The span of so many nanoseconds, or that it is refused; nothing if its nanoseconds make up a second. -/
def ofNanos? (n : Nat) : Option (Option Duration) :=
  if h : n / second < 2 ^ (64 : Nat) then do
    let nanos ← word? 32 (n % second)
    if hnanos : nanos < 1000000000 then some (some ⟨n / second, nanos, h, hnanos⟩) else none
  else some none

/-- The nanoseconds of a trimmed text. -/
def textNanos? (text : String) : List Char → Option (Except Fault Nat)
  | [] => some (.error .empty)
  | c :: body =>
    if c = 'P' ∨ c = 'p' then isoNanos? text (body.map Char.toUpper) else unitAmounts? text (c :: body)

/-- The duration that a text stands for. -/
def parse? (raw : String) : Option (Except Fault Duration) := do
  let cs := trim raw.toList
  let text := String.ofList cs
  match ← textNanos? text cs with
  | .error e => some (.error e)
  | .ok n =>
    match ← ofNanos? n with
    | some d => some (.ok d)
    | none => some (.error (.outOfRange text))

/-! ### Places in texts -/

section

variable {cs : List Char}

@[simp] theorem byteLength_nil : byteLength [] = 0 := rfl

@[simp] theorem byteLength_cons (c : Char) (cs : List Char) : byteLength (c :: cs) = c.utf8Size + byteLength cs := by
  rw [byteLength, bytes, List.flatMap_cons, List.length_append, String.length_utf8EncodeChar]
  rfl

/-- The end of a text is no place inside a character, whatever follows. -/
private theorem splitAt?_byteLength (start rest : List Char) :
    splitAt? (byteLength start) (start ++ rest) = some (start, rest) := by
  induction start with
  | nil => cases rest <;> rfl
  | cons c start ih =>
    obtain ⟨n, hn⟩ : ∃ n, c.utf8Size + byteLength start = n + 1 :=
      Nat.exists_eq_succ_of_ne_zero (by have := c.utf8Size_pos; omega)
    have hrest : n + 1 - c.utf8Size = byteLength start := by omega
    have hlt : ¬ n + 1 < c.utf8Size := by omega
    rw [List.cons_append, byteLength_cons, hn, splitAt?, if_neg hlt, hrest, ih]
    rfl

/-- A character is found behind those that are of another kind. -/
private theorem find?_eq (p : Char → Bool) (cs : List Char) :
    find? p cs =
      (cs.dropWhile fun c => !p c).head?.map fun _ => byteLength (cs.takeWhile fun c => !p c) := by
  induction cs with
  | nil => rfl
  | cons c cs ih =>
    rw [find?]
    by_cases hc : p c = true
    · rw [if_pos hc, List.dropWhile_cons_of_neg (by simp [hc]), List.takeWhile_cons_of_neg (by simp [hc])]
      rfl
    · rw [if_neg hc, List.dropWhile_cons_of_pos (by simp [hc]), List.takeWhile_cons_of_pos (by simp [hc]), ih,
        Option.map_map, byteLength_cons]
      rfl

private theorem splitBefore?_eq (p : Char → Bool) (cs : List Char) :
    splitBefore? p cs = some (cs.takeWhile (fun c => !p c), cs.dropWhile fun c => !p c) := by
  have hcut := splitAt?_byteLength (cs.takeWhile fun c => !p c) (cs.dropWhile fun c => !p c)
  rw [List.takeWhile_append_dropWhile] at hcut
  rw [splitBefore?, find?_eq]
  cases hrest : cs.dropWhile fun c => !p c with
  | nil =>
    have hall : cs.takeWhile (fun c => !p c) = cs := by
      have hcs := List.takeWhile_append_dropWhile (p := fun c => !p c) (l := cs)
      rwa [hrest, List.append_nil] at hcs
    rw [hall, hrest] at hcut
    rw [hall]
    exact hcut
  | cons c rest =>
    rw [hrest] at hcut
    exact hcut

end

/-! ### Numbers -/

/-- Digits are told by their bytes: the last byte of any other character is too large. -/
private theorem all_isDigitByte (cs : List Char) : (bytes cs).all isDigitByte = cs.all Char.isDigit := by
  have hchar (c : Char) : (String.utf8EncodeChar c).all isDigitByte = c.isDigit := by
    have hvalue : c.val.toNat = c.toNat := rfl
    rw [Bool.eq_iff_iff, Text.isDigit_iff]
    unfold String.utf8EncodeChar
    dsimp only
    split
    · simp [isDigitByte]
      omega
    · split
      · simp [isDigitByte]
        omega
      · split
        · simp [isDigitByte]
          omega
        · simp [isDigitByte]
          omega
  rw [bytes, List.all_flatMap]
  simp only [hchar]

private theorem byteLength_of_digits {cs : List Char} (h : ∀ c ∈ cs, c.isDigit = true) : byteLength cs = cs.length := by
  induction cs with
  | nil => rfl
  | cons c cs ih =>
    have hc : c.utf8Size = 1 := by
      have hdigit := Text.isDigit_iff.1 (h c List.mem_cons_self)
      exact Char.utf8Size_eq_one_iff.2 (UInt32.le_iff_toNat_le.2 (Nat.le_trans hdigit.2 (by decide)))
    rw [byteLength_cons, hc, ih fun d hd => h d (.tail _ hd), List.length_cons, Nat.add_comm]

private theorem word?_of_lt {bits n : Nat} (h : n < 2 ^ bits) : word? bits n = some n := if_pos h

/-- A fraction cut off after 18 digits fits into a word, and so does its product with a unit. -/
private theorem fractionNanos?_eq {fraction : List Char} (h : ∀ c ∈ fraction, c.isDigit = true) {scale : Nat}
    (hscale : scale ≤ day) :
    fractionNanos? fraction scale =
      some (some (ofDigits (fraction.take 18) * scale / 10 ^ (fraction.take 18).length)) := by
  have hdigits : ∀ c ∈ fraction.take 18, c.isDigit = true := fun c hc => h c (List.mem_of_mem_take hc)
  have hcut : splitAt? (min (byteLength fraction) 18) fraction = some (fraction.take 18, fraction.drop 18) := by
    have hplace := splitAt?_byteLength (fraction.take 18) (fraction.drop 18)
    rwa [List.take_append_drop, byteLength_of_digits hdigits, List.length_take, Nat.min_comm,
      ← byteLength_of_digits h] at hplace
  have hlength : (fraction.take 18).length ≤ 18 := List.length_take_le 18 fraction
  have hpow : 10 ^ (fraction.take 18).length ≤ 10 ^ (18 : Nat) := Nat.pow_le_pow_right (by decide) hlength
  have hnumerator := ofDigits_lt hdigits
  have hproduct : ofDigits (fraction.take 18) * scale ≤ 10 ^ (18 : Nat) * day :=
    Nat.mul_le_mul (Nat.le_trans (Nat.le_of_lt hnumerator) hpow) hscale
  have hpowWord : 10 ^ (18 : Nat) < 2 ^ (128 : Nat) := by decide
  have hproductWord : 10 ^ (18 : Nat) * day < 2 ^ (128 : Nat) := by decide
  have hnonzero : 10 ^ (fraction.take 18).length ≠ 0 := Nat.ne_of_gt (Nat.pow_pos (by decide))
  have hrange : inRange (ofDigits (fraction.take 18)) = some (ofDigits (fraction.take 18)) :=
    inRange_eq_some.2 ⟨Nat.lt_trans hnumerator (Nat.lt_of_le_of_lt hpow hpowWord), rfl⟩
  unfold fractionNanos?
  simp only [hcut, Option.bind_eq_bind, Option.bind_some, byteLength_of_digits hdigits,
    word?_of_lt (Nat.lt_of_le_of_lt hlength (by decide : 18 < 2 ^ (32 : Nat))),
    word?_of_lt (Nat.lt_of_le_of_lt hpow hpowWord), hrange, word?_of_lt (Nat.lt_of_le_of_lt hproduct hproductWord),
    quotient?, if_neg hnonzero]

private theorem scaledNanos?_eq (number : List Char) {scale : Nat} (hscale : scale ≤ day) :
    scaledNanos? number scale = some (scaledNanos number scale) := by
  unfold scaledNanos? scaledNanos
  dsimp only
  rw [← wholePart, ← fractionPart, List.all_append, all_isDigitByte, all_isDigitByte, ← List.all_append]
  split
  · rfl
  · split
    · rfl
    · rename_i hall
      rw [Bool.not_eq_true', Bool.not_eq_false, List.all_append, Bool.and_eq_true] at hall
      have hfraction := List.all_eq_true.1 hall.2
      cases hwhole : inRange (ofDigits (wholePart number)) with
      | none => rfl
      | some n =>
        rw [Option.bind_some, Option.bind_some]
        cases hnanos : inRange (n * scale) with
        | none => rfl
        | some nanos =>
          rw [Option.bind_some]
          dsimp only
          split
          · rename_i hempty
            have hpart : ofDigits [] * scale / 10 ^ ([] : List Char).length = 0 := by
              rw [ofDigits, List.foldl_nil, Nat.zero_mul, Nat.zero_div]
            rw [List.isEmpty_iff.1 hempty, List.take_nil, hpart, Nat.add_zero,
              inRange_eq_some.2 ⟨(inRange_eq_some.1 hnanos).2 ▸ (inRange_eq_some.1 hnanos).1, rfl⟩]
          · rw [fractionNanos?_eq hfraction hscale]
            rfl

/-! ### Texts -/

private theorem unitAmount?_eq (text : String) (cs : List Char) : unitAmount? text cs = some (unitAmount text cs) := by
  unfold unitAmount? unitAmount
  dsimp only [Option.bind_eq_bind]
  rw [splitBefore?_eq, Option.bind_some]
  simp only [Bool.not_not]
  rw [splitBefore?_eq, Option.bind_some]
  dsimp only
  split
  · rename_i hunit
    rw [hunit]
  · rename_i scale hunit
    rw [hunit, scaledNanos?_eq _ (units_spec _ (unitNanos?_eq_some.1 hunit)).2.2.1, Option.bind_some]
    dsimp only
    split
    · rename_i hnumber
      rw [hnumber]
    · rename_i n hnumber
      rw [hnumber]

private theorem amounts?_eq (text : String) (total : Nat) (cs : List Char) :
    Pending.amounts? text ⟨total, cs⟩ = some (unitAmounts text total cs) := by
  fun_induction unitAmounts text total cs with
  | case1 total cs hempty => rw [Pending.amounts?, if_pos hempty]
  | case2 total cs hempty e hamount =>
    rw [Pending.amounts?, if_neg hempty, unitAmount?_eq, hamount]
    rfl
  | case3 total cs hempty n rest hamount hsum ih =>
    rw [Pending.amounts?, if_neg hempty, unitAmount?_eq, hamount, ← ih]
    exact if_pos hsum
  | case4 total cs hempty n rest hamount hsum =>
    rw [Pending.amounts?, if_neg hempty, unitAmount?_eq, hamount]
    exact if_neg hsum

/-- The cuts behind a number and behind its letter are between characters. -/
private theorem components?_of_letter {designators : List (Char × Nat)} (text : String) (total : Nat)
    {cs rest : List Char} {letter : Char} (h : (cs.dropWhile fun c => !c.isAlpha) = letter :: rest) :
    Pending.components? designators text ⟨total, cs⟩ =
      match designators.lookup letter with
      | none => some (.error (.unexpectedDesignator letter text))
      | some scale =>
        (scaledNanos? (cs.takeWhile fun c => !c.isAlpha) scale).bind fun
          | none => some (.error (.invalidAmount (String.ofList (cs.takeWhile fun c => !c.isAlpha)) text))
          | some n =>
            if total + n < amountLimit then Pending.components? designators text ⟨total + n, rest⟩
            else some (.error (.outOfRange text)) := by
  have hcut := splitAt?_byteLength (cs.takeWhile fun c => !c.isAlpha) (letter :: rest)
  rw [← h, List.takeWhile_append_dropWhile, h] at hcut
  have hletter : splitAt? letter.utf8Size (letter :: rest) = some ([letter], rest) := by
    have hplace := splitAt?_byteLength [letter] rest
    rwa [byteLength_cons, byteLength_nil, Nat.add_zero] at hplace
  have hne : ¬ cs.isEmpty = true := by
    rintro hempty
    rw [List.isEmpty_iff.1 hempty] at h
    cases h
  rw [Pending.components?, if_neg hne, find?_eq, h]
  dsimp only [List.head?_cons, Option.map_some, Option.bind_eq_bind]
  rw [hcut, Option.bind_some]
  dsimp only [List.headD_cons]
  rw [hletter]
  rfl

private theorem components?_eq {designators : List (Char × Nat)} (hletters : AreLetters designators) (text : String)
    (total : Nat) (cs : List Char) :
    Pending.components? designators text ⟨total, cs⟩ = some (components designators text total cs) := by
  have hscaled {letter : Char} {scale : Nat} (hlookup : designators.lookup letter = some scale) (number : List Char) :
      scaledNanos? number scale = some (scaledNanos number scale) :=
    scaledNanos?_eq number (hletters.scale _ (mem_of_lookup hlookup)).2
  fun_induction components designators text total cs with
  | case1 total cs hempty => rw [Pending.components?, if_pos hempty]
  | case2 total cs hempty hnone =>
    rw [Pending.components?, if_neg hempty, find?_eq, hnone]
    rfl
  | case3 total cs hempty letter rest hrest hlookup =>
    rw [components?_of_letter text total hrest, hlookup]
  | case4 total cs hempty letter rest hrest number scale hlookup hnumber =>
    rw [components?_of_letter text total hrest, hlookup]
    dsimp only
    rw [hscaled hlookup, hnumber]
    rfl
  | case5 total cs hempty letter rest hrest number scale hlookup n hnumber hsum ih =>
    rw [components?_of_letter text total hrest, hlookup]
    dsimp only
    rw [hscaled hlookup, hnumber, ← ih]
    exact if_pos hsum
  | case6 total cs hempty letter rest hrest number scale hlookup n hnumber hsum =>
    rw [components?_of_letter text total hrest, hlookup]
    dsimp only
    rw [hscaled hlookup, hnumber]
    exact if_neg hsum

private theorem isoNanos?_eq (text : String) (body : List Char) : isoNanos? text body = some (isoNanos text body) := by
  have hdate := components?_eq (show AreLetters dateDesignators from areLetters_date) text 0
  have htime := components?_eq (show AreLetters timeDesignators from areLetters_time) text 0
  unfold isoNanos? isoNanos components?
  dsimp only [Option.bind_eq_bind]
  cases body.dropWhile (· ≠ 'T') with
  | nil =>
    dsimp only
    rw [hdate, apply_ite some]
  | cons mark time =>
    dsimp only
    rw [hdate, Option.bind_some, apply_ite some]
    congr 1
    cases components dateDesignators text 0 (body.takeWhile (· ≠ 'T')) with
    | error e => rfl
    | ok days =>
      dsimp only
      rw [htime, Option.bind_some, apply_ite some]
      congr 1
      cases components timeDesignators text 0 time with
      | error e => rfl
      | ok n => rfl

private theorem ofNanos?_eq (n : Nat) : ofNanos? n = some (Duration.ofNanos? n) := by
  have hnanos : n % second < 1000000000 := Nat.mod_lt n (by decide)
  unfold ofNanos? Duration.ofNanos?
  rw [word?_of_lt (Nat.lt_trans hnanos (by decide))]
  split
  · exact dif_pos hnanos
  · rfl

/-- Every text is read without a slip. -/
theorem parse?_eq (raw : String) : parse? raw = some (parse raw) := by
  unfold parse? parse
  dsimp only [Option.bind_eq_bind]
  cases trim raw.toList with
  | nil => rfl
  | cons c body =>
    rw [textNanos?, isoNanos?_eq, unitAmounts?, amounts?_eq, ← apply_ite some, Option.bind_some]
    dsimp only
    cases if c = 'P' ∨ c = 'p' then isoNanos (String.ofList (c :: body)) (body.map Char.toUpper)
      else unitAmounts (String.ofList (c :: body)) 0 (c :: body) with
    | error e => rfl
    | ok n =>
      dsimp only [Except.bind]
      rw [ofNanos?_eq, Option.bind_some]
      cases Duration.ofNanos? n with
      | none => rfl
      | some d => rfl

end Bytewise

open Text (trim) in
/-- A text is read exactly if it is the text of a duration below 2^64 seconds but for blanks around it, and what is
read is this duration, to the nanosecond.  On the way no text is cut inside a character, and no number overflows. -/
theorem parse_spelled (raw : String) :
    ((∃ d, parse raw = .ok d) ↔ ∃ s : Spelling, s.text = trim raw.toList ∧ s.nanos < 2 ^ (64 : Nat) * second) ∧
    (∀ s : Spelling, s.text = trim raw.toList → ∀ d, parse raw = .ok d → d.totalNanos = s.nanos) ∧
    Bytewise.parse? raw = some (parse raw) := by
  have hread (d : Duration) : parse raw = .ok d ↔ (parse raw).toOption = some d := by
    cases parse raw with
    | error e => simp [Except.toOption]
    | ok d' => simp [Except.toOption]
  refine ⟨⟨?_, ?_⟩, ?_, Bytewise.parse?_eq raw⟩
  · rintro ⟨d, hd⟩
    obtain ⟨s, hs⟩ := exists_spelling hd
    refine ⟨s, hs, ?_⟩
    rw [hread, toOption_parse s hs] at hd
    rw [← Nat.not_le, ← ofNanos?_eq_none, hd]
    exact Option.some_ne_none d
  · rintro ⟨s, hs, hlt⟩
    rw [← Nat.not_le, ← ofNanos?_eq_none, ← ne_eq, Option.ne_none_iff_exists'] at hlt
    obtain ⟨d, hd⟩ := hlt
    exact ⟨d, (hread d).2 ((toOption_parse s hs).trans hd)⟩
  · intro s hs d hd
    rw [hread, toOption_parse s hs] at hd
    exact totalNanos_of_ofNanos? hd

/-- A day, half an hour without a digit in front of the point, and thirty minutes, with letters in both cases. -/
def mixedPeriod : Period where
  mark := 'p'
  date := [⟨['1'], 'd', day, isNumeral_iff.2 ⟨by decide, List.all_eq_true.1 (by decide)⟩, .head _⟩]
  timeMark := 'T'
  time :=
    [⟨['.', '5'], 'h', hour, isNumeral_iff.2 ⟨by decide, List.all_eq_true.1 (by decide)⟩, .head _⟩,
      ⟨['3', '0'], 'M', minute, isNumeral_iff.2 ⟨by decide, List.all_eq_true.1 (by decide)⟩, .tail _ (.head _)⟩]
  isMark := .inr rfl
  isTimeMark := .inl rfl
  ne_nil := .inl (List.cons_ne_nil _ _)

open Text (trim) in
theorem parse_spelled_mixedPeriod : ∃ d, parse "\tp1dT.5h30M\u3000" = .ok d ∧ d.totalNanos = day + hour := by
  have htext : (Spelling.period mixedPeriod).text = trim "\tp1dT.5h30M\u3000".toList := by decide
  have hnanos : (Spelling.period mixedPeriod).nanos = day + hour := by decide
  obtain ⟨⟨-, hread⟩, hvalue, -⟩ := parse_spelled "\tp1dT.5h30M\u3000"
  obtain ⟨d, hd⟩ := hread ⟨_, htext, by decide⟩
  exact ⟨d, hd, (hvalue _ htext d hd).trans hnanos⟩

end LayeredConfig.Duration
