import LayeredConfig.Duration
import LayeredConfig.Text.Blank

/-!
# Reading durations

Two written forms: amounts with a unit, one after the other (`1h 30m`), and a `P` with components in days before
and in hours, minutes and seconds after a `T` (`P1DT2H`).  An amount is a decimal number; what is below a
nanosecond is cut off.
-/

namespace LayeredConfig.Duration

open Text (isBlank trimStart trim)

/-- Why a text is not a duration. -/
inductive Fault where
  | empty
  | unknownUnit (unit text : String)
  | invalidAmount (number text : String)
  | outOfRange (text : String)
  | noComponents (text : String)
  | emptyTimePart (text : String)
  | missingDesignator (text : String)
  | unexpectedDesignator (designator : Char) (text : String)
  deriving DecidableEq, Repr

/-- The text shown for a fault. -/
def Fault.message : Fault → String
  | empty => "empty duration"
  | unknownUnit unit text => "missing or unknown unit '" ++ unit ++ "' in duration '" ++ text ++ "'"
  | invalidAmount number text => "invalid amount '" ++ number ++ "' in duration '" ++ text ++ "'"
  | outOfRange text => "duration '" ++ text ++ "' is out of range"
  | noComponents text => "ISO-8601 duration '" ++ text ++ "' has no components"
  | emptyTimePart text => "ISO-8601 duration '" ++ text ++ "' has an empty time part"
  | missingDesignator text => "ISO-8601 duration '" ++ text ++ "' is missing a designator"
  | unexpectedDesignator designator text =>
    "unexpected designator '" ++ String.ofList [designator] ++ "' in duration '" ++ text ++ "'"

def minute : Nat := 60 * second
def hour : Nat := 60 * minute
def day : Nat := 24 * hour

/-- Amounts of nanoseconds are 128 bit numbers. -/
def amountLimit : Nat := 2 ^ (128 : Nat)

/-- The nanoseconds in a unit. -/
def unitNanos? (unit : List Char) : Option Nat :=
  if unit = ['n', 's'] then some 1
  else if unit = ['u', 's'] ∨ unit = ['µ', 's'] then some 1000
  else if unit = ['m', 's'] then some 1000000
  else if unit = ['s'] then some second
  else if unit = ['m'] then some minute
  else if unit = ['h'] then some hour
  else if unit = ['d'] then some day
  else none

/-- The number written by decimal digits. -/
def ofDigits (digits : List Char) : Nat :=
  digits.foldl (fun n c => 10 * n + (c.toNat - '0'.toNat)) 0

/-- The number, if it fits into 128 bits. -/
def inRange (n : Nat) : Option Nat := if n < amountLimit then some n else none

/-- A decimal number times `scale` in whole nanoseconds; only the first 18 digits of a fraction count. -/
def scaledNanos (number : List Char) (scale : Nat) : Option Nat :=
  let whole := number.takeWhile (· ≠ '.')
  let fraction := (number.dropWhile (· ≠ '.')).drop 1
  if whole.isEmpty && fraction.isEmpty then none
  else if !(whole ++ fraction).all Char.isDigit then none
  else
    (inRange (ofDigits whole)).bind fun n =>
      (inRange (n * scale)).bind fun nanos =>
        let digits := fraction.take 18
        inRange (nanos + ofDigits digits * scale / 10 ^ digits.length)

theorem isDigit_of_mem_toDigits {whole : Nat} : ∀ c ∈ Nat.toDigits 10 whole, c.isDigit = true :=
  fun _ => Nat.isDigit_of_mem_toDigits (by decide) (by decide)

/-- The point parts a written number. -/
private theorem parts_written (whole : Nat) (fraction : List Char) :
    (written whole fraction).takeWhile (· ≠ '.') = Nat.toDigits 10 whole ∧
      ((written whole fraction).dropWhile (· ≠ '.')).drop 1 = fraction := by
  have hpoint : ∀ c ∈ Nat.toDigits 10 whole, decide (c ≠ '.') = true := by
    intro c hc
    rw [decide_eq_true_eq]
    rintro rfl
    exact Bool.false_ne_true (isDigit_of_mem_toDigits _ hc)
  unfold written
  rw [List.takeWhile_append_of_pos hpoint, List.dropWhile_append_of_pos hpoint]
  split
  · rename_i hempty
    exact ⟨List.append_nil _, (List.isEmpty_iff.1 hempty).symm⟩
  · exact ⟨List.append_nil _, rfl⟩

/-- A written number is read exactly if its fraction has at most 18 digits. -/
theorem scaledNanos_written {whole scale : Nat} {fraction : List Char} (hfraction : ∀ c ∈ fraction, c.isDigit = true)
    (hplaces : fraction.length ≤ 18) (hscale : 0 < scale)
    (hlt : whole * scale + ofDigits fraction * scale / 10 ^ fraction.length < amountLimit) :
    scaledNanos (written whole fraction) scale =
      some (whole * scale + ofDigits fraction * scale / 10 ^ fraction.length) := by
  obtain ⟨hwhole, hrest⟩ := parts_written whole fraction
  have hvalue : ofDigits (Nat.toDigits 10 whole) = whole := Nat.ofDigitChars_toDigits (by decide) (by decide)
  have hall : (Nat.toDigits 10 whole ++ fraction).all Char.isDigit = true := by
    rw [List.all_eq_true]
    exact fun c hc => (List.mem_append.1 hc).elim (isDigit_of_mem_toDigits c) (hfraction c)
  have hnonempty : (Nat.toDigits 10 whole).isEmpty = false := List.isEmpty_eq_false_iff.2 Nat.toDigits_ne_nil
  have hnanos : whole * scale < amountLimit := Nat.lt_of_le_of_lt (Nat.le_add_right _ _) hlt
  have hle : whole ≤ whole * scale := Nat.le_mul_of_pos_right whole hscale
  have hrange {n : Nat} (h : n < amountLimit) : inRange n = some n := if_pos h
  unfold scaledNanos
  dsimp only
  rw [hwhole, hrest, hnonempty, hall, hvalue, List.take_of_length_le hplaces, Bool.false_and, Bool.not_true,
    if_neg Bool.false_ne_true, if_neg Bool.false_ne_true, hrange (Nat.lt_of_le_of_lt hle hnanos),
    Option.bind_some, hrange hnanos, Option.bind_some, hrange hlt]

/-- Whether a character may be part of a number. -/
def isNumberChar (c : Char) : Bool := c.isDigit || c == '.'

/-- One amount with its unit at the start of `cs`, and the rest of the text. -/
def unitAmount (text : String) (cs : List Char) : Except Fault (Nat × List Char) :=
  let number := cs.takeWhile isNumberChar
  let tail := trimStart (cs.dropWhile isNumberChar)
  let unit := tail.takeWhile fun c => !(isNumberChar c || isBlank c)
  let rest := trimStart (tail.dropWhile fun c => !(isNumberChar c || isBlank c))
  match unitNanos? unit with
  | none => .error (.unknownUnit (String.ofList unit) text)
  | some scale =>
    match scaledNanos number scale with
    | none => .error (.invalidAmount (String.ofList number) text)
    | some n => .ok (n, rest)

/-- A number with its unit and nothing behind it is one amount. -/
theorem unitAmount_append {text : String} {number unit : List Char} {scale n : Nat}
    (hnumber : ∀ c ∈ number, (c.isDigit || c == '.') = true)
    (hunit : ∀ c ∈ unit, (c.isDigit || c == '.') = false ∧ isBlank c = false) (hscale : unitNanos? unit = some scale)
    (hn : scaledNanos number scale = some n) : unitAmount text (number ++ unit) = .ok (n, []) := by
  have hnumber : ∀ c ∈ number, isNumberChar c = true := hnumber
  have hfirst : unit.takeWhile isNumberChar = [] ∧ unit.dropWhile isNumberChar = unit := by
    cases unit with
    | nil => exact ⟨rfl, rfl⟩
    | cons c cs =>
      have hc : ¬ isNumberChar c = true := Bool.eq_false_iff.1 (hunit c List.mem_cons_self).1
      exact ⟨List.takeWhile_cons_of_neg hc, List.dropWhile_cons_of_neg hc⟩
  have htrim : trimStart unit = unit := by
    cases unit with
    | nil => rfl
    | cons c cs => exact List.dropWhile_cons_of_neg (Bool.eq_false_iff.1 (hunit c List.mem_cons_self).2)
  have hall : ∀ c ∈ unit, (!(isNumberChar c || isBlank c)) = true := by
    intro c hc
    obtain ⟨hnot, hblank⟩ := hunit c hc
    have hnot : isNumberChar c = false := hnot
    rw [hnot, hblank]
    rfl
  have htake := @List.takeWhile_append_of_pos Char _ unit [] hall
  have hdrop := @List.dropWhile_append_of_pos Char _ unit [] hall
  rw [List.append_nil] at htake hdrop
  unfold unitAmount
  dsimp only
  rw [List.takeWhile_append_of_pos hnumber, List.dropWhile_append_of_pos hnumber, hfirst.1, hfirst.2, htrim, htake,
    hdrop, List.takeWhile_nil, List.append_nil, List.append_nil, List.dropWhile_nil, hscale]
  dsimp only
  rw [hn]
  rfl

private theorem length_dropWhile_le (p : Char → Bool) (cs : List Char) :
    (cs.dropWhile p).length ≤ cs.length := (List.dropWhile_suffix p).length_le

private theorem length_dropWhile_lt {p : Char → Bool} {cs : List Char} (h : cs.takeWhile p ≠ []) :
    (cs.dropWhile p).length < cs.length := by
  have hsum : (cs.takeWhile p).length + (cs.dropWhile p).length = cs.length := by
    rw [← List.length_append, List.takeWhile_append_dropWhile]
  have := List.length_pos_iff.2 h
  omega

theorem length_unitAmount_lt {text : String} {cs rest : List Char} {n : Nat}
    (h : unitAmount text cs = .ok (n, rest)) : rest.length < cs.length := by
  unfold unitAmount at h
  dsimp only at h
  split at h
  · simp at h
  · rename_i scale hunit
    split at h
    · simp at h
    · obtain ⟨_, rfl⟩ := Prod.mk.inj (Except.ok.inj h)
      have hne : (trimStart (cs.dropWhile isNumberChar)).takeWhile (fun c => !(isNumberChar c || isBlank c)) ≠ [] := by
        intro hnil
        rw [hnil] at hunit
        simp [unitNanos?] at hunit
      have h1 := Text.length_trimStart_le
        ((trimStart (cs.dropWhile isNumberChar)).dropWhile fun c => !(isNumberChar c || isBlank c))
      have h2 := length_dropWhile_lt hne
      have h3 := Text.length_trimStart_le (cs.dropWhile isNumberChar)
      have h4 := length_dropWhile_le isNumberChar cs
      omega

/-- The sum of the amounts with units that make up `cs`. -/
def unitAmounts (text : String) (total : Nat) (cs : List Char) : Except Fault Nat :=
  if cs.isEmpty then .ok total
  else
    match _h : unitAmount text cs with
    | .error e => .error e
    | .ok (n, rest) =>
      if total + n < amountLimit then unitAmounts text (total + n) rest else .error (.outOfRange text)
termination_by cs.length
decreasing_by exact length_unitAmount_lt _h

/-- The sum of the components that make up `cs`, each a number before one of the `designators`. -/
def components (designators : List (Char × Nat)) (text : String) (total : Nat) (cs : List Char) :
    Except Fault Nat :=
  if cs.isEmpty then .ok total
  else
    match _h : cs.dropWhile fun c => !c.isAlpha with
    | [] => .error (.missingDesignator text)
    | designator :: rest =>
      let number := cs.takeWhile fun c => !c.isAlpha
      match designators.lookup designator with
      | none => .error (.unexpectedDesignator designator text)
      | some scale =>
        match scaledNanos number scale with
        | none => .error (.invalidAmount (String.ofList number) text)
        | some n =>
          if total + n < amountLimit then components designators text (total + n) rest
          else .error (.outOfRange text)
termination_by cs.length
decreasing_by
  have := length_dropWhile_le (fun c => !c.isAlpha) cs
  rw [_h, List.length_cons] at this
  omega

/-- What may stand in front of the `T`. -/
def dateDesignators : List (Char × Nat) := [('D', day)]

/-- What may stand behind the `T`. -/
def timeDesignators : List (Char × Nat) := [('H', hour), ('M', minute), ('S', second)]

/-- The nanoseconds of a body of components, letters in upper case. -/
def isoNanos (text : String) (body : List Char) : Except Fault Nat :=
  let date := body.takeWhile (· ≠ 'T')
  match body.dropWhile (· ≠ 'T') with
  | [] => if date.isEmpty then .error (.noComponents text) else components dateDesignators text 0 date
  | _ :: time =>
    if date.isEmpty && time.isEmpty then .error (.noComponents text)
    else
      match components dateDesignators text 0 date with
      | .error e => .error e
      | .ok days =>
        if time.isEmpty then .error (.emptyTimePart text)
        else
          match components timeDesignators text 0 time with
          | .error e => .error e
          | .ok n => if days + n < amountLimit then .ok (days + n) else .error (.outOfRange text)

/-- The duration that a text stands for. -/
def parse (raw : String) : Except Fault Duration :=
  let cs := trim raw.toList
  let text := String.ofList cs
  let nanos : Except Fault Nat :=
    match cs with
    | [] => .error .empty
    | c :: body => if c = 'P' ∨ c = 'p' then isoNanos text (body.map Char.toUpper) else unitAmounts text 0 cs
  nanos.bind fun n =>
    match ofNanos? n with
    | some d => .ok d
    | none => .error (.outOfRange text)

end LayeredConfig.Duration
