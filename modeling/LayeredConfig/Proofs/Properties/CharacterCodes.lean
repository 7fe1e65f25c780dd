import LayeredConfig.Proofs.Properties.LineBreaks
import Mathlib.Data.List.Forall2

/-!
# Characters written by their codes

In a value any character can be written by the code units that it has in UTF-16, each as a backslash, a `u` and four
hexadecimal digits.  Every escape is read for itself.  So a character of one code unit reads back, and one of two does
not: neither half of it is a character, and both stay as they are written (`Piece.unescape_text_append`).  A value
reads back when no character of two code units is written by its codes, and only then (`parse_coded`).
-/

namespace LayeredConfig.Properties

open Text (isBlank trimStart)

/-- The UTF-16 code units of a character: two for a character beyond U+FFFF. -/
def codeUnits (c : Char) : List Nat :=
  if c.toNat < 0x10000 then [c.toNat]
  else [0xd800 + (c.toNat - 0x10000) / 0x400, 0xdc00 + (c.toNat - 0x10000) % 0x400]

/-- The values of the four hexadecimal digits of a code unit. -/
def hexPlaces (unit : Nat) : List Nat := [unit / 0x1000, unit / 0x100 % 16, unit / 0x10 % 16, unit % 16]

/-- Whether a text is the code of a code unit, its digits in either case. -/
def IsCode (unit : Nat) (code : List Char) : Prop := code.map Text.hexDigit? = (hexPlaces unit).map some

instance (unit : Nat) (code : List Char) : Decidable (IsCode unit code) := inferInstanceAs (Decidable (_ = _))

/-- The ways to write a character in a value without its code. -/
inductive IsPlain : Char → List Char → Prop
  | bare {c : Char} (h : c ∉ ['\\', '\n', '\r']) : IsPlain c [c]
  | escaped {c : Char} (h : c ∉ ['t', 'n', 'r', 'f', 'u', '\n', '\r']) : IsPlain c ['\\', c]
  | tab : IsPlain '\t' ['\\', 't']
  | lineFeed : IsPlain '\n' ['\\', 'n']
  | carriageReturn : IsPlain '\r' ['\\', 'r']
  | formFeed : IsPlain '\x0c' ['\\', 'f']

/-- A character of a value and how it is written. -/
inductive Piece where
  | plain (c : Char) (text : List Char) (h : IsPlain c text)
  | coded (c : Char) (codes : List (List Char)) (h : List.Forall₂ IsCode (codeUnits c) codes)

namespace Piece

/-- The character that is written. -/
def char : Piece → Char
  | plain c _ _ => c
  | coded c _ _ => c

/-- What is written. -/
def text : Piece → List Char
  | plain _ text _ => text
  | coded _ codes _ => codes.flatMap fun code => '\\' :: 'u' :: code

/-- Whether the character is written by the codes of two code units. -/
def IsPair : Piece → Prop
  | plain _ _ _ => False
  | coded c _ _ => 0x10000 ≤ c.toNat

/-- What is read: the character, or the codes of its halves without the backslashes. -/
def read : Piece → List Char
  | plain c _ _ => [c]
  | coded c codes _ => if 0x10000 ≤ c.toNat then codes.flatMap ('u' :: ·) else [c]

end Piece

/-- A value, character by character.  A blank at its start would count for the gap behind its key. -/
structure Writing where
  pieces : List Piece
  solid : ∀ c ∈ (pieces.flatMap Piece.text).head?, isBlank c = false

namespace Writing

/-- The value that is written. -/
def original (w : Writing) : String := String.ofList (w.pieces.map Piece.char)

/-- What is written for it. -/
def text (w : Writing) : List Char := w.pieces.flatMap Piece.text

/-- What is read for it. -/
def read (w : Writing) : String := String.ofList (w.pieces.flatMap Piece.read)

/-- The line of an entry with the value. -/
def line (w : Writing) (key : String) : String := String.ofList (escape key.toList ++ '=' :: w.text)

end Writing

/-- A place for a line in a text.  What stands before it are lines of which the last does not go on. -/
structure Place where
  before : String
  /-- The end of the line and the lines after it. -/
  after : String
  starts : ∀ c ∈ before.toList.getLast?, c = '\n'
  complete : ∀ line ∈ (lines before.toList).getLast?, continues line = false
  ends : EndsLine after.toList

/-! ### Codes -/

section

variable {unit : Nat} {code : List Char} {c : Char}

/-- A code is four digits. -/
private theorem IsCode.digits (h : IsCode unit code) :
    ∃ c₁ c₂ c₃ c₄, code = [c₁, c₂, c₃, c₄] ∧ Text.hexDigit? c₁ = some (unit / 0x1000) ∧
      Text.hexDigit? c₂ = some (unit / 0x100 % 16) ∧ Text.hexDigit? c₃ = some (unit / 0x10 % 16) ∧
      Text.hexDigit? c₄ = some (unit % 16) := by
  obtain ⟨c₁, code, rfl, h₁, h⟩ := List.map_eq_cons_iff.1 h
  obtain ⟨c₂, code, rfl, h₂, h⟩ := List.map_eq_cons_iff.1 h
  obtain ⟨c₃, code, rfl, h₃, h⟩ := List.map_eq_cons_iff.1 h
  obtain ⟨c₄, code, rfl, h₄, h⟩ := List.map_eq_cons_iff.1 h
  obtain rfl := List.map_eq_nil_iff.1 h
  exact ⟨c₁, c₂, c₃, c₄, rfl, h₁, h₂, h₃, h₄⟩

/-- The digits of a code spell its code unit. -/
private theorem IsCode.unicodeChar? (h : IsCode unit code) : unicodeChar? code = Text.charOfCode? unit := by
  obtain ⟨c₁, c₂, c₃, c₄, rfl, h₁, h₂, h₃, h₄⟩ := h.digits
  have hnumber : Text.hexNumber? [c₁, c₂, c₃, c₄] = some unit := by
    simp only [Text.hexNumber?, List.foldl_cons, List.foldl_nil, Option.bind_some, Option.map_some, h₁, h₂, h₃, h₄]
    congr 1
    omega
  rw [Properties.unicodeChar?.eq_def]
  split
  -- A plus sign is no digit.
  · rename_i rest heq
    obtain ⟨rfl, -⟩ := List.cons.inj heq
    nomatch h₁
  · exact congrArg (Option.bind · Text.charOfCode?) hnumber

/-- A code is read as the character of its code unit, or stays without its backslash if there is none. -/
private theorem IsCode.unescape (h : IsCode unit code) (cs : List Char) :
    unescape ('\\' :: 'u' :: (code ++ cs)) = ((Text.charOfCode? unit).elim ('u' :: code) ([·])) ++ unescape cs := by
  have hlength : code.length = 4 := by
    rw [← List.length_map (f := Text.hexDigit?), h]
    rfl
  have htake : (code ++ cs).take 4 = code := hlength ▸ List.take_left
  have hdrop : (code ++ cs).drop 4 = cs := hlength ▸ List.drop_left
  rw [Properties.unescape, if_pos rfl, htake, hdrop]
  · dsimp only
    rw [h.unicodeChar?]
    cases Text.charOfCode? unit with
    | none => rfl
    | some c => rfl
  all_goals decide

private theorem IsCode.not_mem (h : IsCode unit code) (hc : Text.hexDigit? c = none) : c ∉ code := by
  intro hmem
  have hdigit : Text.hexDigit? c ∈ (hexPlaces unit).map some := h ▸ List.mem_map_of_mem hmem
  obtain ⟨place, -, hplace⟩ := List.mem_map.1 hdigit
  rw [hc] at hplace
  nomatch hplace

private theorem IsCode.continues (h : IsCode unit code) : continues ('\\' :: 'u' :: code) = false := by
  obtain ⟨c₁, c₂, c₃, c₄, rfl, -⟩ := h.digits
  have hlast : c₄ ≠ '\\' := by
    rintro rfl
    exact h.not_mem (rfl : Text.hexDigit? '\\' = none) (by simp)
  exact continues_concat hlast ['\\', 'u', c₁, c₂, c₃]

private theorem charOfCode?_toNat (c : Char) : Text.charOfCode? c.toNat = some c := by
  have hvalid : c.toNat.isValidChar := c.valid
  have hofNat := Char.ofNat_toNat c
  rw [Char.ofNat, dif_pos hvalid] at hofNat
  rw [Text.charOfCode?, dif_pos hvalid, hofNat]

/-- Half of a character is no character. -/
private theorem charOfCode?_half (h : 0xd800 ≤ unit ∧ unit < 0xe000) : Text.charOfCode? unit = none := by
  rw [Text.charOfCode?, dif_neg]
  rintro (hvalid | hvalid)
  · omega
  · omega

/-- A character has one code that is read as the character, or two that are read as none. -/
private theorem codes_cases {codes : List (List Char)} (h : List.Forall₂ IsCode (codeUnits c) codes) :
    (¬ 0x10000 ≤ c.toNat ∧ ∃ code, codes = [code] ∧ IsCode c.toNat code) ∨
      0x10000 ≤ c.toNat ∧ ∃ first second code code', codes = [code, code'] ∧
        IsCode first code ∧ Text.charOfCode? first = none ∧ IsCode second code' ∧ Text.charOfCode? second = none := by
  have hlast : c.toNat < 0xd800 ∨ 0xdfff < c.toNat ∧ c.toNat < 0x110000 := c.valid
  by_cases hc : c.toNat < 0x10000
  · rw [codeUnits, if_pos hc, List.forall₂_cons_left_iff] at h
    obtain ⟨code, codes, hcode, hnil, rfl⟩ := h
    rw [List.forall₂_nil_left_iff.1 hnil]
    exact .inl ⟨Nat.not_le.2 hc, code, rfl, hcode⟩
  · rw [codeUnits, if_neg hc, List.forall₂_cons_left_iff] at h
    obtain ⟨code, codes, hcode, h, rfl⟩ := h
    obtain ⟨code', codes, hcode', hnil, rfl⟩ := List.forall₂_cons_left_iff.1 h
    rw [List.forall₂_nil_left_iff.1 hnil]
    refine .inr ⟨Nat.not_lt.1 hc, _, _, code, code', rfl, hcode, charOfCode?_half ?_, hcode', charOfCode?_half ?_⟩
    · omega
    · omega

end

/-! ### Characters -/

namespace Piece

/-- Each character is read for itself. -/
theorem unescape_text_append (p : Piece) (cs : List Char) : unescape (p.text ++ cs) = p.read ++ unescape cs := by
  cases p with
  | plain c text h =>
    cases h with
    | bare h => exact unescape_plain (fun hc => h (by simp [hc])) cs
    | escaped h =>
      simp only [List.mem_cons, List.not_mem_nil, or_false, not_or] at h
      obtain ⟨ht, hn, hr, hf, hu, -⟩ := h
      simp [text, read, unescape, hu]
    | tab | lineFeed | carriageReturn | formFeed => simp [text, read, unescape]
  | coded c codes h =>
    rcases codes_cases h with ⟨hc, code, rfl, hcode⟩ | ⟨hc, _, _, code, code', rfl, hcode, hnone, hcode', hnone'⟩
    · have hread := hcode.unescape cs
      rw [charOfCode?_toNat] at hread
      simpa [text, read, hc] using hread
    · have hfirst := hcode.unescape ('\\' :: 'u' :: (code' ++ cs))
      rw [hnone, hcode'.unescape, hnone'] at hfirst
      simpa [text, read, hc] using hfirst

/-- What is written for a character ends in an even run of backslashes. -/
private theorem continues_text (p : Piece) : continues p.text = false := by
  cases p with
  | plain c text h =>
    cases h with
    | bare h => exact continues_concat (fun hc => h (by simp [hc])) []
    | escaped h =>
      by_cases hc : c = '\\'
      · rw [text, hc]
        rfl
      · exact continues_concat hc ['\\']
    | tab | lineFeed | carriageReturn | formFeed => rfl
  | coded c codes h =>
    rcases codes_cases h with ⟨-, code, rfl, hcode⟩ | ⟨-, _, _, code, code', rfl, hcode, -, hcode', -⟩
    · rw [text, List.flatMap_singleton, hcode.continues]
    · rw [text, List.flatMap_cons, List.flatMap_singleton, continues_append hcode.continues, hcode'.continues]

/-- What is written for a character stays on its line. -/
private theorem not_mem_text {c : Char} (hc : c = '\n' ∨ c = '\r') (p : Piece) : c ∉ p.text := by
  cases p with
  | plain d text h =>
    intro hmem
    cases h with
    | bare h =>
      obtain rfl := List.mem_singleton.1 hmem
      exact h (List.mem_cons_of_mem _ (by simpa using hc))
    | escaped h =>
      rcases List.mem_cons.1 hmem with rfl | hmem
      · simp at hc
      · obtain rfl := List.mem_singleton.1 hmem
        exact h (by simp [hc])
    | tab | lineFeed | carriageReturn | formFeed => rcases hc with rfl | rfl <;> simp [text] at hmem
  | coded d codes h =>
    have hescape {unit : Nat} {code : List Char} (hcode : IsCode unit code) : c ∉ '\\' :: 'u' :: code := by
      rcases hc with rfl | rfl
      · simpa using hcode.not_mem rfl
      · simpa using hcode.not_mem rfl
    rcases codes_cases h with ⟨-, code, rfl, hcode⟩ | ⟨-, _, _, code, code', rfl, hcode, -, hcode', -⟩
    · rw [text, List.flatMap_singleton]
      exact hescape hcode
    · rw [text, List.flatMap_cons, List.flatMap_singleton, List.mem_append, not_or]
      exact ⟨hescape hcode, hescape hcode'⟩

private theorem read_of_not_isPair {p : Piece} (h : ¬ p.IsPair) : p.read = [p.char] := by
  cases p with
  | plain c text _ => rfl
  | coded c codes _ => exact if_neg h

private theorem one_lt_length_read {p : Piece} (h : p.IsPair) : 1 < p.read.length := by
  cases p with
  | plain c text _ => exact h.elim
  | coded c codes hcodes =>
    rcases codes_cases hcodes with ⟨hc, -⟩ | ⟨hc, _, _, code, code', rfl, -⟩
    · exact absurd h hc
    · rw [read, if_pos hc, List.flatMap_cons, List.flatMap_singleton, List.length_append, List.length_cons,
        List.length_cons]
      omega

end Piece

/-! ### Values -/

namespace Writing

variable (w : Writing)

private theorem unescape_text : unescape w.text = w.read.toList := by
  rw [read, String.toList_ofList, text]
  induction w.pieces with
  | nil => rw [List.flatMap_nil, List.flatMap_nil, unescape]
  | cons p pieces ih => rw [List.flatMap_cons, List.flatMap_cons, p.unescape_text_append, ih]

private theorem continues_text : continues w.text = false := by
  rw [text]
  induction w.pieces with
  | nil => rfl
  | cons p pieces ih => rw [List.flatMap_cons, continues_append p.continues_text, ih]

private theorem not_mem_line {c : Char} (hc : c = '\n' ∨ c = '\r') (key : String) : c ∉ (w.line key).toList := by
  have htext : c ∉ w.text := by
    intro hmem
    obtain ⟨p, -, hp⟩ := List.mem_flatMap.1 hmem
    exact p.not_mem_text hc hp
  have hequals : c ≠ '=' := by
    rintro rfl
    simp at hc
  rw [line, String.toList_ofList, List.mem_append, List.mem_cons]
  simp [htext, hequals, not_mem_escape hc]

/-- The line of an entry is a logical line. -/
private theorem logicalLines_line (key : String) (rest : List (List Char)) :
    logicalLines none ((w.line key).toList :: rest) = (w.line key).toList :: logicalLines none rest := by
  rw [line, String.toList_ofList]
  refine logicalLines_of_plain ?_ (head?_escape_equals key.toList w.text) ?_ rest
  · exact List.append_ne_nil_of_right_ne_nil _ (List.cons_ne_nil _ _)
  · rw [List.append_cons, continues_append (continues_concat (by decide) _), w.continues_text]

private theorem entry_line (key : String) : entry (w.line key).toList = (key, w.read) := by
  have htrim : trimStart w.text = w.text := Text.trimStart_of_head? w.solid
  rw [entry, line, String.toList_ofList, splitEntry_escape, htrim]
  simp [unescape_escape, unescape_text]

/-- Nothing is read for fewer characters than were written. -/
private theorem length_le_length_flatMap_read (pieces : List Piece) :
    pieces.length ≤ (pieces.flatMap Piece.read).length := by
  induction pieces with
  | nil => exact Nat.le_refl 0
  | cons p pieces ih =>
    have hp : 1 ≤ p.read.length := by
      by_cases hpair : p.IsPair
      · exact Nat.le_of_lt (Piece.one_lt_length_read hpair)
      · rw [Piece.read_of_not_isPair hpair]
        exact Nat.le_refl 1
    rw [List.flatMap_cons, List.length_append, List.length_cons]
    omega

/-- What is read is too long if it holds halves of characters. -/
private theorem read_eq_original_iff : w.read = w.original ↔ ∀ p ∈ w.pieces, ¬ p.IsPair := by
  have hiff : w.read = w.original ↔ w.pieces.flatMap Piece.read = w.pieces.map Piece.char := String.ofList_inj
  rw [hiff]
  constructor
  · intro h p hp hpair
    have hlength := congrArg List.length h
    obtain ⟨before, after, hpieces⟩ := List.append_of_mem hp
    have hbefore := length_le_length_flatMap_read before
    have hafter := length_le_length_flatMap_read after
    have hone := Piece.one_lt_length_read hpair
    rw [List.length_map, hpieces, List.flatMap_append, List.flatMap_cons, List.length_append, List.length_append,
      List.length_append, List.length_cons] at hlength
    omega
  · intro h
    rw [List.map_eq_flatMap]
    exact List.flatMap_congr fun p hp => Piece.read_of_not_isPair (h p hp)

end Writing

/-! ### Lines in their places -/

namespace Place

variable (p : Place)

/-- Behind whole lines the logical lines start anew. -/
private theorem logicalLines_before (rest : List (List Char)) :
    logicalLines none (lines p.before.toList ++ rest) =
      logicalLines none (lines p.before.toList) ++ logicalLines none rest := by
  cases hlast : (lines p.before.toList).getLast? with
  | none =>
    rw [List.getLast?_eq_none_iff.1 hlast]
    rfl
  | some last =>
    have hend : continues last = false := p.complete last hlast
    obtain ⟨out, waiting, hwaiting, hout⟩ :=
      exists_logicalLines_append isWaiting_none (lines p.before.toList).dropLast
    have hlines : lines p.before.toList = (lines p.before.toList).dropLast ++ [last] :=
      (List.dropLast_append_getLast? last hlast).symm
    have halone := logicalLines_of_not_continues hwaiting hend []
    rw [logicalLines, Option.map_none, Option.toList_none, List.append_nil] at halone
    rw [hlines, List.append_assoc, hout, hout, List.singleton_append,
      logicalLines_of_not_continues hwaiting hend rest, halone, List.append_assoc]

/-- A line in its place is read for itself. -/
private theorem logicalLines_around {line : List Char} (hne : line ≠ []) (hfeed : '\n' ∉ line) (hreturn : '\r' ∉ line)
    (hline : ∀ rest, logicalLines none (line :: rest) = line :: logicalLines none rest) :
    logicalLines none (lines (p.before.toList ++ (line ++ p.after.toList))) =
      logicalLines none (lines p.before.toList) ++ line :: logicalLines none (lines p.after.toList) := by
  obtain ⟨others, hnone, hothers⟩ := exists_lines_append p.ends
  have hfirst : lines (line ++ p.after.toList) = line :: others := by
    rw [hothers line hfeed fun h => hreturn (List.mem_of_getLast? h.1), List.isEmpty_eq_false_iff.2 hne,
      Bool.false_and, if_neg Bool.false_ne_true]
  have hafter : logicalLines none (lines p.after.toList) = logicalLines none others := by
    have hempty := hothers [] List.not_mem_nil (by simp)
    rw [List.nil_append] at hempty
    rw [hempty]
    split
    · rename_i h
      rw [hnone (List.isEmpty_iff.1 (Bool.and_eq_true_iff.1 h).2)]
    · exact logicalLines_of_isIgnored rfl others
  rw [lines_append p.starts, p.logicalLines_before, hfirst, hline, hafter]

end Place

/-- A value in a text is read character by character: a character beyond U+FFFF that is written by its codes as those
codes, any other one as itself.  So the value reads back iff it has no such character. -/
theorem parse_coded (p : Place) (key : String) (w : Writing) :
    parse (p.before ++ w.line key ++ p.after) =
        ((parse p.before).put key w.read).putAll (parse p.after).pairs ∧
      (w.read = w.original ↔ ∀ piece ∈ w.pieces, ¬ piece.IsPair) := by
  refine ⟨?_, w.read_eq_original_iff⟩
  have htext : (p.before ++ w.line key ++ p.after).toList =
      p.before.toList ++ ((w.line key).toList ++ p.after.toList) := by
    rw [String.toList_append, String.toList_append, List.append_assoc]
  have hne : (w.line key).toList ≠ [] := by
    rw [Writing.line, String.toList_ofList]
    exact List.append_ne_nil_of_right_ne_nil _ (List.cons_ne_nil _ _)
  have hput : Entries.ofPairs ((logicalLines none (lines p.before.toList)).map entry ++ [(key, w.read)]) =
      (parse p.before).put key w.read := Entries.putAll_append _ _ _
  rw [parse, htext, p.logicalLines_around hne (w.not_mem_line (.inl rfl) key) (w.not_mem_line (.inr rfl) key)
    (w.logicalLines_line key), List.map_append, List.map_cons, w.entry_line, List.append_cons,
    Entries.ofPairs_append, hput]
  rfl

/-- A letter and a face, both written by their codes. -/
def face : Writing where
  pieces := [.coded 'é' ["00e9".toList] (.cons (by decide) .nil),
    .coded '😀' ["d83d".toList, "DE00".toList] (.cons (by decide) (.cons (by decide) .nil))]
  solid := fun _ hc => Option.some.inj hc ▸ rfl

/-- The face is not read back: what is read are the digits of its halves. -/
theorem not_read_face :
    face.original = "é😀" ∧ face.line "mood" = "mood=\\u00e9\\ud83d\\uDE00" ∧
      (parse (face.line "mood")).get? "mood" = some "éud83duDE00" ∧
      (parse (face.line "mood")).get? "mood" ≠ some face.original := by
  decide +kernel

end LayeredConfig.Properties
